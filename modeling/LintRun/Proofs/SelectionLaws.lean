import Mathlib.Data.List.Basic
import LintRun.Selection

/-!
# Names of files to check

A name is taken as that of a file to check if it has the extension, which is a matter of its last
five characters. Line breaks are an exception: one at the end of a name is overlooked, and one right
before the extension is not taken as a character (`isPhpFile_iff`).
-/

namespace LintRun

variable {name : String} {cs before extension : List Char} {c : Char}

-- ---------------------------------------------------------------------------
-- The extension
-- ---------------------------------------------------------------------------

/-- A name with at least five characters, of which the last four are the extension in any case. -/
structure HasExtension (name : String) : Prop where
  five_le_length : 5 ≤ name.length
  map_toLower_drop : (name.toList.drop (name.length - 4)).map Char.toLower = ".php".toList

instance (name : String) : Decidable (HasExtension name) :=
  decidable_of_iff (_ ∧ _) ⟨fun h => ⟨h.1, h.2⟩, fun h => ⟨h.1, h.2⟩⟩

/-- The fifth character from the end, after which the extension comes if there is one. -/
def beforeExtension (name : String) : Option Char :=
  name.toList[name.length - 5]?

/-- A name with the extension, taken apart. -/
theorem hasExtension_iff : HasExtension name ∧ beforeExtension name = some c ↔
    ∃ before extension, name.toList = before ++ c :: extension ∧
      extension.map Char.toLower = ".php".toList := by
  constructor
  · rintro ⟨⟨hfive, hlast⟩, hbefore⟩
    obtain ⟨hlt, rfl⟩ := List.getElem?_eq_some_iff.mp hbefore
    have hnext : name.length - 5 + 1 = name.length - 4 := by omega
    have hdrop := List.drop_eq_getElem_cons hlt
    rw [hnext] at hdrop
    refine ⟨name.toList.take (name.length - 5), _, ?_, hlast⟩
    rw [← hdrop, List.take_append_drop]
  · rintro ⟨before, extension, hname, hextension⟩
    have hfour : extension.length = 4 := by simpa using congrArg List.length hextension
    have hlength : name.length = before.length + 5 := by
      rw [← String.length_toList, hname, List.length_append, List.length_cons, hfour]
    have hshape : name.toList = (before ++ [c]) ++ extension := by simp [hname]
    refine ⟨⟨by omega, ?_⟩, ?_⟩
    · rw [hshape, hlength, ← hextension, List.drop_left' (by simp)]
    · rw [beforeExtension, hlength, hname]
      simp

theorem HasExtension.exists_beforeExtension (h : HasExtension name) :
    ∃ c, beforeExtension name = some c := by
  have hlt : name.length - 5 < name.toList.length := by
    have hfive := h.five_le_length
    rw [String.length_toList]
    omega
  exact ⟨_, List.getElem?_eq_getElem hlt⟩

-- ---------------------------------------------------------------------------
-- Names that are taken
-- ---------------------------------------------------------------------------

theorem toLower_eq_newline : c.toLower = '\n' ↔ c = '\n' := by
  unfold Char.toLower
  split
  · rename_i hupper
    -- Neither an uppercase letter nor its lowercase letter is a line break.
    have hnat : 65 ≤ c.toNat ∧ c.toNat ≤ 90 := hupper
    constructor
    · intro h
      have hlower : (c.toNat + 32) % 4294967296 = 10 := congrArg Char.toNat h
      omega
    · rintro rfl
      simp at hnat
  · rfl

theorem endsWithExtension_append (hextension : extension.map Char.toLower = ".php".toList) :
    endsWithExtension (before ++ c :: extension) = (c.toLower != '\n') := by
  have hreverse : (before ++ c :: extension).reverse.map Char.toLower =
      'p' :: 'h' :: 'p' :: '.' :: c.toLower :: before.reverse.map Char.toLower := by
    simp [hextension]
  rw [endsWithExtension, hreverse]
  rfl

theorem endsWithExtension_iff : endsWithExtension cs = true ↔
    ∃ before c extension, cs = before ++ c :: extension ∧
      extension.map Char.toLower = ".php".toList ∧ c ≠ '\n' := by
  constructor
  · intro h
    unfold endsWithExtension at h
    split at h
    · rename_i lowered rest hreverse
      have hlowered : cs.map Char.toLower = rest.reverse ++ lowered :: ".php".toList := by
        rw [← List.reverse_inj, ← List.map_reverse, hreverse]
        simp
      obtain ⟨before, others, rfl, -, hothers⟩ := List.map_eq_append_iff.mp hlowered
      obtain ⟨c, extension, rfl, rfl, hextension⟩ := List.map_eq_cons_iff.mp hothers
      exact ⟨before, c, extension, rfl, hextension, by simpa [toLower_eq_newline] using h⟩
    · cases h
  · rintro ⟨before, c, extension, rfl, hextension, hc⟩
    rw [endsWithExtension_append hextension]
    simpa [toLower_eq_newline] using hc

theorem endsWithExtension_toList_iff : endsWithExtension name.toList = true ↔
    HasExtension name ∧ beforeExtension name ≠ some '\n' := by
  rw [endsWithExtension_iff]
  constructor
  · rintro ⟨before, c, extension, hname, hextension, hc⟩
    obtain ⟨hhas, hbefore⟩ := hasExtension_iff.mpr ⟨before, extension, hname, hextension⟩
    exact ⟨hhas, by simpa [hbefore] using hc⟩
  · rintro ⟨hhas, hne⟩
    obtain ⟨c, hc⟩ := hhas.exists_beforeExtension
    obtain ⟨before, extension, hname, hextension⟩ := hasExtension_iff.mp ⟨hhas, hc⟩
    exact ⟨before, c, extension, hname, hextension, by simpa [hc] using hne⟩

theorem endsWithExtension_dropLast_iff :
    (name.toList.getLast? == some '\n' && endsWithExtension name.toList.dropLast) = true ↔
      ∃ stem, name = stem ++ "\n" ∧ endsWithExtension stem.toList = true := by
  rw [Bool.and_eq_true, beq_iff_eq, List.getLast?_eq_some_iff]
  constructor
  · rintro ⟨⟨stem, hstem⟩, hends⟩
    refine ⟨String.ofList stem, ?_, by simpa [hstem] using hends⟩
    rw [← String.toList_inj, hstem]
    simp
  · rintro ⟨stem, rfl, hends⟩
    simpa using hends

/-- A name is taken exactly if it has the extension after a character that is no line break, where
one line break at its end does not count. Without line breaks it is the extension that decides. -/
theorem isPhpFile_iff (name : String) :
    (isPhpFile name = true ↔ ∃ stem, (name = stem ∨ name = stem ++ "\n") ∧ HasExtension stem ∧
      beforeExtension stem ≠ some '\n') ∧
    ('\n' ∉ name.toList → (isPhpFile name = true ↔ HasExtension name)) := by
  have htaken : isPhpFile name = true ↔ ∃ stem, (name = stem ∨ name = stem ++ "\n") ∧
      HasExtension stem ∧ beforeExtension stem ≠ some '\n' := by
    rw [isPhpFile, Bool.or_eq_true, endsWithExtension_dropLast_iff]
    simp only [endsWithExtension_toList_iff]
    constructor
    · rintro (h | ⟨stem, hname, h⟩)
      · exact ⟨name, .inl rfl, h⟩
      · exact ⟨stem, .inr hname, h⟩
    · rintro ⟨stem, rfl | hname, h⟩
      · exact .inl h
      · exact .inr ⟨stem, hname, h⟩
  refine ⟨htaken, fun hnone => ?_⟩
  rw [htaken]
  constructor
  · rintro ⟨stem, rfl | rfl, hhas, -⟩
    · exact hhas
    · simp at hnone
  · exact fun hhas => ⟨name, .inl rfl, hhas, fun hbefore => hnone (List.mem_of_getElem? hbefore)⟩

/-- A line break as the only character before the extension, and one after it. -/
theorem isPhpFile_newline :
    (HasExtension "\n.php" ∧ isPhpFile "\n.php" = false) ∧
    ¬HasExtension "a.php\n" ∧ isPhpFile "a.php\n" = true := by
  decide

end LintRun
