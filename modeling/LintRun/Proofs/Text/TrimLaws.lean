import Mathlib.Data.List.DropRight
import LintRun.Text.Blank

/-!
# Laws of trimming

Trimming takes away characters of one kind at both ends and leaves nothing exactly if there are no
others. What it leaves begins and ends with another character, so that trimming again changes
nothing.
-/

namespace LintRun.Text

variable {p : Char → Bool} {c : Char} {cs : List Char}

-- ---------------------------------------------------------------------------
-- Dropping at the end
-- ---------------------------------------------------------------------------

theorem dropEndWhile_eq_rdropWhile (p : Char → Bool) (cs : List Char) :
    dropEndWhile p cs = cs.rdropWhile p :=
  rfl

theorem mem_of_mem_dropEndWhile (h : c ∈ dropEndWhile p cs) : c ∈ cs :=
  (List.rdropWhile_prefix p cs).mem h

theorem head?_of_head?_dropEndWhile (h : (dropEndWhile p cs).head? = some c) :
    cs.head? = some c := by
  obtain ⟨rest, hrest⟩ := List.rdropWhile_prefix p cs
  rw [← hrest, List.head?_append, ← dropEndWhile_eq_rdropWhile, h]
  rfl

theorem eq_false_of_getLast?_dropEndWhile (h : (dropEndWhile p cs).getLast? = some c) :
    p c = false := by
  obtain ⟨hne, rfl⟩ := List.mem_getLast?_eq_getLast h
  exact Bool.eq_false_iff.mpr (List.rdropWhile_last_not p cs hne)

-- ---------------------------------------------------------------------------
-- Trimming
-- ---------------------------------------------------------------------------

theorem mem_of_mem_trimWhile (h : c ∈ trimWhile p cs) : c ∈ cs :=
  (List.dropWhile_suffix p).mem (mem_of_mem_dropEndWhile h)

theorem trimWhile_eq_nil_iff : trimWhile p cs = [] ↔ ∀ c ∈ cs, p c = true := by
  rw [trimWhile, dropEndWhile_eq_rdropWhile, List.rdropWhile_eq_nil_iff]
  induction cs with
  | nil => simp
  | cons c cs ih =>
    cases hc : p c with
    | true => simpa [hc] using ih
    | false => simp [hc]

theorem trimWhile_cons_of_pos (hc : p c = true) : trimWhile p (c :: cs) = trimWhile p cs := by
  rw [trimWhile, List.dropWhile_cons_of_pos hc, trimWhile]

theorem trimWhile_concat_of_pos (hc : p c = true) :
    trimWhile p (cs ++ [c]) = trimWhile p cs := by
  simp only [trimWhile, dropEndWhile_eq_rdropWhile, List.dropWhile_append]
  cases hcs : cs.dropWhile p with
  | nil => simp [hc]
  | cons first rest =>
    rw [List.isEmpty_cons, if_neg Bool.false_ne_true, List.rdropWhile_concat_pos p _ c hc]

theorem trimWhile_surround {before after : List Char} (hbefore : ∀ c ∈ before, p c = true)
    (hafter : ∀ c ∈ after, p c = true) : trimWhile p (before ++ cs ++ after) = trimWhile p cs := by
  have hfirst : trimWhile p (before ++ cs) = trimWhile p cs := by
    induction before with
    | nil => rfl
    | cons c before ih =>
      obtain ⟨hc, hrest⟩ := List.forall_mem_cons.mp hbefore
      rw [List.cons_append, trimWhile_cons_of_pos hc, ih hrest]
  induction after using List.reverseRecOn with
  | nil => rw [List.append_nil, hfirst]
  | append_singleton after c ih =>
    obtain ⟨hrest, hc⟩ := List.forall_mem_append.mp hafter
    rw [← List.append_assoc, trimWhile_concat_of_pos (hc c (List.mem_singleton_self c)), ih hrest]

theorem trimWhile_of_ends (hhead : ∀ c ∈ cs.head?, p c = false)
    (hlast : ∀ c ∈ cs.getLast?, p c = false) : trimWhile p cs = cs := by
  have hfirst : cs.dropWhile p = cs := by
    cases cs with
    | nil => rfl
    | cons c cs => exact List.dropWhile_cons_of_neg (by simp [hhead c rfl])
  rw [trimWhile, hfirst, dropEndWhile_eq_rdropWhile, List.rdropWhile_eq_self_iff]
  intro hne
  simp [hlast _ (List.getLast?_eq_some_getLast hne)]

theorem eq_false_of_head?_trimWhile (h : (trimWhile p cs).head? = some c) : p c = false := by
  simpa [head?_of_head?_dropEndWhile h] using List.head?_dropWhile_not p cs

theorem trimWhile_trimWhile : trimWhile p (trimWhile p cs) = trimWhile p cs :=
  trimWhile_of_ends (fun _ => eq_false_of_head?_trimWhile)
    fun _ => eq_false_of_getLast?_dropEndWhile

theorem trim_eq_empty_iff {s : String} : trim s = "" ↔ allBlank s = true := by
  rw [trim, String.ofList_eq_empty_iff, trimWhile_eq_nil_iff, allBlank, List.all_eq_true]

end LintRun.Text
