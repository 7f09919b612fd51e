import LintRun.Machine.Interpreter
import LintRun.Proofs.Shell.WordLaws
import Mathlib.Data.List.Forall2

/-!
# The fields of words without expansions

The shell expands a word without expansions and patterns to its text, whatever its state, which
stays as it is.
-/

namespace LintRun.Machine

open Shell (Piece Spells Stands Word)

variable {α β : Type} {session : Session}

/-- A part of a run gives a value and leaves the session as it is. -/
def Exec.Reads (part : Exec α) (session : Session) (a : α) : Prop :=
  part session = (.ok a, session)

/-- With fuel enough a part of a run does so, whatever the session. -/
def Exec.Settles (part : Nat → Exec α) (a : α) : Prop :=
  ∃ least, ∀ fuel, least ≤ fuel → ∀ session, Exec.Reads (part fuel) session a

theorem Exec.Reads.pure (a : α) : Exec.Reads (pure a) session a := rfl

theorem Exec.Reads.bind {part : Exec α} {next : α → Exec β} {a : α} {b : β}
    (h : Exec.Reads part session a) (hnext : Exec.Reads (next a) session b) :
    Exec.Reads (part >>= next) session b := by
  unfold Exec.Reads at *
  change (match part session with
    | (result, session) => ExceptT.bindCont next result session) = _
  rw [h]
  exact hnext

-- ---------------------------------------------------------------------------
-- Fields
-- ---------------------------------------------------------------------------

namespace Fragment

def IsText : Fragment → Prop
  | .text .. => True
  | _ => False

theorem Fields.add_eq (fields : Fields) (kept : Bool) (cs : List Char) :
    fields.add kept cs =
      ⟨fields.complete, some ((cs.map (⟨·, kept⟩)).reverse ++ fields.current.getD []), false⟩ := by
  have hfold (marks : Word) : cs.foldl (fun marks c => ⟨c, kept⟩ :: marks) marks =
      (cs.map (⟨·, kept⟩)).reverse ++ marks := by
    induction cs generalizing marks with
    | nil => rfl
    | cons c cs ih => simp [ih]
  rw [Fields.add, hfold]

theorem foldl_push_texts (separators : List Char) {fragments : List Fragment}
    (h : ∀ fragment ∈ fragments, fragment.IsText) (marks : Word) :
    fragments.foldl (Fields.push separators) ⟨[], some marks, false⟩ =
      ⟨[], some ((word fragments).reverse ++ marks), false⟩ := by
  induction fragments generalizing marks with
  | nil => rfl
  | cons fragment fragments ih =>
    have hrest : ∀ other ∈ fragments, other.IsText :=
      fun other hother => h other (List.mem_cons_of_mem fragment hother)
    cases fragment with
    | text cs kept =>
      rw [List.foldl_cons, Fields.push, Fields.add_eq, ih hrest]
      simp [word]
    | value cs => exact (h _ List.mem_cons_self).elim
    | boundary => exact (h _ List.mem_cons_self).elim

/-- Texts make one field, whatever separates the fields of values. -/
theorem fields_texts (separators : List Char) {fragments : List Fragment} (hne : fragments ≠ [])
    (h : ∀ fragment ∈ fragments, fragment.IsText) :
    fields separators fragments = [word fragments] := by
  cases fragments with
  | nil => contradiction
  | cons fragment fragments =>
    have hrest : ∀ other ∈ fragments, other.IsText :=
      fun other hother => h other (List.mem_cons_of_mem fragment hother)
    cases fragment with
    | text cs kept =>
      rw [fields, List.foldl_cons, Fields.push, Fields.add_eq]
      dsimp only
      rw [foldl_push_texts separators hrest]
      simp [Fields.close, word]
    | value cs => exact (h _ List.mem_cons_self).elim
    | boundary => exact (h _ List.mem_cons_self).elim

end Fragment

theorem fieldTexts_inactive (plain : Bool) (tree : Tree) {field : Word}
    (h : Shell.Pattern.isActive field = false) : fieldTexts plain tree field = [field.text] := by
  simp [fieldTexts, h]

theorem textsOf_inactive {field : Word} (h : Shell.Pattern.isActive field = false) :
    Exec.Reads (Exec.textsOf [field]) session [field.text] := by
  unfold Exec.textsOf
  refine Exec.Reads.bind rfl (Exec.Reads.bind rfl ?_)
  rw [List.flatMap_singleton, fieldTexts_inactive _ _ h]
  exact Exec.Reads.pure _

-- ---------------------------------------------------------------------------
-- Expansions
-- ---------------------------------------------------------------------------

namespace Interpreter

/-- Given fuel enough, the shell expands a word to these characters. -/
def Expands (word : List Piece) (marks : Word) : Prop :=
  ∃ fragments, (word ≠ [] → fragments ≠ []) ∧ (∀ fragment ∈ fragments, fragment.IsText) ∧
    Fragment.word fragments = marks ∧ Exec.Settles (expandPieces word) fragments

theorem Expands.nil : Expands [] [] := by
  refine ⟨[], fun hne => absurd rfl hne, nofun, rfl, 1, fun fuel hfuel session => ?_⟩
  obtain ⟨fuel, rfl⟩ := Nat.exists_eq_add_of_le' hfuel
  rw [expandPieces]
  exact Exec.Reads.pure _

theorem Expands.cons {piece : Piece} {rest : List Piece} {cs : List Char} {kept : Bool}
    {marks : Word}
    (hpiece : Exec.Settles (expandPiece piece) [.text cs kept])
    (hrest : Expands rest marks) : Expands (piece :: rest) (cs.map (⟨·, kept⟩) ++ marks) := by
  obtain ⟨leastPiece, hpiece⟩ := hpiece
  obtain ⟨fragments, -, htexts, rfl, leastRest, hrest⟩ := hrest
  refine ⟨.text cs kept :: fragments, fun _ => List.cons_ne_nil _ _,
    List.forall_mem_cons.mpr ⟨trivial, htexts⟩, rfl, leastPiece + leastRest + 1, ?_⟩
  intro fuel hfuel session
  obtain ⟨fuel, rfl⟩ := Nat.exists_eq_add_of_le' (show 1 ≤ fuel by omega)
  rw [expandPieces]
  exact Exec.Reads.bind (hpiece fuel (by omega) session)
    (Exec.Reads.bind (hrest fuel (by omega) session) (Exec.Reads.pure _))

theorem Expands.text {word : List Piece} {marks : Word} (h : Expands word marks) :
    Exec.Settles (expandText word) marks.text := by
  obtain ⟨fragments, -, -, rfl, least, hreads⟩ := h
  refine ⟨least + 1, fun fuel hfuel session => ?_⟩
  obtain ⟨fuel, rfl⟩ := Nat.exists_eq_add_of_le' (show 1 ≤ fuel by omega)
  rw [expandText]
  exact Exec.Reads.bind (hreads fuel (by omega) session) (Exec.Reads.pure _)

theorem expandPiece_plain (text : String) :
    Exec.Settles (expandPiece (.plain text)) [.text text.toList false] := by
  refine ⟨1, fun fuel hfuel session => ?_⟩
  obtain ⟨fuel, rfl⟩ := Nat.exists_eq_add_of_le' hfuel
  rw [expandPiece]
  exact Exec.Reads.pure _

theorem expandPiece_quoted (text : String) :
    Exec.Settles (expandPiece (.quoted text)) [.text text.toList true] := by
  refine ⟨1, fun fuel hfuel session => ?_⟩
  obtain ⟨fuel, rfl⟩ := Nat.exists_eq_add_of_le' hfuel
  rw [expandPiece]
  exact Exec.Reads.pure _

theorem expandPiece_assigned (name : String) {value : List Piece} {marks : Word}
    (h : Expands value marks) :
    Exec.Settles (expandPiece (.assigned name value))
      [.text (name ++ "=" ++ marks.text).toList true] := by
  obtain ⟨least, hvalue⟩ := h.text
  refine ⟨least + 1, fun fuel hfuel session => ?_⟩
  obtain ⟨fuel, rfl⟩ := Nat.exists_eq_add_of_le' (show 1 ≤ fuel by omega)
  rw [expandPiece]
  exact Exec.Reads.bind (hvalue fuel (by omega) session) (Exec.Reads.pure _)

/-- What has no expansions is expanded to what it says. -/
theorem expands_spells {word : List Piece} {marks : Word} (h : Spells word marks) :
    Expands word marks := by
  induction h with
  | nil => exact .nil
  | plain text _ ih => exact .cons (expandPiece_plain text) ih
  | quoted text _ ih => exact .cons (expandPiece_quoted text) ih
  | assigned name _ _ ihvalue ih => exact .cons (expandPiece_assigned name ihvalue) ih

/-- Words that stand for texts are expanded to them, whatever the state of the shell. -/
theorem expandWords_stands {words : List (List Piece)} {texts : List String}
    (h : List.Forall₂ Stands words texts) : Exec.Settles (expandWords words) texts := by
  induction h with
  | nil =>
    refine ⟨1, fun fuel hfuel session => ?_⟩
    obtain ⟨fuel, rfl⟩ := Nat.exists_eq_add_of_le' hfuel
    rw [expandWords]
    exact Exec.Reads.pure _
  | @cons word text words texts hstands h ih =>
    obtain ⟨hne, marks, hspells, htext, hinactive⟩ := hstands
    obtain ⟨fragments, hfragments, htexts, hword, leastWord, hpieces⟩ := expands_spells hspells
    obtain ⟨least, hwords⟩ := ih
    refine ⟨least + leastWord + 1, fun fuel hfuel session => ?_⟩
    obtain ⟨fuel, rfl⟩ := Nat.exists_eq_add_of_le' (show 1 ≤ fuel by omega)
    rw [expandWords]
    refine Exec.Reads.bind rfl (Exec.Reads.bind (hpieces fuel (by omega) session) ?_)
    rw [Fragment.fields_texts _ (hfragments hne) htexts, hword, ← htext]
    refine Exec.Reads.bind (textsOf_inactive hinactive) ?_
    rw [htext]
    exact Exec.Reads.bind (hwords fuel (by omega) session) (Exec.Reads.pure _)

end Interpreter

end LintRun.Machine
