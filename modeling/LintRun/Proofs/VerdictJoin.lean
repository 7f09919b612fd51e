import Mathlib.Data.Int.Order.Basic
import Mathlib.Data.List.Perm.Basic
import Mathlib.Order.MinMax
import LintRun.Proofs.VerdictLaws

/-!
# Verdicts are joins

A verdict learns outcomes and counts in whatever order a run comes to know them. It keeps the worst
of the outcomes and the greatest of the counts, so that the order does not matter
(`addAll_isJoin`).
-/

namespace LintRun

theorem Outcome.join_right_comm (a b c : Outcome) : (a.join b).join c = (a.join c).join b := by
  cases a <;> cases b <;> cases c <;> rfl

/-- What a verdict learns: how an invocation ended, or how much the run has come to. -/
inductive Finding
  | ended (outcome : Outcome)
  | counted (filesProcessed itemsSkipped : Int)
  deriving DecidableEq

namespace Finding

def outcome? : Finding → Option Outcome
  | .ended outcome => some outcome
  | .counted .. => none

def filesProcessed? : Finding → Option Int
  | .ended _ => none
  | .counted filesProcessed _ => some filesProcessed

def itemsSkipped? : Finding → Option Int
  | .ended _ => none
  | .counted _ itemsSkipped => some itemsSkipped

end Finding

namespace Verdict

def add (verdict : Verdict) : Finding → Verdict
  | .ended outcome => verdict.fold outcome
  | .counted filesProcessed itemsSkipped => verdict.withCounts filesProcessed itemsSkipped

def addAll (verdict : Verdict) (findings : List Finding) : Verdict :=
  findings.foldl add verdict

/-- The outcomes that a verdict comes from, its first one included. -/
def outcomes (verdict : Verdict) (findings : List Finding) : List Outcome :=
  verdict.outcome :: findings.filterMap Finding.outcome?

/-- No part of the first verdict is above that of the second. -/
structure Le (verdict other : Verdict) : Prop where
  outcome_le : verdict.outcome.severity ≤ other.outcome.severity
  filesProcessed_le : verdict.filesProcessed ≤ other.filesProcessed
  itemsSkipped_le : verdict.itemsSkipped ≤ other.itemsSkipped
  invocations_le : verdict.invocations ≤ other.invocations

/-- The worst outcome, the greatest counts, and one more invocation for every outcome. -/
structure IsJoin (verdict : Verdict) (findings : List Finding) (joint : Verdict) : Prop where
  outcome_isWorst : joint.outcome.IsWorst (verdict.outcomes findings)
  filesProcessed_eq :
    (verdict.filesProcessed :: findings.filterMap Finding.filesProcessed?).max? =
      some joint.filesProcessed
  itemsSkipped_eq :
    (verdict.itemsSkipped :: findings.filterMap Finding.itemsSkipped?).max? =
      some joint.itemsSkipped
  invocations_eq :
    joint.invocations = verdict.invocations + (findings.filterMap Finding.outcome?).length

-- ---------------------------------------------------------------------------
-- One finding
-- ---------------------------------------------------------------------------

theorem le_add (verdict : Verdict) (finding : Finding) : verdict.Le (verdict.add finding) := by
  cases finding with
  | ended outcome =>
    refine ⟨?_, Int.le_refl _, Int.le_refl _, Int.le_add_one (Int.le_refl _)⟩
    exact Outcome.severity_join verdict.outcome outcome ▸ Nat.le_max_left ..
  | counted filesProcessed itemsSkipped =>
    exact ⟨Nat.le_refl _, Int.le_max_left .., Int.le_max_left .., Int.le_refl _⟩

instance : RightCommutative add where
  right_comm verdict first second := by
    cases first with
    | ended =>
      cases second with
      | ended => simp only [add, fold, Outcome.join_right_comm]
      | counted => rfl
    | counted =>
      cases second with
      | ended => rfl
      | counted => simp only [add, withCounts, max_right_comm]

-- ---------------------------------------------------------------------------
-- Many findings
-- ---------------------------------------------------------------------------

theorem foldAll_withCounts (verdict : Verdict) (filesProcessed itemsSkipped : Int)
    (outcomes : List Outcome) :
    (verdict.withCounts filesProcessed itemsSkipped).foldAll outcomes =
      (verdict.foldAll outcomes).withCounts filesProcessed itemsSkipped := by
  induction outcomes generalizing verdict with
  | nil => rfl
  | cons outcome outcomes ih => exact ih (verdict.fold outcome)

/-- The outcomes may be folded first, and the counts be taken in afterwards. -/
theorem addAll_eq (verdict : Verdict) (findings : List Finding) :
    verdict.addAll findings =
      { verdict.foldAll (findings.filterMap Finding.outcome?) with
        filesProcessed :=
          (findings.filterMap Finding.filesProcessed?).foldl max verdict.filesProcessed
        itemsSkipped :=
          (findings.filterMap Finding.itemsSkipped?).foldl max verdict.itemsSkipped } := by
  induction findings generalizing verdict with
  | nil => rfl
  | cons finding findings ih =>
    rw [addAll, List.foldl_cons, ← addAll, ih]
    cases finding with
    | ended outcome =>
      simp only [add, List.filterMap_cons, Finding.outcome?, Finding.filesProcessed?,
        Finding.itemsSkipped?, foldAll_cons]
      rfl
    | counted filesProcessed itemsSkipped =>
      simp only [add, foldAll_withCounts, List.filterMap_cons, Finding.outcome?,
        Finding.filesProcessed?, Finding.itemsSkipped?, List.foldl_cons]
      rfl

theorem isJoin_addAll (verdict : Verdict) (findings : List Finding) :
    verdict.IsJoin findings (verdict.addAll findings) := by
  rw [addAll_eq]
  exact {
    outcome_isWorst := verdict.foldAll_isWorst _
    filesProcessed_eq := List.max?_cons'
    itemsSkipped_eq := List.max?_cons'
    invocations_eq := verdict.foldAll_invocations _ }

theorem exitStatus_of_isWorst {verdict : Verdict} {outcomes : List Outcome}
    (h : verdict.outcome.IsWorst outcomes) (failOnWarnings : Bool) :
    verdict.exitStatus failOnWarnings =
      if .errors ∈ outcomes ∨ .warnings ∈ outcomes ∧ failOnWarnings = true then 1 else 0 := by
  obtain ⟨hmem, hworst⟩ := h
  unfold exitStatus
  cases houtcome : verdict.outcome with
  | errors =>
    rw [houtcome] at hmem
    simp [hmem]
  | warnings =>
    rw [houtcome] at hmem hworst
    have herrors : .errors ∉ outcomes := fun h => absurd (hworst _ h) (by decide)
    simp [herrors, hmem]
  | ok =>
    rw [houtcome] at hworst
    have herrors : .errors ∉ outcomes := fun h => absurd (hworst _ h) (by decide)
    have hwarnings : .warnings ∉ outcomes := fun h => absurd (hworst _ h) (by decide)
    simp [herrors, hwarnings]

/-- However its findings are ordered, a verdict ends as their join. No finding lowers any part of a
verdict, folding a list of outcomes is finding one after the other, so that lists can be folded in
pieces, and the exit status is one exactly if some outcome counts as a failure. -/
theorem addAll_isJoin (verdict : Verdict) {findings ordered : List Finding}
    (h : ordered.Perm findings) :
    verdict.addAll ordered = verdict.addAll findings ∧
    verdict.IsJoin findings (verdict.addAll findings) ∧
    (∀ (earlier : Verdict) (finding : Finding), earlier.Le (earlier.add finding)) ∧
    (∀ outcomes : List Outcome,
      verdict.foldAll outcomes = verdict.addAll (outcomes.map Finding.ended)) ∧
    (∀ first second : List Outcome,
      verdict.foldAll (first ++ second) = (verdict.foldAll first).foldAll second) ∧
    ∀ failOnWarnings : Bool, (verdict.addAll findings).exitStatus failOnWarnings =
      if .errors ∈ verdict.outcomes findings ∨
        .warnings ∈ verdict.outcomes findings ∧ failOnWarnings = true then 1 else 0 := by
  have hjoin := verdict.isJoin_addAll findings
  refine ⟨h.foldl_eq verdict, hjoin, le_add, fun outcomes => ?_, fun first second => ?_,
    exitStatus_of_isWorst hjoin.outcome_isWorst⟩
  · rw [addAll, List.foldl_map]
    rfl
  · exact List.foldl_append

/-- Counts between two outcomes, and both of them before the counts. -/
theorem addAll_isJoin_sample :
    ({} : Verdict).addAll [.ended .warnings, .counted 5 2, .ended .ok, .counted 3 4] =
      ⟨.warnings, 5, 4, 2⟩ ∧
    ({} : Verdict).addAll [.ended .ok, .ended .warnings, .counted 3 4, .counted 5 2] =
      ⟨.warnings, 5, 4, 2⟩ := by
  have hperm : List.Perm
      [.ended .ok, .ended .warnings, .counted 3 4, .counted 5 2]
      [Finding.ended .warnings, .counted 5 2, .ended .ok, .counted 3 4] := by decide
  have hjoint : ({} : Verdict).addAll
      [.ended .warnings, .counted 5 2, .ended .ok, .counted 3 4] = ⟨.warnings, 5, 4, 2⟩ := by
    decide
  exact ⟨hjoint, (addAll_isJoin {} hperm).1.trans hjoint⟩

end Verdict

end LintRun
