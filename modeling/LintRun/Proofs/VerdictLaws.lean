import LintRun.Outcome

/-!
# Laws of verdicts

Folding outcomes into a verdict counts them and keeps the worst of them.
-/

namespace LintRun

/-- One of the outcomes, and none of them is more severe. -/
structure Outcome.IsWorst (outcome : Outcome) (outcomes : List Outcome) : Prop where
  mem : outcome ∈ outcomes
  severity_le : ∀ other ∈ outcomes, other.severity ≤ outcome.severity

namespace Verdict

theorem foldAll_cons (verdict : Verdict) (outcome : Outcome) (outcomes : List Outcome) :
    verdict.foldAll (outcome :: outcomes) = (verdict.fold outcome).foldAll outcomes := rfl

theorem severity_le_foldAll (verdict : Verdict) (outcomes : List Outcome) :
    verdict.outcome.severity ≤ (verdict.foldAll outcomes).outcome.severity ∧
      ∀ outcome ∈ outcomes, outcome.severity ≤ (verdict.foldAll outcomes).outcome.severity := by
  induction outcomes generalizing verdict with
  | nil => exact ⟨Nat.le_refl _, by simp⟩
  | cons first rest ih =>
    have hfold : (verdict.fold first).outcome.severity =
        max verdict.outcome.severity first.severity :=
      Outcome.severity_join verdict.outcome first
    obtain ⟨hfirst, hrest⟩ := ih (verdict.fold first)
    rw [hfold] at hfirst
    refine ⟨Nat.le_trans (Nat.le_max_left _ _) hfirst, ?_⟩
    intro outcome h
    rcases List.mem_cons.mp h with rfl | h
    · exact Nat.le_trans (Nat.le_max_right _ _) hfirst
    · exact hrest outcome h

theorem foldAll_outcome_mem (verdict : Verdict) (outcomes : List Outcome) :
    (verdict.foldAll outcomes).outcome ∈ verdict.outcome :: outcomes := by
  induction outcomes generalizing verdict with
  | nil => exact List.mem_singleton_self _
  | cons first rest ih =>
    have hjoin : (verdict.fold first).outcome = verdict.outcome ∨
        (verdict.fold first).outcome = first := by
      unfold fold Outcome.join
      split
      · exact .inr rfl
      · exact .inl rfl
    rw [foldAll_cons]
    rcases List.mem_cons.mp (ih (verdict.fold first)) with h | h
    · rw [h]
      rcases hjoin with hjoin | hjoin <;> simp [hjoin]
    · exact List.mem_cons_of_mem _ (List.mem_cons_of_mem _ h)

theorem foldAll_isWorst (verdict : Verdict) (outcomes : List Outcome) :
    (verdict.foldAll outcomes).outcome.IsWorst (verdict.outcome :: outcomes) :=
  ⟨verdict.foldAll_outcome_mem outcomes,
    List.forall_mem_cons.mpr (verdict.severity_le_foldAll outcomes)⟩

theorem foldAll_invocations (verdict : Verdict) (outcomes : List Outcome) :
    (verdict.foldAll outcomes).invocations = verdict.invocations + outcomes.length := by
  induction outcomes generalizing verdict with
  | nil => simp [foldAll]
  | cons first rest ih =>
    rw [foldAll_cons, ih, List.length_cons, fold]
    dsimp only
    omega

theorem foldAll_filesProcessed (verdict : Verdict) (outcomes : List Outcome) :
    (verdict.foldAll outcomes).filesProcessed = verdict.filesProcessed := by
  induction outcomes generalizing verdict with
  | nil => rfl
  | cons first rest ih =>
    rw [foldAll_cons, ih]
    rfl

end Verdict

end LintRun
