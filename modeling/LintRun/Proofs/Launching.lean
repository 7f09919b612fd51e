import LintRun.Proofs.RunLaws

/-!
# Launches in a run

A launch in a run is three things in a row: the command is started, what it writes is passed on, and
its result is noted (`Host.runLaunch_eq`). Where there is no result, the run ends with the reason.
-/

namespace LintRun

/-- Why a run fails if a launch gives no result. -/
def Failure.ofLaunch : LaunchFailure → Failure
  | .system error => .system error
  | .nulByte => .nulByte
  | .noProgram => .noProgram
  | .cancelled => .cancelled
  | .unfinished => .unfinished

namespace Launched

variable (invocation : Invocation) (launched : Launched)

/-- What a run passes on of a launch. -/
def passedOn : List Event :=
  launched.forwarded.map fun piece => .forward piece.1 piece.2

/-- What a run does after a command has been started. -/
def aftermath : List Event :=
  launched.passedOn ++
    match launched.result with
    | .ok result => [.finish invocation result]
    | .error _ => []

theorem writing_passedOn : Writing launched.passedOn := by
  intro event hmem
  obtain ⟨piece, -, rfl⟩ := List.mem_map.mp hmem
  rfl

variable {invocation launched}

theorem aftermath_of_ok {result : InvocationResult} (h : launched.result = .ok result) :
    launched.aftermath invocation = launched.passedOn ++ [.finish invocation result] := by
  rw [aftermath, h]

theorem aftermath_of_error {failure : LaunchFailure} (h : launched.result = .error failure) :
    launched.aftermath invocation = launched.passedOn := by
  rw [aftermath, h, List.append_nil]

theorem launches_aftermath : launches (launched.aftermath invocation) = [] := by
  have hquiet := launched.writing_passedOn.quiet
  cases hresult : launched.result with
  | ok result => simp [aftermath_of_ok hresult, hquiet.launches_eq]
  | error failure => simp [aftermath_of_error hresult, hquiet.launches_eq]

theorem list_not_mem_aftermath (path : Path) :
    Event.list path ∉ launched.aftermath invocation := by
  intro hmem
  rcases List.mem_append.mp hmem with hpassed | hfinish
  · cases launched.writing_passedOn _ hpassed
  · split at hfinish
    · cases List.mem_singleton.mp hfinish
    · cases hfinish

end Launched

variable {σ : Type}

theorem Run.forwardAll_eq (pieces : List (Text.Bytes × Channel)) (s : σ) :
    forwardAll pieces s = ⟨pieces.map fun piece => .forward piece.1 piece.2, .ok (), s⟩ := by
  induction pieces with
  | nil => rfl
  | cons piece rest ih => simp [forwardAll, emit, Bind.bind, andThen, ih]

theorem Host.runLaunch_eq (host : Host σ) (invocation : Invocation) (s : σ) :
    let launched := (host.launch invocation s).1
    host.runLaunch invocation s = ⟨.launch invocation :: launched.aftermath invocation,
      launched.result.mapError Failure.ofLaunch, (host.launch invocation s).2⟩ := by
  intro launched
  cases hresult : launched.result with
  | ok result =>
    have hmapped : (Except.ok result : Except LaunchFailure InvocationResult).mapError
        Failure.ofLaunch = .ok result := rfl
    rw [Launched.aftermath_of_ok hresult, hmapped]
    simp [runLaunch, Bind.bind, Run.andThen, Run.emit, Run.act, Run.forwardAll_eq, hresult,
      launched, Pure.pure, Run.done, Launched.passedOn]
  | error failure =>
    have hmapped : (Except.error failure : Except LaunchFailure InvocationResult).mapError
        Failure.ofLaunch = .error (.ofLaunch failure) := rfl
    rw [Launched.aftermath_of_error hresult, hmapped]
    cases failure <;>
      simp [runLaunch, Bind.bind, Run.andThen, Run.emit, Run.act, Run.forwardAll_eq, hresult,
        launched, Run.fail, Failure.ofLaunch, Launched.passedOn]

theorem Host.after_aftermath (host : Host σ) (invocation : Invocation) (launched : Launched)
    (s : σ) : host.after s (launched.aftermath invocation) = s := by
  have hpassed := host.after_writing s launched.writing_passedOn
  cases hresult : launched.result with
  | ok result =>
    rw [Launched.aftermath_of_ok hresult, host.after_append, hpassed]
    rfl
  | error failure => rw [Launched.aftermath_of_error hresult, hpassed]

/-- A launch in a run, seen from the answer of the host. -/
theorem Host.runLaunch_answer (host : Host σ) (invocation : Invocation) (s : σ) :
    let launched := (host.launch invocation s).1
    Run.Triple (host.runLaunch invocation) s
      (fun events result t => events = .launch invocation :: launched.aftermath invocation ∧
        launched.result = .ok result ∧ t = host.after s events)
      fun events e _ => events = .launch invocation :: launched.aftermath invocation ∧
        ∃ failure, launched.result = .error failure ∧ e = .ofLaunch failure := by
  intro launched
  rw [Run.Triple, host.runLaunch_eq invocation s]
  cases hresult : (host.launch invocation s).1.result with
  | ok result => exact ⟨rfl, rfl, (host.after_aftermath invocation launched _).symm⟩
  | error failure => exact ⟨rfl, failure, rfl, rfl⟩

end LintRun
