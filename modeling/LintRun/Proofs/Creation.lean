import LintRun.Machine
import LintRun.Proofs.LaunchLaws
import LintRun.Proofs.RunLaws

/-!
# Children that cannot be created

A launch begins with an attempt to create the child, which the system may refuse. Its refusal is
told and becomes a result, but a character that ends every text of the system is an exception
(`Launch.attempted`). All that a launcher sees of the system is what comes of the attempt
(`Host.StartsBy`), and so it is on a machine (`Machine.host_startsBy`).
-/

namespace LintRun

/-- The command, or the directory it is to run in, has a character that no text of the system can
have. -/
def Invocation.HasNul (invocation : Invocation) : Prop :=
  (Machine.wordsOf invocation.command).any Machine.hasNul = true ∨
    Machine.hasNul invocation.directory.text = true

namespace Launch

variable {invocation : Invocation} {failure : LaunchFailure}

def Action.passedOn? : Action → Option (Text.Bytes × Channel)
  | .forward channel bytes => some (bytes, channel)
  | .kill => none

/-- What comes of the attempt to create a child, of which the events are those of a child that was
created. -/
def attempted (invocation : Invocation) : Except Machine.Refusal (List Event) → Launched
  | .error .nulByte => { result := .error .nulByte }
  | .error (.system e) => {
      forwarded := [(refusalLine e, .stderr)]
      result := .ok (refused e) }
  | .ok events =>
    let (state, actions) := run invocation (start invocation) events
    { forwarded := actions.filterMap Action.passedOn?
      result := match state.ending with
        | some ending => result invocation state ending
        | none => .error .unfinished }

theorem outcome_refused (e : OsError) : (refused e).outcome = .errors := rfl

/-- A child that was created gives a result, unless it is cancelled or never ends. -/
theorem attempted_ok_error {events : List Event}
    (h : (attempted invocation (.ok events)).result = .error failure) :
    (failure = .cancelled ∧ ∃ before, Ends invocation events before .cancelled) ∨
      (failure = .unfinished ∧ ∃ before last, Unended invocation events before last) := by
  dsimp only [attempted] at h
  rcases launch_cases invocation events with
    ⟨before, last, hunended⟩ | ⟨before, ending, hends, hended⟩
  · rw [hunended.ending_eq] at h
    exact .inr ⟨(Except.error.inj h).symm, before, last, hunended⟩
  · rw [hended.ending_eq] at h
    dsimp only at h
    cases ending with
    | exited code => cases h
    | timedOut timeout => cases h
    | cancelled => exact .inl ⟨(Except.error.inj h).symm, before, hends⟩

end Launch

/-- A launch is decided by the attempt to create a child, and the attempt fails for a character of
the command just if the command has one. -/
structure Host.StartsBy {σ : Type} (host : Host σ)
    (create : Invocation → σ → Except Machine.Refusal (List Launch.Event)) : Prop where
  launch_eq : ∀ {invocation s}, Machine.wordsOf invocation.command ≠ [] →
    (host.launch invocation s).1 = Launch.attempted invocation (create invocation s)
  nulByte_iff : ∀ {invocation s}, create invocation s = .error .nulByte ↔ invocation.HasNul

-- ---------------------------------------------------------------------------
-- Machines
-- ---------------------------------------------------------------------------

namespace Machine

variable {invocation : Invocation}

variable (invocation) in
theorem Child.isSome_endTime? {s : Launch.State} (hs : s.ending = none)
    (events : List (Time × Launch.Event)) :
    (Child.endTime? invocation s events).isSome =
      (Launch.run invocation s (events.map Prod.snd)).1.ending.isSome := by
  induction events generalizing s with
  | nil => simp [Child.endTime?, Child.timeOf?, Launch.run, hs]
  | cons event rest ih =>
    obtain ⟨time, event⟩ := event
    rw [Child.endTime?, Child.timeOf?, List.map_cons, Launch.run]
    dsimp only
    cases hending : (Launch.step invocation s event).1.ending with
    | none =>
      rw [Option.isSome_none, if_neg Bool.false_ne_true]
      exact ih hending
    | some ending =>
      have hended : (Launch.step invocation s event).1.ending.isSome = true := by rw [hending]; rfl
      rw [Launch.run_of_ended invocation hended, hending]
      rfl

def create (invocation : Invocation) (machine : Machine) :
    Except Refusal (List Launch.Event) :=
  (machine.start (some invocation.directory) invocation.captureStdout
    (wordsOf invocation.command)).map fun child =>
      (child.interrupted invocation.timeout none).map Prod.snd

theorem launch_eq_attempted {machine : Machine} (h : wordsOf invocation.command ≠ []) :
    (machine.launch invocation none).1 =
      Launch.attempted invocation (create invocation machine) := by
  have hwords : (wordsOf invocation.command).isEmpty = false := by simpa using h
  unfold launch create
  dsimp only
  rw [hwords, if_neg Bool.false_ne_true]
  cases machine.start (some invocation.directory) invocation.captureStdout
      (wordsOf invocation.command) with
  | error refusal => cases refusal <;> rfl
  | ok child =>
    have hstart : (Launch.start invocation).ending = none := rfl
    have htime :=
      Child.isSome_endTime? invocation hstart (child.interrupted invocation.timeout none)
    dsimp only [Except.map, Launch.attempted]
    cases hending : (Launch.run invocation (Launch.start invocation)
        ((child.interrupted invocation.timeout none).map Prod.snd)).1.ending with
    | none => rfl
    | some ending =>
      rw [hending, Option.isSome_some, Option.isSome_iff_exists] at htime
      obtain ⟨time, htime⟩ := htime
      rw [htime]
      rfl

theorem create_eq_nulByte_iff {machine : Machine} :
    create invocation machine = .error .nulByte ↔ invocation.HasNul := by
  unfold create start
  dsimp only
  rw [Option.getD_some, Invocation.HasNul, ← Bool.or_eq_true]
  cases hnul : (wordsOf invocation.command).any hasNul || hasNul invocation.directory.text with
  | true => simp [Except.map]
  | false =>
    rw [if_neg Bool.false_ne_true]
    refine iff_of_false (fun heq => ?_) Bool.false_ne_true
    split at heq
    · cases heq
    · split at heq <;> cases heq

/-- A machine launches whatever it can create. -/
theorem host_startsBy (machine : Machine) (helper : String) :
    (machine.host helper).StartsBy create where
  launch_eq := launch_eq_attempted
  nulByte_iff := create_eq_nulByte_iff

end Machine

end LintRun
