import Mathlib.Data.List.Induction
import Mathlib.Data.List.TakeWhile
import LintRun.Launch
import LintRun.Proofs.ShownValues

/-!
# Laws of launches

While a child is followed, the state of its launch is what has been heard of it: `heard` computes it
from the events alone, and every event leads from what was heard before it to what has been heard
with it (`advance_heard`). `Ends` says how a launch ends by what comes first: the child is done, the
timer fires, or the launch is cancelled. A child that the timer kills is waited for, and until its
exit is heard of the launch may still be cancelled (`Waits`). Every order of events has exactly the
ending that `Ends` gives it, and forwards the pieces that were read until then (`run_start_ends`).
-/

namespace LintRun.Launch

open Text (Bytes)

-- ---------------------------------------------------------------------------
-- What events tell
-- ---------------------------------------------------------------------------

namespace Event

@[simp] def piece? (channel : Channel) : Event → Option Bytes
  | .chunk other bytes => if other = channel then some bytes else none
  | _ => none

@[simp] def code? : Event → Option Int
  | .exited code => some code
  | _ => none

/-- Whether an event breaks a launch off. Without a timeout no timer does. -/
@[simp] def interrupts (invocation : Invocation) : Event → Bool
  | .timer => invocation.timeout.isSome
  | .cancel => true
  | _ => false

/-- Whether an event ends the wait for a child that was killed by the timer. -/
@[simp] def resolves : Event → Bool
  | .exited _ | .cancel => true
  | _ => false

end Event

@[simp] def Action.piece? (channel : Channel) : Action → Option Bytes
  | .forward other bytes => if other = channel then some bytes else none
  | .kill => none

def sent (channel : Channel) (actions : List Action) : List Bytes :=
  actions.filterMap (Action.piece? channel)

variable (invocation : Invocation) {events before after later : List Event} {event : Event}
  {channel : Channel} {code : Int} {s : State} {actions : List Action} {ending : Ending}

def isFollowed : Channel → Bool
  | .stdout => invocation.captureStdout
  | .stderr => true

/-- Whether a stream has ended; one that is not followed has ended from the start. -/
def isOver (channel : Channel) (events : List Event) : Bool :=
  !isFollowed invocation channel || decide (.closed channel ∈ events)

/-- The pieces that are read of a stream: those that come before its end. -/
def pieces (channel : Channel) (events : List Event) : List Bytes :=
  if isFollowed invocation channel then
    (events.takeWhile (· != .closed channel)).filterMap (Event.piece? channel)
  else []

def exitCode? (events : List Event) : Option Int :=
  events.findSome? Event.code?

/-- The child has exited, and both of its streams have ended. -/
structure Done (events : List Event) (code : Int) : Prop where
  exitCode_eq : exitCode? events = some code
  isOver_eq : ∀ channel, isOver invocation channel events = true

def Undisturbed (events : List Event) : Prop :=
  ∀ event ∈ events, event.interrupts invocation = false

/-- After these events there is still something to wait for, and nothing has broken the launch
off. -/
structure GoesOn (events : List Event) : Prop where
  undisturbed : Undisturbed invocation events
  not_done : ∀ code, ¬Done invocation events code

/-- The timer has killed a child of whose exit nothing was heard before, nor since. -/
structure Waits (before during : List Event) (timeout : Binary64) : Prop where
  goesOn : GoesOn invocation before
  timeout_eq : invocation.timeout = some timeout
  exitCode_eq : exitCode? before = none
  unresolved : ∀ event ∈ during, event.resolves = false

/-- How a launch ends, and after which events the child is followed no more: it is done, or the
timer or a cancellation comes first. After the timer it is the exit that ends the launch, unless it
has been heard of, or a cancellation that comes before it. -/
inductive Ends : List Event → List Event → Ending → Prop
  | exited {before after : List Event} {code : Int} :
      Undisturbed invocation before → Done invocation before code →
      Ends (before ++ after) before (.exited code)
  | timedOut {before after : List Event} {timeout : Binary64} {code : Int} :
      GoesOn invocation before → invocation.timeout = some timeout →
      exitCode? before = some code → Ends (before ++ .timer :: after) before (.timedOut timeout)
  | reaped {before during after : List Event} {timeout : Binary64} {code : Int} :
      Waits invocation before during timeout →
      Ends (before ++ .timer :: (during ++ .exited code :: after)) before (.timedOut timeout)
  | cancelled {before after : List Event} :
      GoesOn invocation before → Ends (before ++ .cancel :: after) before .cancelled
  | abandoned {before during after : List Event} {timeout : Binary64} :
      Waits invocation before during timeout →
      Ends (before ++ .timer :: (during ++ .cancel :: after)) before .cancelled

/-- A launch that has not ended: the events up to which the child is followed, and what has been
done after them. -/
inductive Unended : List Event → List Event → List Action → Prop
  | following {events : List Event} : GoesOn invocation events → Unended events events []
  | waiting {before during : List Event} {timeout : Binary64} :
      Waits invocation before during timeout → Unended (before ++ .timer :: during) before [.kill]

-- ---------------------------------------------------------------------------
-- One event more
-- ---------------------------------------------------------------------------

theorem isOver_append : isOver invocation channel (events ++ later) =
    (isOver invocation channel events || decide (.closed channel ∈ later)) := by
  simp [isOver, Bool.or_assoc, List.mem_append]

theorem pieces_concat : pieces invocation channel (events ++ [event]) =
    pieces invocation channel events ++
      if isOver invocation channel events then [] else (event.piece? channel).toList := by
  unfold pieces isOver
  by_cases hfollowed : isFollowed invocation channel = true
  · by_cases hclosed : .closed channel ∈ events
    · have hshort : (events.takeWhile (· != .closed channel)).length ≠ events.length := by
        intro hlength
        have hwhole := (List.takeWhile_prefix (· != Event.closed channel)).eq_of_length hlength
        rw [← hwhole] at hclosed
        simpa using List.mem_takeWhile_imp hclosed
      simp [hfollowed, hclosed, List.takeWhile_append, hshort]
    · have hall : ∀ event ∈ events, (event != .closed channel) = true := by
        intro event hmem
        simpa using fun heq : event = .closed channel => hclosed (heq ▸ hmem)
      have hlast : ([event].takeWhile (· != .closed channel)).filterMap (Event.piece? channel) =
          (event.piece? channel).toList := by
        by_cases hevent : event = .closed channel
        · simp [hevent]
        · have hkept : [event].takeWhile (· != .closed channel) = [event] := by simp [hevent]
          rw [hkept]
          cases hpiece : event.piece? channel with
          | none => rw [List.filterMap_cons_none hpiece]; rfl
          | some piece => rw [List.filterMap_cons_some hpiece]; rfl
      simp only [hfollowed, hclosed, if_true, Bool.not_true, decide_false, Bool.or_self,
        Bool.false_eq_true, if_false]
      rw [List.takeWhile_append_of_pos hall, List.filterMap_append, hlast,
        List.takeWhile_eq_self_iff.mpr hall]
  · simp [hfollowed]

theorem exitCode?_append :
    exitCode? (events ++ later) = (exitCode? events).or (exitCode? later) :=
  List.findSome?_append

@[simp] theorem exitCode?_singleton : exitCode? [event] = event.code? := by
  cases event <;> rfl

theorem Done.append (h : Done invocation before code) (after : List Event) :
    Done invocation (before ++ after) code := by
  refine ⟨?_, fun channel => ?_⟩
  · rw [exitCode?_append, h.exitCode_eq, Option.some_or]
  · rw [isOver_append, h.isOver_eq, Bool.true_or]

theorem GoesOn.nil : GoesOn invocation [] where
  undisturbed := List.forall_mem_nil _
  not_done := by
    rintro code ⟨hcode, -⟩
    cases hcode

theorem GoesOn.of_append (h : GoesOn invocation (before ++ after)) : GoesOn invocation before where
  undisturbed event hmem := h.undisturbed event (List.mem_append_left _ hmem)
  not_done code hdone := h.not_done code (hdone.append invocation after)

theorem exists_break (h : ¬GoesOn invocation events) : ∃ before event after,
    events = before ++ event :: after ∧ GoesOn invocation before ∧
      ¬GoesOn invocation (before ++ [event]) := by
  induction events using List.reverseRecOn with
  | nil => exact absurd (GoesOn.nil invocation) h
  | append_singleton init last ih =>
    by_cases hinit : GoesOn invocation init
    · exact ⟨init, last, [], rfl, hinit, h⟩
    · obtain ⟨before, event, after, rfl, hbefore, hbreak⟩ := ih hinit
      exact ⟨before, event, after ++ [last], by simp, hbefore, hbreak⟩

-- ---------------------------------------------------------------------------
-- While the launch goes on
-- ---------------------------------------------------------------------------

/-- The state of a launch, from the events so far. -/
def heard (events : List Event) : State where
  stdoutOpen := !isOver invocation .stdout events
  stderrOpen := !isOver invocation .stderr events
  exitCode := exitCode? events
  stdout := (pieces invocation .stdout events).flatten
  stderrSize := (pieces invocation .stderr events).flatten.length

/-- The actions give each piece that is read to its sink, in order, and do nothing else. -/
structure Forwards (events : List Event) (actions : List Action) : Prop where
  kill_not_mem : .kill ∉ actions
  sent_eq : ∀ channel, sent channel actions = pieces invocation channel events

theorem heard_nil : heard invocation [] = start invocation := by
  cases hcaptured : invocation.captureStdout <;>
    simp [heard, start, isOver, pieces, exitCode?, isFollowed, hcaptured]

theorem isOpen_heard :
    (heard invocation events).isOpen channel = !isOver invocation channel events := by
  cases channel <;> rfl

theorem settle_heard_of_done (h : Done invocation events code) :
    (heard invocation events).settle =
      { heard invocation events with ending := some (.exited code) } := by
  simp [State.settle, heard, h.exitCode_eq, h.isOver_eq]

theorem settle_heard (h : ∀ code, ¬Done invocation events code) :
    (heard invocation events).settle = heard invocation events := by
  unfold State.settle
  cases hcode : exitCode? events with
  | none => simp [heard, hcode]
  | some code =>
    by_cases hover : ∀ channel, isOver invocation channel events = true
    · exact absurd ⟨hcode, hover⟩ (h code)
    · have hopen : ((heard invocation events).stdoutOpen || (heard invocation events).stderrOpen) =
          true := by
        by_contra hclosed
        refine hover fun channel => ?_
        simp only [heard, Bool.or_eq_true, Bool.not_eq_true', not_or, Bool.not_eq_false] at hclosed
        cases channel with
        | stdout => exact hclosed.1
        | stderr => exact hclosed.2
      simp only [hopen, if_true]
      split <;> rfl

theorem Done.of_append_chunk {bytes : Bytes}
    (h : Done invocation (events ++ [.chunk channel bytes]) code) :
    Done invocation events code := by
  refine ⟨?_, fun other => ?_⟩
  · simpa [exitCode?_append, exitCode?] using h.exitCode_eq
  · simpa [isOver_append] using h.isOver_eq other

theorem heard_concat_chunk {bytes : Bytes} :
    heard invocation (events ++ [.chunk channel bytes]) =
      if isOver invocation channel events then heard invocation events
      else (heard invocation events).note bytes channel := by
  cases hover : isOver invocation channel events <;> cases channel <;>
    simp [heard, State.note, isOver_append, pieces_concat, exitCode?_append, hover]

theorem heard_concat_closed :
    heard invocation (events ++ [.closed channel]) = (heard invocation events).close channel := by
  cases channel <;> simp [heard, State.close, isOver_append, pieces_concat, exitCode?_append]

theorem heard_concat_exited :
    heard invocation (events ++ [.exited code]) =
      { heard invocation events with exitCode := some ((exitCode? events).getD code) } := by
  cases hcode : exitCode? events <;>
    simp [heard, isOver_append, pieces_concat, exitCode?_append, hcode]

theorem heard_concat_timer :
    heard invocation (events ++ [.timer]) = heard invocation events := by
  simp [heard, isOver_append, pieces_concat, exitCode?_append]

/-- An event that does not break the launch off leads to what has been heard with it. -/
theorem advance_heard (h : GoesOn invocation events) (hcalm : event.interrupts invocation = false) :
    (advance invocation (heard invocation events) event).1 =
        (heard invocation (events ++ [event])).settle ∧
      .kill ∉ (advance invocation (heard invocation events) event).2 ∧
      ∀ channel, sent channel (advance invocation (heard invocation events) event).2 =
        if isOver invocation channel events then [] else (event.piece? channel).toList := by
  cases event with
  | chunk source bytes =>
    have hnot : ∀ code, ¬Done invocation (events ++ [.chunk source bytes]) code :=
      fun code hdone => h.not_done code (hdone.of_append_chunk invocation)
    rw [settle_heard invocation hnot, heard_concat_chunk, advance, isOpen_heard]
    by_cases hover : isOver invocation source events = true
    · refine ⟨by simp [hover], by simp [hover], fun channel => ?_⟩
      by_cases hchannel : source = channel
      · subst hchannel
        simp [hover, sent]
      · simp [hover, hchannel, sent]
    · refine ⟨by simp [hover], by simp [hover], fun channel => ?_⟩
      by_cases hchannel : source = channel
      · subst hchannel
        simp [hover, sent]
      · simp [hover, hchannel, sent]
  | closed source =>
    rw [heard_concat_closed]
    exact ⟨rfl, by simp [advance], fun channel => by simp [advance, sent]⟩
  | exited code =>
    rw [heard_concat_exited]
    exact ⟨rfl, by simp [advance], fun channel => by simp [advance, sent]⟩
  | timer =>
    have hnone : invocation.timeout = none := by simpa using hcalm
    rw [heard_concat_timer, settle_heard invocation h.not_done, advance, hnone]
    exact ⟨rfl, by simp, fun channel => by simp [sent]⟩
  | cancel => cases hcalm

@[simp] theorem run_singleton :
    run invocation s [event] = ((step invocation s event).1, (step invocation s event).2) := by
  simp [run]

theorem step_heard : step invocation (heard invocation events) event =
    advance invocation (heard invocation events) event := rfl

theorem run_heard (h : GoesOn invocation events) :
    (run invocation (start invocation) events).1 = heard invocation events ∧
      Forwards invocation events (run invocation (start invocation) events).2 := by
  induction events using List.reverseRecOn with
  | nil =>
    refine ⟨(heard_nil invocation).symm, List.not_mem_nil, fun channel => ?_⟩
    simp [run, sent, pieces]
  | append_singleton init last ih =>
    obtain ⟨hstate, hforwards⟩ := ih (h.of_append invocation)
    have hcalm : last.interrupts invocation = false := h.undisturbed last (by simp)
    obtain ⟨hnext, hkill, hsent⟩ := advance_heard invocation (h.of_append invocation) hcalm
    rw [run_append, hstate, run_singleton, step_heard]
    refine ⟨by rw [hnext, settle_heard invocation h.not_done], ?_, fun channel => ?_⟩
    · simpa [hkill] using hforwards.kill_not_mem
    · rw [pieces_concat, ← hforwards.sent_eq, ← hsent, sent, List.filterMap_append]
      rfl

-- ---------------------------------------------------------------------------
-- How a launch ends
-- ---------------------------------------------------------------------------

theorem run_of_ended (h : s.ending.isSome = true) (events : List Event) :
    run invocation s events = (s, []) := by
  induction events with
  | nil => rfl
  | cons event rest ih => simp [run, step_of_ended invocation h, ih]

theorem run_of_unresolved {timeout : Binary64} (hending : s.ending = none)
    (hoverdue : s.overdue = some timeout) (h : ∀ event ∈ events, event.resolves = false) :
    run invocation s events = (s, []) := by
  induction events with
  | nil => rfl
  | cons event rest ih =>
    obtain ⟨hevent, hrest⟩ := List.forall_mem_cons.mp h
    have hstep : step invocation s event = (s, []) := by
      rw [step, hending, hoverdue]
      cases event with
      | exited | cancel => cases hevent
      | _ => rfl
    rw [run, hstep]
    dsimp only
    rw [ih hrest]
    rfl

/-- The line that tells of a timeout: of how many seconds, and what took so long. -/
structure TimeoutLine (timeout : Binary64) (line : String) : Prop where
  text_eq : line = "Timed out after " ++ timeout.briefText ++ "s: " ++ invocation.display ++ "\n"
  seconds_ne : timeout.briefText ≠ ""

/-- What is done at the end of a launch, after all that is forwarded. -/
inductive Parts : Ending → List Action → Prop
  | exited {code : Int} : Parts (.exited code) []
  | timedOut {timeout : Binary64} {line : String} : TimeoutLine invocation timeout line →
      Parts (.timedOut timeout) [.kill, .forward .stderr (Text.Utf8.encode line)]
  | cancelled : Parts .cancelled [.kill]

theorem timeoutLine_spec (timeout : Binary64) :
    TimeoutLine invocation timeout (timeoutLine invocation timeout) :=
  ⟨rfl, timeout.briefText_ne_empty⟩

/-- The state after the events that end a launch, and what it has done; of what it waited for the
state may tell as well. -/
structure Ended (events : List Event) (ending : Ending) (s : State) (actions : List Action) :
    Prop where
  state_eq : s = { heard invocation events with overdue := s.overdue, ending := some ending }
  exists_forwards : ∃ forwards last, Forwards invocation events forwards ∧
    Parts invocation ending last ∧ actions = forwards ++ last

/-- Once a launch has ended, further events change nothing. -/
theorem run_of_last (h : GoesOn invocation before)
    (hended : (advance invocation (heard invocation before) event).1.ending.isSome = true)
    (after : List Event) :
    run invocation (start invocation) (before ++ event :: after) =
      ((advance invocation (heard invocation before) event).1,
        (run invocation (start invocation) before).2 ++
          (advance invocation (heard invocation before) event).2) := by
  rw [run_append, (run_heard invocation h).1]
  simp [run, step_heard, run_of_ended invocation hended]

theorem run_timedOut {timeout : Binary64} (h : GoesOn invocation before)
    (htimeout : invocation.timeout = some timeout) (hcode : exitCode? before = some code)
    (after : List Event) :
    Ended invocation before (.timedOut timeout)
      (run invocation (start invocation) (before ++ .timer :: after)).1
      (run invocation (start invocation) (before ++ .timer :: after)).2 := by
  have hadvance : advance invocation (heard invocation before) .timer =
      ({ heard invocation before with ending := some (.timedOut timeout) },
        [.kill, .forward .stderr (Text.Utf8.encode (timeoutLine invocation timeout))]) := by
    simp [advance, expire, heard, htimeout, hcode]
  rw [run_of_last invocation h (by rw [hadvance]; rfl), hadvance]
  exact ⟨rfl, _, _, (run_heard invocation h).2, .timedOut (timeoutLine_spec invocation timeout),
    rfl⟩

theorem run_cancelled (h : GoesOn invocation before) (after : List Event) :
    Ended invocation before .cancelled
      (run invocation (start invocation) (before ++ .cancel :: after)).1
      (run invocation (start invocation) (before ++ .cancel :: after)).2 := by
  rw [run_of_last invocation h (by simp [advance])]
  simp only [advance]
  exact ⟨rfl, _, _, (run_heard invocation h).2, .cancelled, rfl⟩

theorem run_exited (h : GoesOn invocation before) (hcalm : event.interrupts invocation = false)
    (hdone : Done invocation (before ++ [event]) code) (after : List Event) :
    Ended invocation (before ++ [event]) (.exited code)
      (run invocation (start invocation) (before ++ event :: after)).1
      (run invocation (start invocation) (before ++ event :: after)).2 := by
  obtain ⟨hstate, hforwards⟩ := run_heard invocation h
  obtain ⟨hnext, hkill, hsent⟩ := advance_heard invocation h hcalm
  rw [settle_heard_of_done invocation hdone] at hnext
  rw [run_of_last invocation h (by simp [hnext]), hnext]
  refine ⟨rfl, _, _, ⟨?_, fun channel => ?_⟩, .exited, (List.append_nil _).symm⟩
  · simpa [hkill] using hforwards.kill_not_mem
  · rw [pieces_concat, ← hforwards.sent_eq, ← hsent, sent, List.filterMap_append]
    rfl

/-- The state of a launch while the exit of a child is awaited that the timer has killed. -/
def awaiting (events : List Event) (timeout : Binary64) : State :=
  { heard invocation events with overdue := some timeout }

section
variable {during : List Event} {timeout : Binary64} (h : Waits invocation before during timeout)

include h

/-- The timer kills the child, and nothing more is read of it. -/
theorem run_waits :
    run invocation (start invocation) (before ++ .timer :: during) =
      (awaiting invocation before timeout,
        (run invocation (start invocation) before).2 ++ [.kill]) := by
  have hadvance : advance invocation (heard invocation before) .timer =
      (awaiting invocation before timeout, [.kill]) := by
    simp [advance, awaiting, heard, h.timeout_eq, h.exitCode_eq]
  rw [run_append, (run_heard invocation h.goesOn).1, run, step_heard, hadvance]
  dsimp only
  rw [run_of_unresolved invocation rfl rfl h.unresolved, List.append_nil]

theorem run_of_resolved
    (hended :
      (await invocation (awaiting invocation before timeout) timeout event).1.ending.isSome = true)
    (after : List Event) :
    run invocation (start invocation) (before ++ .timer :: (during ++ event :: after)) =
      ((await invocation (awaiting invocation before timeout) timeout event).1,
        (run invocation (start invocation) before).2 ++
          .kill :: (await invocation (awaiting invocation before timeout) timeout event).2) := by
  have hstep : step invocation (awaiting invocation before timeout) event =
      await invocation (awaiting invocation before timeout) timeout event := rfl
  rw [← List.cons_append, ← List.append_assoc, run_append, run_waits invocation h]
  simp [run, hstep, run_of_ended invocation hended]

theorem run_reaped (code : Int) (after : List Event) :
    Ended invocation before (.timedOut timeout)
      (run invocation (start invocation)
        (before ++ .timer :: (during ++ .exited code :: after))).1
      (run invocation (start invocation)
        (before ++ .timer :: (during ++ .exited code :: after))).2 := by
  rw [run_of_resolved invocation h rfl]
  exact ⟨rfl, _, _, (run_heard invocation h.goesOn).2,
    .timedOut (timeoutLine_spec invocation timeout), rfl⟩

theorem run_abandoned (after : List Event) :
    Ended invocation before .cancelled
      (run invocation (start invocation) (before ++ .timer :: (during ++ .cancel :: after))).1
      (run invocation (start invocation) (before ++ .timer :: (during ++ .cancel :: after))).2 := by
  rw [run_of_resolved invocation h rfl]
  exact ⟨rfl, _, _, (run_heard invocation h.goesOn).2, .cancelled, rfl⟩

end

theorem exists_done (h : ¬GoesOn invocation events) (hcalm : Undisturbed invocation events) :
    ∃ code, Done invocation events code := by
  by_contra hnone
  exact h ⟨hcalm, fun code hdone => hnone ⟨code, hdone⟩⟩

/-- What comes of a launch that the timer has reached. -/
theorem overdue_cases {timeout : Binary64} (h : GoesOn invocation before)
    (htimeout : invocation.timeout = some timeout) (after : List Event) :
    Unended invocation (before ++ .timer :: after) before [.kill] ∨ ∃ ending,
      Ends invocation (before ++ .timer :: after) before ending ∧
        Ended invocation before ending
          (run invocation (start invocation) (before ++ .timer :: after)).1
          (run invocation (start invocation) (before ++ .timer :: after)).2 := by
  cases hcode : exitCode? before with
  | some code =>
    exact .inr ⟨_, .timedOut h htimeout hcode, run_timedOut invocation h htimeout hcode after⟩
  | none =>
    cases hresolved : after.find? Event.resolves with
    | none =>
      have hcalm : ∀ event ∈ after, event.resolves = false := by
        simpa using List.find?_eq_none.mp hresolved
      exact .inl (.waiting ⟨h, htimeout, hcode, hcalm⟩)
    | some event =>
      obtain ⟨hevent, during, rest, rfl, hcalm⟩ := List.find?_eq_some_iff_append.mp hresolved
      have hwaits : Waits invocation before during timeout :=
        ⟨h, htimeout, hcode, by simpa using hcalm⟩
      cases event with
      | exited code => exact .inr ⟨_, .reaped hwaits, run_reaped invocation hwaits code rest⟩
      | cancel => exact .inr ⟨_, .abandoned hwaits, run_abandoned invocation hwaits rest⟩
      | chunk | closed | timer => cases hevent

theorem launch_cases (events : List Event) :
    (∃ before last, Unended invocation events before last) ∨ ∃ before ending,
      Ends invocation events before ending ∧
        Ended invocation before ending (run invocation (start invocation) events).1
          (run invocation (start invocation) events).2 := by
  by_cases hgoesOn : GoesOn invocation events
  · exact .inl ⟨events, [], .following hgoesOn⟩
  obtain ⟨before, event, after, rfl, hbefore, hbreak⟩ := exists_break invocation hgoesOn
  cases hcalm : event.interrupts invocation with
  | false =>
    have hundisturbed : Undisturbed invocation (before ++ [event]) :=
      List.forall_mem_append.mpr ⟨hbefore.undisturbed, List.forall_mem_singleton.mpr hcalm⟩
    obtain ⟨code, hdone⟩ := exists_done invocation hbreak hundisturbed
    refine .inr ⟨before ++ [event], .exited code, ?_,
      run_exited invocation hbefore hcalm hdone after⟩
    rw [List.append_cons]
    exact .exited hundisturbed hdone
  | true =>
    cases event with
    | timer =>
      obtain ⟨timeout, htimeout⟩ := Option.isSome_iff_exists.mp hcalm
      rcases overdue_cases invocation hbefore htimeout after with hwaits | ⟨ending, hends, hended⟩
      · exact .inl ⟨before, [.kill], hwaits⟩
      · exact .inr ⟨before, ending, hends, hended⟩
    | cancel => exact .inr ⟨before, _, .cancelled hbefore, run_cancelled invocation hbefore after⟩
    | chunk | closed | exited => cases hcalm

variable {invocation}

theorem Ended.ending_eq (h : Ended invocation events ending s actions) :
    s.ending = some ending := by
  rw [h.state_eq]

theorem Unended.ending_eq {last : List Action} (h : Unended invocation events before last) :
    (run invocation (start invocation) events).1.ending = none := by
  cases h with
  | following hgoesOn =>
    rw [(run_heard invocation hgoesOn).1]
    rfl
  | waiting hwaits =>
    rw [run_waits invocation hwaits]
    rfl

theorem Unended.exists_forwards {last : List Action} (h : Unended invocation events before last) :
    ∃ forwards, Forwards invocation before forwards ∧
      (run invocation (start invocation) events).2 = forwards ++ last := by
  cases h with
  | following hgoesOn =>
    exact ⟨_, (run_heard invocation hgoesOn).2, (List.append_nil _).symm⟩
  | waiting hwaits =>
    exact ⟨_, (run_heard invocation hwaits.goesOn).2, by rw [run_waits invocation hwaits]⟩

theorem Done.unique {other : Int} (h : Done invocation events code)
    (hother : Done invocation events other) : other = code :=
  Option.some.inj (hother.exitCode_eq.symm.trans h.exitCode_eq)

theorem Ends.ending_eq (h : Ends invocation events before ending) :
    (run invocation (start invocation) events).1.ending = some ending := by
  cases h with
  | @exited _ after code hcalm hdone =>
    -- The child was done at some event before which nothing could break the launch off.
    rcases launch_cases invocation before with ⟨_, _, hunended⟩ | ⟨heard, last, hends, hended⟩
    · cases hunended with
      | following hgoesOn => exact absurd hdone (hgoesOn.not_done code)
      | waiting hwaits => simpa [hwaits.timeout_eq] using hcalm .timer (by simp)
    · have hlast : last = .exited code := by
        cases hends with
        | exited _ hfirst => rw [hdone.unique (hfirst.append invocation _)]
        | timedOut _ htimeout => simpa [htimeout] using hcalm .timer (by simp)
        | reaped hwaits | abandoned hwaits =>
          simpa [hwaits.timeout_eq] using hcalm .timer (by simp)
        | cancelled => simpa using hcalm .cancel (by simp)
      rw [run_append, run_of_ended invocation (by simp [hended.ending_eq]), hended.ending_eq, hlast]
  | timedOut hgoesOn htimeout hcode =>
    exact (run_timedOut invocation hgoesOn htimeout hcode _).ending_eq
  | reaped hwaits => exact (run_reaped invocation hwaits _ _).ending_eq
  | cancelled hgoesOn => exact (run_cancelled invocation hgoesOn _).ending_eq
  | abandoned hwaits => exact (run_abandoned invocation hwaits _).ending_eq

variable (invocation)

/-- A child that has exited is not done while something it started keeps a stream open. -/
example (timeout : Binary64) :
    let invocation : Invocation := ⟨.shell "php -l a.php", ⟨.root, []⟩, false, some timeout⟩
    (run invocation (start invocation) [.exited 0, .timer]).1.ending = some (.timedOut timeout) :=
  rfl

end LintRun.Launch
