import LintRun.Channel
import LintRun.Invocation
import LintRun.Number.Decimal
import LintRun.OsError
import LintRun.Text.Blank

/-!
# Launches

A launcher follows one child process to its end. What it sees of the child comes as events in some
order: pieces of the two streams, the ends of the streams, the exit, the timer, and the wish to
cancel. Every piece is forwarded as it comes. The child is done when it has exited and both streams
have ended; if the timer or a cancellation comes first, the child is killed with all that it
started. A cancellation ends the launch at once. After the timer the streams are left alone, but the
launch goes on until the exit of the child is heard of, and a cancellation can still end it before
that. A stream that is not captured has ended from the start.
-/

namespace LintRun

open Text (Bytes)

/-- Why a launch gives no result. -/
inductive LaunchFailure
  | system (error : OsError)
  | nulByte
  /-- The list of arguments has not even a program. -/
  | noProgram
  | cancelled
  | unfinished

namespace Launch

inductive Event
  | chunk (channel : Channel) (bytes : Bytes)
  | closed (channel : Channel)
  | exited (code : Int)
  | timer
  | cancel
  deriving DecidableEq

inductive Action
  | forward (channel : Channel) (bytes : Bytes)
  | kill
  deriving DecidableEq

inductive Ending
  | exited (code : Int)
  | timedOut (timeout : Binary64)
  | cancelled
  deriving DecidableEq

structure State where
  stdoutOpen : Bool
  stderrOpen : Bool := true
  exitCode : Option Int := none
  stdout : Bytes := []
  stderrSize : Nat := 0
  /-- The timeout for which the child was killed, while its exit is awaited. -/
  overdue : Option Binary64 := none
  ending : Option Ending := none
  deriving DecidableEq

namespace State

def isOpen (s : State) : Channel → Bool
  | .stdout => s.stdoutOpen
  | .stderr => s.stderrOpen

/-- Output is kept; of diagnostics only the size is. -/
def note (s : State) (bytes : Bytes) : Channel → State
  | .stdout => { s with stdout := s.stdout ++ bytes }
  | .stderr => { s with stderrSize := s.stderrSize + bytes.length }

def close (s : State) : Channel → State
  | .stdout => { s with stdoutOpen := false }
  | .stderr => { s with stderrOpen := false }

/-- Ends the launch once nothing more can come from the child. -/
def settle (s : State) : State :=
  match s.exitCode with
  | none => s
  | some code =>
    if s.stdoutOpen || s.stderrOpen then s else { s with ending := some (.exited code) }

end State

def start (invocation : Invocation) : State :=
  { stdoutOpen := invocation.captureStdout }

def timeoutLine (invocation : Invocation) (timeout : Binary64) : String :=
  "Timed out after " ++ timeout.briefText ++ "s: " ++ invocation.display ++ "\n"

/-- Ends the launch of a child that took too long. -/
def expire (invocation : Invocation) (s : State) (timeout : Binary64) : State × List Action :=
  ({ s with ending := some (.timedOut timeout) },
    [.forward .stderr (Text.Utf8.encode (timeoutLine invocation timeout))])

/-- What an event brings about while the child is followed. -/
def advance (invocation : Invocation) (s : State) : Event → State × List Action
  | .chunk channel bytes =>
    if s.isOpen channel then (s.note bytes channel, [.forward channel bytes]) else (s, [])
  | .closed channel => ((s.close channel).settle, [])
  | .exited code => (State.settle { s with exitCode := some (s.exitCode.getD code) }, [])
  | .timer =>
    match invocation.timeout with
    | none => (s, [])
    | some timeout =>
      if s.exitCode.isSome then
        let (s, actions) := expire invocation s timeout
        (s, .kill :: actions)
      else ({ s with overdue := some timeout }, [.kill])
  | .cancel => ({ s with ending := some .cancelled }, [.kill])

/-- What an event brings about while the exit of a killed child is awaited. -/
def await (invocation : Invocation) (s : State) (timeout : Binary64) : Event → State × List Action
  | .exited _ => expire invocation s timeout
  | .cancel => ({ s with ending := some .cancelled }, [])
  | _ => (s, [])

/-- Nothing happens once the launch has ended. -/
def step (invocation : Invocation) (s : State) (event : Event) : State × List Action :=
  if s.ending.isSome then (s, [])
  else
    match s.overdue with
    | none => advance invocation s event
    | some timeout => await invocation s timeout event

def run (invocation : Invocation) : State → List Event → State × List Action
  | s, [] => (s, [])
  | s, event :: rest =>
    let (s, first) := step invocation s event
    let (s, later) := run invocation s rest
    (s, first ++ later)

theorem run_append (invocation : Invocation) (s : State) (before after : List Event) :
    run invocation s (before ++ after) =
      ((run invocation (run invocation s before).1 after).1,
        (run invocation s before).2 ++ (run invocation (run invocation s before).1 after).2) := by
  induction before generalizing s with
  | nil => simp [run]
  | cons event before ih => simp [run, ih]

theorem step_of_ended (invocation : Invocation) {s : State} (h : s.ending.isSome = true)
    (event : Event) : step invocation s event = (s, []) := by
  simp [step, h]

/-- The result of a launch that has ended. -/
def result (invocation : Invocation) (s : State) : Ending → Except LaunchFailure InvocationResult
  | .exited code => .ok { exitCode := some code, stderrSize := s.stderrSize, stdout := s.stdout }
  | .timedOut timeout => .ok {
      exitCode := none
      stderrSize := s.stderrSize
      stdout := s.stdout
      timedOut := true
      failure := some (Text.trim (timeoutLine invocation timeout)) }
  | .cancelled => .error .cancelled

/-- The result of a child that could not be started. -/
def refused (error : OsError) : InvocationResult where
  exitCode := none
  failure := some error.message

def refusalLine (error : OsError) : Bytes :=
  Text.Utf8.encode (error.message ++ "\n")

end Launch

/-- What a launch forwarded, and what came of it. -/
structure Launched where
  forwarded : List (Bytes × Channel) := []
  result : Except LaunchFailure InvocationResult

end LintRun
