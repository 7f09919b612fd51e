import LintRun.Channel
import LintRun.Failure
import LintRun.Invocation
import LintRun.Text.Terminal

/-!
# Runs

Whatever a run does is an event: it starts a probe, lists a directory, takes up a file, writes a
line, launches the interpreter, passes on what the interpreter writes, or sees it end. `Run σ α`
gives the events in order, then a value or a failure, and the state in which it leaves the world.
-/

namespace LintRun

inductive Event
  | probe (command : List String)
  | list (path : Path)
  /-- The walk came to a file that is to be checked. -/
  | provide (file : String)
  | echo (text : String) (channel : Channel)
  /-- What a launched command wrote, as it was passed on. -/
  | forward (bytes : Text.Bytes) (channel : Channel)
  | launch (invocation : Invocation)
  /-- What was known of a launched command in the end. -/
  | finish (invocation : Invocation) (result : InvocationResult)
  deriving DecidableEq

namespace Event

/-- The bytes of a line. -/
def lineBytes (text : String) : Text.Bytes :=
  Text.Utf8.encode (String.ofList (Text.withoutControls text.toList) ++ "\n")

/-- What an event writes to a channel, which is no terminal. -/
def written (channel : Channel) : Event → Text.Bytes
  | .echo text other => if other = channel then lineBytes text else []
  | .forward bytes other => if other = channel then bytes else []
  | _ => []

/-- Whether an event does nothing but write. -/
def isWriting : Event → Bool
  | .echo .. | .forward .. => true
  | _ => false

end Event

structure Trace (σ α : Type) where
  events : List Event
  result : Except Failure α
  state : σ

/-- All that a run writes to a channel. -/
def Trace.written {σ α : Type} (trace : Trace σ α) (channel : Channel) : Text.Bytes :=
  trace.events.flatMap (Event.written channel)

def Run (σ α : Type) : Type :=
  σ → Trace σ α

namespace Run

variable {σ α β : Type}

def done (a : α) : Run σ α := fun s => ⟨[], .ok a, s⟩

/-- Runs `f` on the value of `run`; its events follow those of `run`. -/
def andThen (run : Run σ α) (f : α → Run σ β) : Run σ β := fun s =>
  let first := run s
  match first.result with
  | .error e => ⟨first.events, .error e, first.state⟩
  | .ok a =>
    let second := f a first.state
    ⟨first.events ++ second.events, second.result, second.state⟩

instance : Monad (Run σ) where
  pure := done
  bind := andThen

def fail (failure : Failure) : Run σ α := fun s => ⟨[], .error failure, s⟩

def emit (event : Event) : Run σ Unit := fun s => ⟨[event], .ok (), s⟩

def echo (text : String) (channel : Channel) : Run σ Unit := emit (.echo text channel)

def read : Run σ σ := fun s => ⟨[], .ok s, s⟩

/-- An action of the world that cannot fail by itself. -/
def act (f : σ → α × σ) : Run σ α := fun s => ⟨[], .ok (f s).1, (f s).2⟩

def lift : Except Failure α → Run σ α
  | .ok a => done a
  | .error e => fail e

def echoAll : List (String × Channel) → Run σ Unit
  | [] => done ()
  | (text, channel) :: rest => do
    echo text channel
    echoAll rest

def forwardAll : List (Text.Bytes × Channel) → Run σ Unit
  | [] => done ()
  | (bytes, channel) :: rest => do
    emit (.forward bytes channel)
    forwardAll rest

end Run

end LintRun
