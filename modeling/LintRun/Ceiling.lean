import LintRun.Channel
import LintRun.Environment
import LintRun.Platform
import LintRun.Probe
import LintRun.Text.Utf8

/-!
# The ceiling of a command line

How long a command line may become. Windows has a fixed limit. Elsewhere the space that the system
grants to arguments and environment is asked for, and what the environment takes and a margin are
left free; where that fails, the least space that every POSIX system grants is used.
-/

namespace LintRun

namespace Ceiling

def windowsLength : Int := 8191

def posixLength : Int := 4096

/-- The length that a single argument may have. -/
def greatestLength : Int := 131072

def variableOverhead : Int := 4

def margin : Int := 2048

/-- The bytes of all entries `name=value` when written one to a line. -/
def environmentSize (environment : Environment) : Nat :=
  let entrySize (entry : String × String) : Nat :=
    Text.Utf8.size entry.1 + 1 + Text.Utf8.size entry.2
  (environment.map entrySize).foldl (· + ·) 0 + (environment.length - 1)

end Ceiling

/-- The space granted and what the environment takes of it. -/
structure Measure where
  argMax : Int
  environmentSize : Int
  variableCount : Int

namespace Measure

def room (m : Measure) : Int :=
  m.argMax - m.environmentSize - m.variableCount * Ceiling.variableOverhead - Ceiling.margin

def text (m : Measure) : String :=
  s!"{m.argMax} - {m.environmentSize} - {m.variableCount} * {Ceiling.variableOverhead}" ++
    s!" - {Ceiling.margin}"

end Measure

inductive Ceiling.Failure
  | probe (failure : ProbeFailure)
  | exit (code : Int)
  | unreadable (output : String)
  | tooLow (argMax : Int)

inductive Ceiling
  | fixed
  | fallback (failure : Ceiling.Failure)
  | measured (measure : Measure)

namespace Ceiling

def signalNames : List (Nat × String) := [
  (1, "SIGHUP"), (2, "SIGINT"), (3, "SIGQUIT"), (4, "SIGILL"), (5, "SIGTRAP"), (6, "SIGABRT"),
  (7, "SIGBUS"), (8, "SIGFPE"), (9, "SIGKILL"), (10, "SIGUSR1"), (11, "SIGSEGV"),
  (12, "SIGUSR2"), (13, "SIGPIPE"), (14, "SIGALRM"), (15, "SIGTERM"), (16, "SIGSTKFLT"),
  (17, "SIGCHLD"), (18, "SIGCONT"), (19, "SIGSTOP"), (20, "SIGTSTP"), (21, "SIGTTIN"),
  (22, "SIGTTOU"), (23, "SIGURG"), (24, "SIGXCPU"), (25, "SIGXFSZ"), (26, "SIGVTALRM"),
  (27, "SIGPROF"), (28, "SIGWINCH"), (29, "SIGIO"), (30, "SIGPWR"), (31, "SIGSYS"),
  (34, "SIGRTMIN"), (64, "SIGRTMAX")]

/-- What is said of a command that ended with `code`, which is negative for a signal. -/
def exitText (code : Int) : String :=
  "Command '['getconf', 'ARG_MAX']' " ++
    if 0 ≤ code then s!"returned non-zero exit status {code}."
    else
      match signalNames.lookup code.natAbs with
      | some name => s!"died with <Signals.{name}: {code.natAbs}>."
      | none => s!"died with unknown signal {code.natAbs}."

def Failure.message : Failure → String
  | .probe (.system error) => error.message
  | .probe (.process text) => text
  | .probe .undecodable => "the output is not text"
  | .probe .nulByte => "embedded null byte"
  | .probe (.invalid text) => text
  | .exit code => exitText code
  | .unreadable output => "Failed to parse the output of getconf ARG_MAX (" ++ output ++ ")"
  | .tooLow argMax => s!"ARG_MAX seems too low ({argMax})"

def argMaxOf (completed : Completed) : Except Failure Int :=
  if completed.exitCode != 0 then .error (.exit completed.exitCode)
  else
    let output := Text.trim (completed.stdout.getD "")
    match Text.readInt? output with
    | some argMax => if argMax < 1 then .error (.unreadable output) else .ok argMax
    | none => .error (.unreadable output)

def ofArgMax (environment : Environment) (argMax : Int) : Ceiling :=
  let measure := ⟨argMax, environmentSize environment, environment.length⟩
  if measure.room < 1 then .fallback (.tooLow argMax) else .measured measure

/-- The ceiling under an environment, from what the probe gave. -/
def ofProbe (environment : Environment) : Except ProbeFailure Completed → Ceiling
  | .error failure => .fallback (.probe failure)
  | .ok completed =>
    match argMaxOf completed with
    | .error failure => .fallback failure
    | .ok argMax => ofArgMax environment argMax

def length : Ceiling → Int
  | .fixed => windowsLength
  | .fallback _ => posixLength
  | .measured measure => min measure.room greatestLength

def derivation : Ceiling → String
  | .fixed => "fixed for Windows"
  | .fallback _ => "minimum as per POSIX specs"
  | .measured measure =>
    if greatestLength < measure.room then s!"capped; {measure.text} = {measure.room}"
    else measure.text

def failure? : Ceiling → Option String
  | .fallback failure => some failure.message
  | _ => none

/-- What is told about the ceiling on request: lines, each with the stream it goes to. -/
def report (ceiling : Ceiling) : List (String × Channel) :=
  (match ceiling.failure? with
    | some text =>
      if text = "" then []
      else [("Failed to detect the maximum length of command lines: " ++ text, .stderr)]
    | none => []) ++
    [(s!"Maximum length of command lines: {ceiling.length} ({ceiling.derivation})", .stdout)]

end Ceiling

end LintRun
