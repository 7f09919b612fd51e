import LintRun.Number.Binary64
import LintRun.Outcome
import LintRun.Path
import LintRun.Text.Utf8

/-!
# Invocations

One run of a child process: a command line for the shell or a list of arguments, the directory it
runs in, and for how long it may run.
-/

namespace LintRun

inductive Command
  | shell (line : String)
  | exec (arguments : List String)
  deriving DecidableEq

structure Invocation where
  command : Command
  directory : Path
  captureStdout : Bool
  timeout : Option Binary64
  deriving DecidableEq

namespace Invocation

def display (invocation : Invocation) : String :=
  match invocation.command with
  | .shell line => line
  | .exec arguments => " ".intercalate arguments

end Invocation

/-- What is known of a child process in the end. Without an exit code it was not started, or was
stopped for taking too long. -/
structure InvocationResult where
  exitCode : Option Int := some 0
  stderrSize : Nat := 0
  stdout : Text.Bytes := []
  timedOut : Bool := false
  failure : Option String := none
  deriving DecidableEq

def InvocationResult.outcome (result : InvocationResult) : Outcome :=
  .classify result.exitCode result.stderrSize result.timedOut

end LintRun
