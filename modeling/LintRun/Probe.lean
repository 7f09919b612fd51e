import LintRun.OsError
import LintRun.Version

/-!
# Probes

A probe runs a short command and reads its output. The run may fail in the system, in the control
of the child process, or because the command or the output is not valid, such as an output that is
not text.
-/

namespace LintRun

/-- What a command that was run to its end left behind. -/
structure Completed where
  stdout : Option String := some ""
  stderr : Option String := some ""
  exitCode : Int := 0

/-- Why a probe did not run to its end, or left no text. -/
inductive ProbeFailure
  | system (error : OsError)
  | process (text : String)
  | undecodable
  | nulByte
  /-- Whatever else is not valid, with what is said of it. -/
  | invalid (text : String)

namespace Probe

def versionCommand (php : String) : List String :=
  [php, "-n", "-r", "echo PHP_VERSION_ID;"]

def argMaxCommand : List String := ["getconf", "ARG_MAX"]

end Probe

inductive VersionFailure
  | notRun (php : String) (error : OsError)
  | unreadable (output : String) (stderr : String)

namespace VersionFailure

def message : VersionFailure → String
  | .notRun php error => "Failed to run " ++ php ++ ": " ++ error.message
  | .unreadable output stderr =>
    "Failed to parse version " ++ Text.quoted output ++ if stderr = "" then "" else "\n" ++ stderr

end VersionFailure

namespace Version

/-- The version in the output of the interpreter; its error stream explains a failure. -/
def parse (output stderr : String) : Except VersionFailure Version :=
  match read? output with
  | some version => .ok version
  | none => .error (.unreadable output stderr)

def ofCompleted (completed : Completed) : Except VersionFailure Version :=
  parse (completed.stdout.getD "") (Text.trim (completed.stderr.getD ""))

end Version

end LintRun
