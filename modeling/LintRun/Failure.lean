import LintRun.Options.Layers
import LintRun.Probe
import LintRun.Walk

/-!
# Failures of a run

What can end a run before it has a verdict. Most failures are reported to the build server; the
others leave the program as they are.
-/

namespace LintRun

inductive Failure
  | option (error : OptionError)
  | config (failure : ConfigFailure)
  | version (failure : VersionFailure)
  | listing (failure : ListingFailure)
  | system (error : OsError)
  | process (text : String)
  | undecodable
  | nulByte
  | invalid (text : String)
  | noProgram
  | overflow
  | cancelled
  /-- There was more to walk through than the fuel allows. -/
  | unfinished

namespace Failure

def ofResolve : ResolveFailure → Failure
  | .config failure => .config failure
  | .option error => .option error
  | .system error => .system error
  | .overflow => .overflow
  | .overlong => .invalid (Text.overlongMessage none)

def message : Failure → String
  | .option error => error.message
  | .config failure => failure.message
  | .version failure => failure.message
  | .listing failure => failure.message
  | .system error => error.message
  | .process text => text
  | .undecodable => "the output is not text"
  | .nulByte => "embedded null byte"
  | .invalid text => text
  | .noProgram => "there is no program to start"
  | .overflow => "the number is too large"
  | .cancelled => "the run was cancelled"
  | .unfinished => "the walk did not end"

/-- Whether a failure is reported to the build server. -/
def isReported : Failure → Bool
  | .option _ | .version _ | .listing _ | .system _ => true
  | .config (.unreadable ..) | .config (.malformed _) => true
  | _ => false

end Failure

end LintRun
