import LintRun.Cli
import LintRun.Machine

/-!
# Command line

Runs the program on a machine of its own. A shell script on standard input makes the files and the
interpreter; options come from the arguments and from the variables of the environment.
-/

namespace LintRun

/-- The directory in which the script and the program start. -/
def home : Path := .ofString "/home/work"

def helperPath : String := "/opt/lint/checker.php"

/-- The machine with nothing in it but the working directory. -/
def emptyMachine (environment : Environment) : Machine where
  tree := { Machine.fileSystem.apply (.directory home) with home }
  environment := Machine.ownEnvironment ++ environment

partial def readAll (input : IO.FS.Stream) (text : String) : IO String := do
  let line ← input.getLine
  if line.isEmpty then return text
  readAll input (text ++ line)

def readVariables : IO Environment :=
  Cli.variableNames.filterMapM fun name => do
    return (← IO.getEnv name).map fun value => (name, value)

def writeEvent (event : Event) : IO Unit := do
  (← IO.getStdout).write ⟨(event.written .stdout).toArray⟩
  (← IO.getStderr).write ⟨(event.written .stderr).toArray⟩

def runCheck (overrides : Overrides) : IO UInt32 := do
  let machine := (emptyMachine (← readVariables)).prepare (← readAll (← IO.getStdin) "")
  let host := machine.host helperPath
  let trace := Cli.check host Cli.fuel overrides machine.environment home machine
  trace.events.forM writeEvent
  match trace.result with
  | .ok status => return status.toUInt32
  | .error failure =>
    IO.eprintln failure.message
    return 1

end LintRun

def main (arguments : List String) : IO UInt32 := do
  match LintRun.Cli.parse? arguments with
  | some (.check overrides) => LintRun.runCheck overrides
  | some .help =>
    LintRun.Cli.help.forM fun line => IO.println line
    return 0
  | none =>
    IO.eprintln LintRun.Cli.usage
    return LintRun.Cli.usageStatus.toUInt32
