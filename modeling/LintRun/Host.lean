import LintRun.Ceiling
import LintRun.Launch
import LintRun.Run

/-!
# Hosts

What a run needs of the machine it runs on. The state `σ` is all that the actions can change, such
as the file tree, which launched commands may write to.
-/

namespace LintRun

structure Host (σ : Type) where
  platform : Platform
  /-- The environment that counts against the length of a command line. -/
  environment : Environment
  /-- The script that checks all files in one run. -/
  helper : String
  tree : σ → Tree
  probe : List String → σ → Except ProbeFailure Completed × σ
  list : Path → σ → Except OsError (List Entry) × σ
  launch : Invocation → σ → Launched × σ

namespace Host

variable {σ : Type}

def runProbe (host : Host σ) (command : List String) : Run σ (Except ProbeFailure Completed) := do
  Run.emit (.probe command)
  Run.act (host.probe command)

def runList (host : Host σ) (path : Path) : Run σ (Except OsError (List Entry)) := do
  Run.emit (.list path)
  Run.act (host.list path)

def runLaunch (host : Host σ) (invocation : Invocation) : Run σ InvocationResult := do
  Run.emit (.launch invocation)
  let launched ← Run.act (host.launch invocation)
  Run.forwardAll launched.forwarded
  match launched.result with
  | .ok result =>
    Run.emit (.finish invocation result)
    return result
  | .error (.system e) => Run.fail (.system e)
  | .error .nulByte => Run.fail .nulByte
  | .error .noProgram => Run.fail .noProgram
  | .error .cancelled => Run.fail .cancelled
  | .error .unfinished => Run.fail .unfinished

/-- The version of the interpreter. -/
def version (host : Host σ) (php : String) : Run σ Version := do
  match ← host.runProbe (Probe.versionCommand php) with
  | .ok completed => Run.lift ((Version.ofCompleted completed).mapError .version)
  | .error (.system e) => Run.fail (.version (.notRun php e))
  | .error (.process text) => Run.fail (.process text)
  | .error .undecodable => Run.fail .undecodable
  | .error .nulByte => Run.fail .nulByte
  | .error (.invalid text) => Run.fail (.invalid text)

/-- The ceiling of a command line, for which the system is asked except on Windows. -/
def ceiling (host : Host σ) : Run σ Ceiling :=
  match host.platform with
  | .windows => return .fixed
  | .posix => return .ofProbe host.environment (← host.runProbe Probe.argMaxCommand)

end Host

end LintRun
