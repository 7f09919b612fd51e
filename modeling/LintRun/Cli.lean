import LintRun.Check
import LintRun.Cli.Arguments
import LintRun.WorkflowCommand

/-!
# The program

Resolves the options, runs the check and turns its verdict into an exit status. A failure that stops
the run is reported to the build server, and the exit status is one.
-/

namespace LintRun.Cli

variable {σ : Type}

def report (failure : Failure) : Run σ Nat := do
  if failure.isReported then
    Run.echo (WorkflowCommand.error failure.message) .stdout
    Run.echo failure.message .stderr
    return 1
  else Run.fail failure

def resolveAndRun (host : Host σ) (fuel : Nat) (overrides : Overrides)
    (environment : Environment) (cwd : Path) : Run σ Nat := do
  let state ← Run.read
  let options ← Run.lift
    ((Options.resolve (host.tree state) overrides environment cwd).mapError Failure.ofResolve)
  Check.explain options (options.describe.map (·, .stdout))
  let verdict ← Check.run host fuel options
  return verdict.exitStatus options.failOnWarnings

def recover {α : Type} (run : Run σ α) (handle : Failure → Run σ α) : Run σ α := fun s =>
  let first := run s
  match first.result with
  | .ok a => ⟨first.events, .ok a, first.state⟩
  | .error failure =>
    let second := handle failure first.state
    ⟨first.events ++ second.events, second.result, second.state⟩

/-- A run of the command; the value is the exit status. -/
def check (host : Host σ) (fuel : Nat) (overrides : Overrides) (environment : Environment)
    (cwd : Path) : Run σ Nat :=
  recover (resolveAndRun host fuel overrides environment cwd) report

/-- How many files and listings a run has fuel for. -/
def fuel : Nat := 100000

def variableNames : List String :=
  ["directory", "include", "exclude", "fail-on-warnings", "support-duplicated-names", "debug",
    "php", "timeout"].map inputName

/-- The exit status when the arguments make no sense. -/
def usageStatus : Nat := 2

def usage : String := "usage: lint-run check [options]"

def help : List String :=
  "lint-run check [options]" :: valueOptions.map (fun option => "  " ++ option.1 ++ " VALUE") ++
    flags.map fun flag => "  " ++ flag.1

end LintRun.Cli
