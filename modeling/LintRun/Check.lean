import LintRun.Batch
import LintRun.Host
import LintRun.Report
import LintRun.Shell.Lint
import LintRun.Strategy

/-!
# The check

Detects the version of the interpreter, runs the strategy for it and joins the outcomes of all
invocations into a verdict. In a batch run a command line is launched as soon as the next file that
does not fit on it is known, so listing and launching take turns.
-/

namespace LintRun.Check

variable {σ : Type}

def explain (options : Options) (lines : List (String × Channel)) : Run σ Unit :=
  if options.debug then Run.echoAll lines else return

def walkOf (options : Options) : Walk :=
  ⟨options.directory, options.included, options.excluded, "/"⟩

/-- The length that the lines of a batch run must not reach; with zero each file has a line. -/
def lineLimit (host : Host σ) (options : Options) (manyFiles : Bool) : Run σ Int :=
  if manyFiles then do
    let ceiling ← host.ceiling
    explain options ceiling.report
    return ceiling.length
  else return 0

def lineInvocation (options : Options) (line : Line) : Invocation where
  command := .shell line.text
  directory := options.directory
  captureStdout := false
  timeout := options.timeout

def launchLine (host : Host σ) (options : Options) (verdict : Verdict) (line : Line) :
    Run σ Verdict := do
  explain options [("Executing: " ++ line.text, .stdout)]
  let result ← host.runLaunch (lineInvocation options line)
  return verdict.fold result.outcome

def launchLine? (host : Host σ) (options : Options) (verdict : Verdict) :
    Option Line → Run σ Verdict
  | none => return verdict
  | some line => launchLine host options verdict line

/-- Takes the files one by one and launches each line when it is complete. The fuel bounds the
number of files, and the listings between two of them. -/
def batchLoop (host : Host σ) (options : Options) (packing : Packing) :
    Nat → List Walk.Task → Counters → Packer → Verdict → Run σ (Verdict × Counters)
  | 0, _, _, _, _ => Run.fail .unfinished
  | fuel + 1, tasks, counters, packer, verdict => do
    let (pull, counters) ← (walkOf options).next host.runList fuel tasks counters
    match pull with
    | .file path rest =>
      Run.emit (.provide path)
      let (line, packer) := packer.push packing path
      let verdict ← launchLine? host options verdict line
      batchLoop host options packing fuel rest counters packer verdict
    | .finished =>
      let verdict ← launchLine? host options verdict (packer.finish packing)
      return (verdict, counters)
    | .failed failure => Run.fail (.listing failure)
    | .exhausted => Run.fail .unfinished

def runBatch (host : Host σ) (fuel : Nat) (options : Options) (php : String) (manyFiles : Bool)
    (verdict : Verdict) : Run σ Verdict := do
  explain options [((Strategy.batch php manyFiles).describe, .stdout)]
  let limit ← lineLimit host options manyFiles
  let packing : Packing :=
    ⟨Shell.lintOpening host.platform php, Shell.quote host.platform, limit⟩
  let (verdict, counters) ←
    batchLoop host options packing fuel (walkOf options).tasks {} {} verdict
  return verdict.withCounts counters.provided counters.skipped

/-- The helper script's arguments: what is included after a plus, what is excluded after a minus. -/
def helperArguments (options : Options) : List String :=
  options.included.map ("+" ++ ·) ++ options.excluded.map ("-" ++ ·)

def helperInvocation (host : Host σ) (options : Options) (php : String) (flags : List String) :
    Invocation where
  command := .exec (php :: flags ++ host.helper :: helperArguments options)
  directory := options.directory
  captureStdout := true
  timeout := options.timeout

/-- What the helper script's arguments include and what they exclude. -/
def readHelperArguments (arguments : List String) : List String × List String :=
  let marked (mark : Char) : List String := arguments.filterMap fun argument =>
    match argument.toList with
    | c :: entry => if c = mark then some (String.ofList entry) else none
    | [] => none
  (marked '+', marked '-')

/-- The exit codes with which the helper script says that it needs the compiler cache. -/
def needsCache (exitCode : Option Int) : Bool :=
  exitCode == some 2 || exitCode == some 3

def cacheAdvice : String :=
  "OPcache is required to check the files with this PHP version; " ++
    "enable it or set support-duplicated-names to check files one by one."

def readCounts (output : Text.Bytes) : Run σ (Nat × Nat) :=
  match Report.counts output with
  | .ok counts => return counts
  | .error number => Run.fail (.invalid number.message)

def runAggregate (host : Host σ) (options : Options) (php : String) (flags : List String)
    (verdict : Verdict) : Run σ Verdict := do
  explain options [((Strategy.aggregate php flags).describe, .stdout)]
  let invocation := helperInvocation host options php flags
  explain options [("Executing: " ++ invocation.display, .stdout)]
  let result ← host.runLaunch invocation
  if needsCache result.exitCode then Run.echo cacheAdvice .stderr
  let (checked, skipped) ← readCounts result.stdout
  return (verdict.fold result.outcome).withCounts checked skipped

def runStrategy (host : Host σ) (fuel : Nat) (options : Options) (verdict : Verdict) :
    Strategy → Run σ Verdict
  | .batch php manyFiles => runBatch host fuel options php manyFiles verdict
  | .aggregate php flags => runAggregate host options php flags verdict

/-- The whole check, with the version first and the summary last. -/
def run (host : Host σ) (fuel : Nat) (options : Options) : Run σ Verdict := do
  let version ← host.version options.php
  Run.echo ("Checking files with PHP " ++ version.text) .stdout
  let strategy := Strategy.select version options.supportDuplicatedNames options.php
  let verdict ← runStrategy host fuel options {} strategy
  Run.echoAll (verdict.summary.map (·, .stdout))
  return verdict

end LintRun.Check
