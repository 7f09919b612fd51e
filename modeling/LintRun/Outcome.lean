/-!
# Outcomes and verdicts

An invocation of the interpreter ends in an outcome. A verdict joins the outcomes of a run and its
counts: every part of it is the greatest value that was reported, apart from the number of
invocations.
-/

namespace LintRun

inductive Outcome
  | ok
  | warnings
  | errors
  deriving DecidableEq

namespace Outcome

def severity : Outcome → Nat
  | .ok => 0
  | .warnings => 1
  | .errors => 2

/-- The worse of two outcomes. -/
def join (a b : Outcome) : Outcome :=
  if a.severity < b.severity then b else a

theorem severity_join (a b : Outcome) : (a.join b).severity = max a.severity b.severity := by
  cases a <;> cases b <;> rfl

/-- The outcome of an invocation: an exit other than zero, or none, is an error, and anything on
the error stream is a warning. -/
def classify (exitCode : Option Int) (stderrSize : Int) (timedOut : Bool) : Outcome :=
  if timedOut || exitCode != some 0 then .errors
  else if 0 < stderrSize then .warnings
  else .ok

end Outcome

structure Verdict where
  outcome : Outcome := .ok
  filesProcessed : Int := 0
  itemsSkipped : Int := 0
  invocations : Int := 0
  deriving DecidableEq

namespace Verdict

/-- The verdict after one more invocation. -/
def fold (v : Verdict) (outcome : Outcome) : Verdict :=
  { v with outcome := v.outcome.join outcome, invocations := v.invocations + 1 }

def withCounts (v : Verdict) (filesProcessed itemsSkipped : Int) : Verdict :=
  { v with
    filesProcessed := max v.filesProcessed filesProcessed
    itemsSkipped := max v.itemsSkipped itemsSkipped }

def foldAll (v : Verdict) (outcomes : List Outcome) : Verdict :=
  outcomes.foldl fold v

def headline (v : Verdict) : String :=
  match v.outcome with
  | .errors => "ERRORS FOUND!"
  | .warnings => "WARNINGS FOUND."
  | .ok => "No errors found."

def summary (v : Verdict) : List String := [
  "",
  "Number of files processed: " ++ toString v.filesProcessed,
  "Number of items skipped: " ++ toString v.itemsSkipped,
  v.headline]

/-- The exit status of a run: one for errors, and for warnings where those count as failures. -/
def exitStatus (v : Verdict) (failOnWarnings : Bool) : Nat :=
  match v.outcome with
  | .errors => 1
  | .warnings => if failOnWarnings then 1 else 0
  | .ok => 0

end Verdict

end LintRun
