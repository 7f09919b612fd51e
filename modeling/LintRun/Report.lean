import LintRun.Text.Digit
import LintRun.Text.Utf8

/-!
# The report of the helper script

The helper script ends its output with the number of files it checked and of those it skipped. The
first text of that form counts, whatever surrounds it; without one both numbers are zero. A number
with too many digits is not read: such a report has no numbers.
-/

namespace LintRun.Report

open Text (Bytes digitValue? natOfDigits)

def isDigit (c : Char) : Bool := (digitValue? c).isSome

def opening : List Char := "files checked: ".toList

def middle : List Char := " (skipped: ".toList

def after? (word cs : List Char) : Option (List Char) :=
  if word.isPrefixOf cs then some (cs.drop word.length) else none

def digits? (cs : List Char) : Option (List Char × List Char) :=
  let digits := cs.takeWhile isDigit
  if digits.isEmpty then none else some (digits, cs.dropWhile isDigit)

/-- The digits of both numbers of a report that the text starts with. -/
def here? (cs : List Char) : Option (List Char × List Char) := do
  let cs ← after? opening cs
  let (checked, cs) ← digits? cs
  let cs ← after? middle cs
  let (skipped, cs) ← digits? cs
  let _ ← after? [')'] cs
  return (checked, skipped)

def find? : List Char → Option (List Char × List Char)
  | [] => here? []
  | c :: rest => (here? (c :: rest)).orElse fun _ => find? rest

/-- A number has more digits than are read. -/
structure Overlong where
  count : Nat

def Overlong.message (number : Overlong) : String := Text.overlongMessage (some number.count)

def number (digits : List Char) : Except Overlong Nat :=
  if Text.digitLimit < digits.length then .error ⟨digits.length⟩ else .ok (natOfDigits digits)

/-- The numbers of files checked and skipped that an output reports. -/
def counts (output : Bytes) : Except Overlong (Nat × Nat) :=
  match find? (Text.Utf8.decodeLossy output) with
  | none => .ok (0, 0)
  | some (checked, skipped) => do
    let checked ← number checked
    let skipped ← number skipped
    return (checked, skipped)

/-- The line that reports the numbers. -/
def line (checked skipped : Nat) : String :=
  s!"files checked: {checked} (skipped: {skipped})."

end LintRun.Report
