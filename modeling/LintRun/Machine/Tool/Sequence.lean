import LintRun.Machine.Source

/-!
# Sequences of numbers

What `seq` writes: integers in equal steps.
-/

namespace LintRun.Machine.Tool

open Exec

/-- The options of a sequence: what separates its numbers, and whether they get the same width;
and the other arguments, among which are numbers below zero. -/
def sequenceOptions (separator : String) (isEven : Bool) :
    List String → String × Bool × List String
  | "--" :: rest => (separator, isEven, rest)
  | "-w" :: rest => sequenceOptions separator true rest
  | "-s" :: text :: rest => sequenceOptions text isEven rest
  | argument :: rest =>
    if argument.startsWith "-s" then sequenceOptions (argument.drop 2).toString isEven rest
    else (separator, isEven, argument :: rest)
  | [] => (separator, isEven, [])

def evenText (width : Nat) (n : Int) : String :=
  let sign := if n < 0 then "-" else ""
  let digits := toString n.natAbs
  sign ++ String.ofList (List.replicate (width - sign.length - digits.length) '0') ++ digits

def steps (first step last : Int) : List Int :=
  let span := if 0 < step then last - first else first - last
  let length := if span < 0 then 0 else (span / step.natAbs + 1).toNat
  (List.range length).map fun (i : Nat) => first + step * i

def sequence (name : String) (arguments : List String) : Exec Nat := do
  let (separator, isEven, operands) := sequenceOptions "\n" false arguments
  let refuse (text : String) : Exec Nat := do
    complain (name ++ ": " ++ text ++ "\nTry '" ++ name ++ " --help' for more information.")
    return 1
  let number? (operand : String) := (Shell.Integer.whole? (some 10) operand).map Int64.toInt
  if let some operand := operands.find? fun operand => (number? operand).isNone then
    return ← refuse ("invalid floating point argument: ‘" ++ operand ++ "’")
  let show_ (first step last : Int) : Exec Nat := do
    let width := if isEven then max (toString first).length (toString last).length else 0
    let items := (steps first step last).map (evenText width)
    if !items.isEmpty then writeText 1 (separator.intercalate items ++ "\n")
    return 0
  match operands.filterMap number? with
  | [] => refuse "missing operand"
  | [last] => show_ 1 1 last
  | [first, last] => show_ first 1 last
  | [first, step, last] =>
    if step = 0 then refuse ("invalid Zero increment value: ‘" ++ (operands.drop 1).headD "" ++ "’")
    else show_ first step last
  | _ => refuse ("extra operand ‘" ++ (operands.drop 3).headD "" ++ "’")

end LintRun.Machine.Tool
