/-!
# Integers in scripts

An integer may follow blanks and have a sign. Where no base is given, digits after a zero and an `x`
are hexadecimal, other digits after a zero octal. The shell counts with 64 bits: an integer that
needs more is read as the nearest one that does not.
-/

namespace LintRun.Shell.Integer

def isGap (c : Char) : Bool :=
  c == ' ' || (9 ≤ c.toNat && c.toNat ≤ 13)

def digitOf (c : Char) : Nat :=
  if c.isDigit then c.toNat - 48 else if c.isAlpha then c.toLower.toNat - 87 else 99

def isDigitIn (base : Nat) (c : Char) : Bool :=
  digitOf c < base

def ofDigits (base : Nat) (digits : List Char) : Nat :=
  digits.foldl (fun n c => base * n + digitOf c) 0

def digitsIn? (base : Nat) (digits : List Char) : Option Nat :=
  if !digits.isEmpty && digits.all (isDigitIn base) then some (ofDigits base digits) else none

def natural? (text : String) : Option Nat :=
  digitsIn? 10 text.toList

/-- The base of the digits that come next, and the text from these on. -/
def baseOf (cs : List Char) : Nat × List Char :=
  match cs with
  | '0' :: mark :: c :: rest =>
    if mark.toLower = 'x' && isDigitIn 16 c then (16, c :: rest) else (8, cs)
  | '0' :: _ => (8, cs)
  | _ => (10, cs)

def magnitude? (base : Option Nat) (cs : List Char) : Option (Nat × List Char) :=
  let (base, cs) := match base with
    | some base => (base, cs)
    | none => baseOf cs
  let digits := cs.takeWhile (isDigitIn base)
  if digits.isEmpty then none else some (ofDigits base digits, cs.drop digits.length)

def start? (base : Option Nat) (cs : List Char) : Option (Int × List Char) :=
  let cs := cs.dropWhile isGap
  match cs with
  | '-' :: rest => (magnitude? base rest).map fun (n, after) => (-(n : Int), after)
  | '+' :: rest => (magnitude? base rest).map fun (n, after) => ((n : Int), after)
  | _ => (magnitude? base cs).map fun (n, after) => ((n : Int), after)

/-- The integer of 64 bits that is nearest to an integer. -/
def nearest (n : Int) : Int64 :=
  Int64.ofInt (max Int64.minValue.toInt (min Int64.maxValue.toInt n))

/-- The integer that a whole text writes, blanks at its ends apart. -/
def whole? (base : Option Nat) (text : String) : Option Int64 :=
  (start? base text.toList).bind fun (n, rest) =>
    if rest.all isGap then some (nearest n) else none

/-- The number of a variable's text; blanks count as zero. -/
def ofValue? (text : String) : Option Int64 :=
  if text.toList.all isGap then some 0 else whole? none text

end LintRun.Shell.Integer
