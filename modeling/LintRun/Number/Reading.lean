import LintRun.Number.Binary64
import LintRun.Text.Blank
import LintRun.Text.Digit

/-!
# Reading floating point numbers

A number is written as digits with an optional fraction and exponent, or as one of the words `inf`,
`infinity` and `nan` in any case. Blanks around the number are skipped.

`read?` takes the digits of every script, and an underscore may stand between two of them.
`readArgument?` takes ASCII digits; there underscores may stand anywhere but at the ends and beside
each other, and then no blanks are skipped.
-/

namespace LintRun.Binary64

open Text

/-- Blanks that may surround a number: those of `isBlank` but for the separators below `0x20`. -/
def isMargin (c : Char) : Bool :=
  isBlank c && !(28 ≤ c.toNat && c.toNat ≤ 31)

def isDecimal (c : Char) : Bool :=
  (digitValue? c).isSome

/-- Removes underscores, each of which must stand between two digits; `after` tells whether a
digit precedes `cs`. -/
def dropUnderscores? (after : Bool) : List Char → Option (List Char)
  | [] => some []
  | ['_'] => none
  | '_' :: c :: rest =>
    if after && isDecimal c then (dropUnderscores? true rest).map (c :: ·) else none
  | c :: rest => (dropUnderscores? (isDecimal c) rest).map (c :: ·)

def readExponent? : List Char → Option Int
  | [] => some 0
  | e :: rest =>
    let (negative, digits) := takeSign rest
    if (e = 'e' || e = 'E') && !digits.isEmpty && digits.all isDecimal then
      some (if negative then -(natOfDigits digits : Int) else natOfDigits digits)
    else none

def readDecimal? (negative : Bool) (cs : List Char) : Option Binary64 :=
  let whole := cs.takeWhile isDecimal
  let rest := cs.dropWhile isDecimal
  let (fraction, rest) :=
    match rest with
    | '.' :: rest => (rest.takeWhile isDecimal, rest.dropWhile isDecimal)
    | rest => ([], rest)
  if whole.isEmpty && fraction.isEmpty then none
  else
    (readExponent? rest).map fun exponent =>
      ofDecimal negative (natOfDigits (whole ++ fraction)) (exponent - fraction.length)

def readSigned? (cs : List Char) : Option Binary64 :=
  let (negative, magnitude) := takeSign cs
  let word := String.ofList (magnitude.map Char.toLower)
  if word = "inf" || word = "infinity" then some (.infinite negative)
  else if word = "nan" then some .nan
  else readDecimal? negative magnitude

def read? (s : String) : Option Binary64 :=
  (dropUnderscores? false (trimWhile isMargin s.toList)).bind readSigned?

def readAscii? (cs : List Char) : Option Binary64 :=
  if cs.all fun c => c.toNat < 128 then readSigned? cs else none

/-- Whether underscores are neither at an end nor beside each other. -/
def areSeparate (cs : List Char) : Bool :=
  (cs.splitOn '_').all fun part => !part.isEmpty

def readArgument? (s : String) : Option Binary64 :=
  (readAscii? (trimWhile isMargin s.toList)).orElse fun _ =>
    if areSeparate s.toList then readAscii? (s.toList.filter (· != '_')) else none

end LintRun.Binary64
