import LintRun.Number.Binary64

/-!
# Decimal digits of floating point numbers

`shortest` gives the fewest digits that read back as the number, and of those the digits nearest to
it; `rounded` gives a fixed count of digits. A style then decides where the point goes, when an
exponent is written and whether a fraction of zero is kept.
-/

namespace LintRun

/-- The positive value `0.d₁d₂…dₙ * 10 ^ point`, without trailing zeros. -/
structure Decimal where
  digits : List Char
  point : Int
  deriving DecidableEq

namespace Decimal

def dropTrailingZeros (digits : List Char) : List Char :=
  (digits.reverse.dropWhile (· == '0')).reverse

def ofNat (value : Nat) (exponent : Int) : Decimal :=
  let digits := Nat.toDigits 10 value
  ⟨dropTrailingZeros digits, digits.length + exponent⟩

/-- The number of digits before the point of the positive quotient `num / den`, zero or less for
one below a tenth; `guess` bounds it from above and `fuel` is how far it may be off. -/
def pointOf (num den : Nat) : Nat → Int → Int
  | 0, guess => guess
  | fuel + 1, guess =>
    let reached :=
      if 0 < guess then den * Nat.pow 10 (guess - 1).toNat ≤ num
      else den ≤ num * Nat.pow 10 (1 - guess).toNat
    if reached then guess else pointOf num den fuel (guess - 1)

/-- An upper bound of `pointOf` by the lengths in bits, at most two too large. -/
def pointGuess (num den : Nat) : Int :=
  Int.fdiv (((num.log2 : Int) - den.log2 + 1) * 30103) 100000 + 1

def inUnits (num den : Nat) (exponent : Int) : Nat × Nat :=
  if 0 ≤ exponent then (num, den * Nat.pow 10 exponent.toNat)
  else (num * Nat.pow 10 (-exponent).toNat, den)

/-- The multiple of `10 ^ exponent` next to the positive finite number `x`, if it reads back as
`x`: the nearer of the two neighbours, the even one if both are equally near. -/
def neighbour? (x : Binary64) (num den : Nat) (exponent : Int) : Option Decimal :=
  let (n, d) := inUnits num den exponent
  let below := n / d
  let readsBack (value : Nat) := Binary64.ofDecimal false value exponent == x
  let nearest := Binary64.divRound n d
  let other := if nearest = below then below + 1 else below
  if readsBack nearest then some (ofNat nearest exponent)
  else if readsBack other then some (ofNat other exponent)
  else none

/-- The shortest decimal of a positive finite number. Seventeen digits always read back. -/
def shortest (significand : Nat) (exponent : Int) : Decimal :=
  let (num, den) := Binary64.ratio significand exponent
  let point := pointOf num den 4 (pointGuess num den)
  let grids := (List.range 17).filterMap fun count =>
    neighbour? (.finite false significand exponent) num den (point - (count + 1 : Nat))
  grids.head?.getD ⟨['0'], 1⟩

def rounded (count : Nat) (significand : Nat) (exponent : Int) : Decimal :=
  let (num, den) := Binary64.ratio significand exponent
  let unit := pointOf num den 4 (pointGuess num den) - (count : Int)
  let (n, d) := inUnits num den unit
  ofNat (Binary64.divRound n d) unit

end Decimal

/-- How a decimal is written: positionally if its exponent, that of the first digit, lies between
the two bounds, where `keepFraction` adds a fraction to whole numbers. -/
structure DecimalStyle where
  leastExponent : Int
  pastExponent : Int
  keepFraction : Bool

namespace DecimalStyle

def exponentText (exponent : Int) : List Char :=
  let digits := Nat.toDigits 10 exponent.natAbs
  (if exponent < 0 then '-' else '+') :: (if digits.length < 2 then '0' :: digits else digits)

def write (style : DecimalStyle) (x : Decimal) : List Char :=
  let exponent := x.point - 1
  if style.leastExponent ≤ exponent && exponent < style.pastExponent then
    if x.point ≤ 0 then
      '0' :: '.' :: List.replicate (-x.point).toNat '0' ++ x.digits
    else
      let whole := x.digits.take x.point.toNat
      let fraction := x.digits.drop x.point.toNat
      let whole := whole ++ List.replicate (x.point.toNat - whole.length) '0'
      if !fraction.isEmpty then whole ++ '.' :: fraction
      else if style.keepFraction then whole ++ ['.', '0']
      else whole
  else
    let fraction := x.digits.drop 1
    x.digits.take 1 ++ (if fraction.isEmpty then [] else '.' :: fraction) ++
      'e' :: exponentText exponent

end DecimalStyle

namespace Binary64

/-- Numbers in messages: positional from 0.0001 to below 10^16, with a fraction always. -/
def plain : DecimalStyle := ⟨-4, 16, true⟩

def brief : DecimalStyle := ⟨-4, 6, false⟩

def writeWith (nan infinity : String) (style : DecimalStyle) (decimal : Nat → Int → Decimal) :
    Binary64 → String
  | .nan => nan
  | .infinite negative => (if negative then "-" else "") ++ infinity
  | .finite negative significand exponent =>
    let x := if significand = 0 then ⟨['0'], 1⟩ else decimal significand exponent
    String.ofList ((if negative then ['-'] else []) ++ style.write x)

def text : Binary64 → String :=
  writeWith "nan" "inf" plain Decimal.shortest

def briefText : Binary64 → String :=
  writeWith "nan" "inf" brief (Decimal.rounded 6)

def jsonText : Binary64 → String :=
  writeWith "NaN" "Infinity" plain Decimal.shortest

end Binary64

end LintRun
