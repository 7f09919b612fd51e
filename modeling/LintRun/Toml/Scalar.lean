import LintRun.Toml.Lexeme
import LintRun.Value

/-!
# Dates, times and numbers of a configuration document
-/

namespace LintRun.Toml

open Text (natOfDigits takeSign)

/-- A number of exactly `width` digits within bounds. -/
def field? (width low high : Nat) : Reader Nat := fun cs =>
  let digits := cs.take width
  let value := natOfDigits digits
  if digits.length = width ∧ digits.all Char.isDigit ∧ low ≤ value ∧ value ≤ high then
    some (value, cs.drop width)
  else none

def char? (c : Char) : Reader Unit
  | d :: rest => if c = d then some ((), rest) else none
  | [] => none

def date? : Reader Date := fun cs => do
  let (year, cs) ← field? 4 0 9999 cs
  let (_, cs) ← char? '-' cs
  let (month, cs) ← field? 2 1 12 cs
  let (_, cs) ← char? '-' cs
  let (day, cs) ← field? 2 1 31 cs
  return (⟨year, month, day⟩, cs)

/-- The fraction of a second in microseconds; further digits are dropped. -/
def fraction : List Char → Nat × List Char
  | '.' :: rest =>
    let digits := rest.takeWhile Char.isDigit
    if digits.isEmpty then (0, '.' :: rest)
    else
      let kept := digits.take 6
      (natOfDigits (kept ++ List.replicate (6 - kept.length) '0'), rest.dropWhile Char.isDigit)
  | cs => (0, cs)

def time? : Reader TimeOfDay := fun cs => do
  let (hour, cs) ← field? 2 0 23 cs
  let (_, cs) ← char? ':' cs
  let (minute, cs) ← field? 2 0 59 cs
  let (_, cs) ← char? ':' cs
  let (second, cs) ← field? 2 0 59 cs
  let (microsecond, cs) := fraction cs
  return (⟨hour, minute, second, microsecond⟩, cs)

def offset? : Reader Offset
  | 'Z' :: rest => some (0, rest)
  | 'z' :: rest => some (0, rest)
  | c :: rest =>
    if c = '+' ∨ c = '-' then do
      let (hour, cs) ← field? 2 0 23 rest
      let (_, cs) ← char? ':' cs
      let (minute, cs) ← field? 2 0 59 cs
      let minutes : Int := hour * 60 + minute
      return (if c = '-' then -minutes else minutes, cs)
    else none
  | [] => none

def timeAfterDate? : Reader TimeOfDay
  | c :: rest => if c = 'T' ∨ c = 't' ∨ c = ' ' then time? rest else none
  | [] => none

/-- A date, a moment or a time; `some none` is a date that the calendar does not have. -/
def moment? (cs : List Char) : Option (Option (Value × List Char)) :=
  match date? cs with
  | none => (time? cs).map fun (time, cs) => some (.time time, cs)
  | some (date, cs) =>
    some <|
      if !date.isValid then none
      else
        match timeAfterDate? cs with
        | none => some (.date date, cs)
        | some (time, cs) =>
          match offset? cs with
          | none => some (.moment date time none, cs)
          | some (offset, cs) => some (.moment date time (some offset), cs)

/-- Further digits in `p`, each after at most one underscore. -/
def moreDigits (p : Char → Bool) : List Char → List Char × List Char
  | '_' :: c :: rest =>
    if p c then
      let (digits, rest) := moreDigits p rest
      (c :: digits, rest)
    else ([], '_' :: c :: rest)
  | c :: rest =>
    if p c then
      let (digits, rest) := moreDigits p rest
      (c :: digits, rest)
    else ([], c :: rest)
  | [] => ([], [])

def digits? (p : Char → Bool) : Reader (List Char)
  | c :: rest =>
    if p c then
      let (digits, rest) := moreDigits p rest
      some (c :: digits, rest)
    else none
  | [] => none

def digitIn (base : Nat) (c : Char) : Option Nat :=
  let value :=
    if c.isDigit then c.toNat - 48
    else if 'a' ≤ c.toLower ∧ c.toLower ≤ 'f' then c.toLower.toNat - 87
    else base
  if value < base then some value else none

/-- A natural number in another base than ten. -/
def inBase? (base : Nat) : Reader Value := fun cs =>
  (digits? (fun c => (digitIn base c).isSome) cs).map fun (digits, rest) =>
    (.int (digits.foldl (fun value c => base * value + (digitIn base c).getD 0) 0 : Nat), rest)

/-- The digits before the point: a zero alone, or digits that do not start with it. -/
def whole? : Reader (List Char)
  | '0' :: rest => some (['0'], rest)
  | cs => digits? Char.isDigit cs

def fractionDigits : List Char → List Char × List Char
  | '.' :: rest => (digits? Char.isDigit rest).getD ([], '.' :: rest)
  | cs => ([], cs)

def exponent? : Reader Int
  | c :: rest =>
    if c = 'e' ∨ c = 'E' then
      let (negative, digits) := takeSign rest
      (digits? Char.isDigit digits).map fun (digits, rest) =>
        (if negative then -(natOfDigits digits : Int) else natOfDigits digits, rest)
    else none
  | [] => none

def decimal? : Reader Value := fun cs =>
  let (negative, cs) := takeSign cs
  (whole? cs).map fun (whole, cs) =>
    let (fraction, cs) := fractionDigits cs
    let float (exponent : Int) : Value :=
      .float (.ofDecimal negative (natOfDigits (whole ++ fraction)) (exponent - fraction.length))
    match exponent? cs with
    | some (exponent, cs) => (float exponent, cs)
    | none =>
      if fraction.isEmpty then
        (.int (if negative then -(natOfDigits whole : Int) else natOfDigits whole), cs)
      else (float 0, cs)

def number? (cs : List Char) : Option (Value × List Char) :=
  match cs with
  | '0' :: 'x' :: rest => (inBase? 16 rest).orElse fun _ => decimal? cs
  | '0' :: 'o' :: rest => (inBase? 8 rest).orElse fun _ => decimal? cs
  | '0' :: 'b' :: rest => (inBase? 2 rest).orElse fun _ => decimal? cs
  | _ => decimal? cs

/-- Infinity and NaN, by name. -/
def special? (cs : List Char) : Option (Value × List Char) :=
  let (negative, rest) := takeSign cs
  match rest with
  | 'i' :: 'n' :: 'f' :: rest => some (.float (.infinite negative), rest)
  | 'n' :: 'a' :: 'n' :: rest => some (.float .nan, rest)
  | _ => none

def scalar? (cs : List Char) : Option (Value × List Char) :=
  match cs with
  | '"' :: _ | '\'' :: _ => (text? cs).map fun (text, rest) => (.text (String.ofList text), rest)
  | 't' :: 'r' :: 'u' :: 'e' :: rest => some (.bool true, rest)
  | 'f' :: 'a' :: 'l' :: 's' :: 'e' :: rest => some (.bool false, rest)
  | _ =>
    match moment? cs with
    | some result => result
    | none => (number? cs).orElse fun _ => special? cs

end LintRun.Toml
