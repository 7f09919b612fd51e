import LintRun.Number.Reading
import LintRun.Number.Decimal
import LintRun.Shell.Integer
import LintRun.Text.Utf8

/-!
# Formatted output

What `printf` and `echo` of the shell write. Escapes stand for single bytes. A format is used again
while arguments are left, and an argument that is missing is empty or zero.
-/

namespace LintRun.Shell.Format

open Text (Bytes)

def isOctal (c : Char) : Bool := '0' ≤ c && c ≤ '7'

def octalValue (digits : List Char) : Nat :=
  digits.foldl (fun n c => 8 * n + (c.toNat - 48)) 0

/-- The byte that an escape stands for, and the text after it. A backslash that no escape starts
with stands for itself. -/
def escape (cs : List Char) : UInt8 × List Char :=
  match cs with
  | 'a' :: rest => (7, rest)
  | 'b' :: rest => (8, rest)
  | 'e' :: rest => (27, rest)
  | 'f' :: rest => (12, rest)
  | 'n' :: rest => (10, rest)
  | 'r' :: rest => (13, rest)
  | 't' :: rest => (9, rest)
  | 'v' :: rest => (11, rest)
  | '\\' :: rest => (92, rest)
  | _ =>
    let digits := (cs.take 3).takeWhile isOctal
    if digits.isEmpty then (92, cs) else (UInt8.ofNat (octalValue digits), cs.drop digits.length)

theorem escape_length_le (cs : List Char) : (escape cs).2.length ≤ cs.length := by
  unfold escape
  split <;> simp
  split <;> simp

def skipZero : List Char → List Char
  | '0' :: c :: rest => if isOctal c then c :: rest else '0' :: c :: rest
  | cs => cs

theorem skipZero_length_le (cs : List Char) : (skipZero cs).length ≤ cs.length := by
  unfold skipZero
  split
  · split <;> simp
  · exact Nat.le_refl _

/-- A text with its escapes, and whether the escape that ends all output is among them. -/
def unescape : List Char → Bytes × Bool
  | [] => ([], false)
  | '\\' :: 'c' :: _ => ([], true)
  | '\\' :: rest =>
    have : (escape (skipZero rest)).2.length < rest.length + 1 :=
      Nat.lt_succ_of_le (Nat.le_trans (escape_length_le _) (skipZero_length_le _))
    let (bytes, stops) := unescape (escape (skipZero rest)).2
    ((escape (skipZero rest)).1 :: bytes, stops)
  | c :: rest =>
    let (bytes, stops) := unescape rest
    (Text.Utf8.encodeChar c ++ bytes, stops)
termination_by cs => cs.length

/-- A count in a place, which may be left to an argument. -/
inductive Count
  | given (count : Nat)
  | asked
  deriving DecidableEq

structure Place where
  flags : List Char
  width : Count
  precision : Option Count
  conversion : Char

inductive Part
  | bytes (bytes : Bytes)
  | place (place : Place)

def count (cs : List Char) : Count × List Char :=
  match cs with
  | '*' :: rest => (.asked, rest)
  | _ =>
    let digits := cs.takeWhile Char.isDigit
    (.given (Integer.ofDigits 10 digits), cs.drop digits.length)

/-- What follows a percent sign up to the character that says how the argument is written: flags,
width and precision, and the text from that character on. -/
def counts (cs : List Char) : (List Char × Count × Option Count) × List Char :=
  let flags := cs.takeWhile "-+ #0".toList.contains
  let (width, cs) := count (cs.drop flags.length)
  match cs with
  | '.' :: rest =>
    let (precision, cs) := count rest
    ((flags, width, some precision), cs)
  | _ => ((flags, width, none), cs)

def place? (cs : List Char) : Option (Place × List Char) :=
  let ((flags, width, precision), cs) := counts cs
  match cs with
  | c :: rest =>
    if "sbcdiuoxXfeg".toList.contains c then some (⟨flags, width, precision, c⟩, rest) else none
  | [] => none

/-- The parts of a format; what follows a percent sign that starts no place is left out. -/
def parts : Nat → List Char → List Part
  | 0, _ | _, [] => []
  | fuel + 1, '\\' :: rest =>
    let (byte, rest) := escape rest
    .bytes [byte] :: parts fuel rest
  | fuel + 1, '%' :: '%' :: rest => .bytes [37] :: parts fuel rest
  | fuel + 1, '%' :: rest =>
    match place? rest with
    | some (place, rest) => .place place :: parts fuel rest
    | none => []
  | fuel + 1, c :: rest => .bytes (Text.Utf8.encodeChar c) :: parts fuel rest

structure Layout where
  flags : List Char
  width : Nat
  precision : Option Nat
  conversion : Char

def Layout.has (layout : Layout) (flag : Char) : Bool :=
  layout.flags.contains flag

def Layout.pad (layout : Layout) (bytes : Bytes) : Bytes :=
  let space := List.replicate (layout.width - bytes.length) (32 : UInt8)
  if layout.has '-' then bytes ++ space else space ++ bytes

/-- A number with what comes before its digits; zeros fill the width if that is asked for. -/
def Layout.padNumber (layout : Layout) (zeros : Bool) (opening digits : List Char) : Bytes :=
  let fill := if zeros && layout.has '0' && !layout.has '-' then
      layout.width - opening.length - digits.length
    else 0
  layout.pad (Text.Utf8.encode (String.ofList (opening ++ List.replicate fill '0' ++ digits)))

def Layout.sign (layout : Layout) (negative : Bool) : List Char :=
  if negative then ['-'] else if layout.has '+' then ['+']
  else if layout.has ' ' then [' '] else []

def greatestUnsigned : Int := 18446744073709551615

def readNumber (low high : Int) (argument : String) : Int × Option String :=
  match argument.toList with
  | [] => (0, none)
  | '\'' :: rest | '"' :: rest =>
    (((Text.Utf8.encode (String.ofList rest)).headD 0).toNat, none)
  | cs =>
    match Integer.start? none cs with
    | some (n, []) =>
      if n < low then (low, some (argument ++ ": Numerical result out of range"))
      else if high < n then (high, some (argument ++ ": Numerical result out of range"))
      else (n, none)
    | some (n, _) => (max low (min high n), some (argument ++ ": not completely converted"))
    | none => (0, some (argument ++ ": expected numeric value"))

def writtenIn (base : Nat) (upper : Bool) (n : Nat) : List Char :=
  (Nat.toDigits base n).map fun c => if upper then c.toUpper else c

/-- An integer with its sign or the mark of its base and at least as many digits as the place asks
for. No digits stand for zero if none are asked for. -/
def Layout.writeInteger (layout : Layout) (value : Int) : Bytes :=
  let isSigned := layout.conversion == 'd' || layout.conversion == 'i'
  let natural := if isSigned then value.natAbs
    else if value < 0 then (greatestUnsigned + 1 + value).toNat else value.toNat
  let digits := match layout.conversion with
    | 'o' => writtenIn 8 false natural
    | 'x' => writtenIn 16 false natural
    | 'X' => writtenIn 16 true natural
    | _ => writtenIn 10 false natural
  let digits := if natural = 0 && layout.precision == some 0 then [] else digits
  let digits := List.replicate (layout.precision.getD 0 - digits.length) '0' ++ digits
  let isMarked := layout.has '#' && natural != 0
  let opening := if isSigned then layout.sign (value < 0)
    else match layout.conversion with
      | 'x' => if isMarked then ['0', 'x'] else []
      | 'X' => if isMarked then ['0', 'X'] else []
      | 'o' => if isMarked && digits.head? != some '0' then ['0'] else []
      | _ => []
  layout.padNumber layout.precision.isNone opening digits

def withPoint (places : Nat) (digits : List Char) : List Char :=
  if places = 0 then digits
  else
    let digits := List.replicate (places + 1 - digits.length) '0' ++ digits
    digits.take (digits.length - places) ++ '.' :: digits.drop (digits.length - places)

def scientific (places significand : Nat) (exponent : Int) : List Char :=
  let decimal := if significand = 0 then ⟨['0'], 1⟩
    else Decimal.rounded (places + 1) significand exponent
  let digits := decimal.digits ++ List.replicate (places + 1 - decimal.digits.length) '0'
  withPoint places digits ++ 'e' :: DecimalStyle.exponentText (decimal.point - 1)

/-- A floating point number, with six decimal places or digits unless the place asks for others. -/
def Layout.writeFloat (layout : Layout) (value : Binary64) : Bytes :=
  let precision := layout.precision.getD 6
  match value with
  | .nan => layout.pad (Text.Utf8.encode "nan")
  | .infinite negative =>
    layout.pad (Text.Utf8.encode (String.ofList (layout.sign negative) ++ "inf"))
  | .finite negative significand exponent =>
    let digits := match layout.conversion with
      | 'f' =>
        let (num, den) := Binary64.ratio significand exponent
        let units := Binary64.divRound (num * Nat.pow 10 precision) den
        withPoint precision (Nat.toDigits 10 units)
      | 'e' => scientific precision significand exponent
      | _ =>
        let count := max 1 precision
        let decimal := if significand = 0 then ⟨['0'], 1⟩
          else Decimal.rounded count significand exponent
        DecimalStyle.write ⟨-4, count, false⟩ decimal
    layout.padNumber true (layout.sign negative) digits

structure Pass where
  bytes : Bytes := []
  rest : List String
  /-- What is wrong with arguments that should have been numbers. -/
  faults : List String := []
  stops : Bool := false

def Pass.take (pass : Pass) : String × Pass :=
  (pass.rest.headD "", { pass with rest := pass.rest.drop 1 })

def Pass.add (pass : Pass) (bytes : Bytes) : Pass :=
  { pass with bytes := pass.bytes ++ bytes }

def Pass.takeNumber (pass : Pass) (low high : Int) : Int × Pass :=
  let (argument, pass) := pass.take
  let (n, fault) := readNumber low high argument
  (n, { pass with faults := pass.faults ++ fault.toList })

def Pass.takeCount (pass : Pass) : Count → Int × Pass
  | .given count => (count, pass)
  | .asked => pass.takeNumber Int64.minValue.toInt Int64.maxValue.toInt

/-- The layout of a place. A width below zero asks for space after the argument, a precision below
zero for nothing. -/
def Pass.layout (pass : Pass) (place : Place) : Layout × Pass :=
  let (width, pass) := pass.takeCount place.width
  let (precision, pass) := match place.precision with
    | some count =>
      let (n, pass) := pass.takeCount count
      (if n < 0 then none else some n.toNat, pass)
    | none => (none, pass)
  let flags := if width < 0 then '-' :: place.flags else place.flags
  (⟨flags, width.natAbs, precision, place.conversion⟩, pass)

def writePlace (pass : Pass) (place : Place) : Pass :=
  let (layout, pass) := pass.layout place
  let cut (bytes : Bytes) : Bytes := match layout.precision with
    | some count => bytes.take count
    | none => bytes
  match layout.conversion with
  | 's' =>
    let (argument, pass) := pass.take
    pass.add (layout.pad (cut (Text.Utf8.encode argument)))
  | 'c' =>
    let (argument, pass) := pass.take
    pass.add (layout.pad ((Text.Utf8.encode argument).take 1))
  | 'b' =>
    let (argument, pass) := pass.take
    let (bytes, stops) := unescape argument.toList
    { pass.add (layout.pad (cut bytes)) with stops }
  | 'd' | 'i' =>
    let (n, pass) := pass.takeNumber Int64.minValue.toInt Int64.maxValue.toInt
    pass.add (layout.writeInteger n)
  | 'f' | 'e' | 'g' =>
    let (argument, pass) := pass.take
    let value := Binary64.readAscii? argument.toList
    let zero := Binary64.finite false 0 Binary64.minExponent
    let fault := if value.isSome || argument == "" then none
      else some (argument ++ ": expected numeric value")
    { pass.add (layout.writeFloat (value.getD zero)) with faults := pass.faults ++ fault.toList }
  | _ =>
    let (n, pass) := pass.takeNumber (-greatestUnsigned) greatestUnsigned
    pass.add (layout.writeInteger n)

def writePart (pass : Pass) (part : Part) : Pass :=
  if pass.stops then pass
  else
    match part with
    | .bytes bytes => pass.add bytes
    | .place place => writePlace pass place

/-- Uses the format while arguments are left. A format without places is used once. -/
def passes (parts : List Part) : Nat → Pass → Pass
  | 0, pass => pass
  | fuel + 1, pass =>
    let next := parts.foldl writePart pass
    if next.stops || next.rest.isEmpty || next.rest.length = pass.rest.length then next
    else passes parts fuel next

/-- What is wrong with a format whose first place that is none starts with the text. -/
def faultOf (cs : List Char) : String :=
  match (counts cs).2 with
  | [] => "missing format character"
  | _ :: rest =>
    "%" ++ String.ofList (cs.take (cs.length - rest.length)) ++ ": invalid directive"

def fault? : Nat → List Char → Option String
  | 0, _ | _, [] => none
  | fuel + 1, '\\' :: _ :: rest => fault? fuel rest
  | fuel + 1, '%' :: '%' :: rest => fault? fuel rest
  | fuel + 1, '%' :: rest =>
    match place? rest with
    | some (_, rest) => fault? fuel rest
    | none => some (faultOf rest)
  | fuel + 1, _ :: rest => fault? fuel rest

def isSound (text : String) : Bool :=
  (fault? text.length text.toList).isNone

def format (text : String) (arguments : List String) : Bytes × List String :=
  let parts := parts text.length text.toList
  let pass := passes parts (arguments.length + 1) { rest := arguments }
  (pass.bytes, pass.faults ++ (fault? text.length text.toList).toList)

def echo (arguments : List String) : Bytes :=
  let (silent, arguments) := match arguments with
    | "-n" :: rest => (true, rest)
    | _ => (false, arguments)
  let (bytes, stops) := unescape (" ".intercalate arguments).toList
  if silent || stops then bytes else bytes ++ [10]

end LintRun.Shell.Format
