/-!
# Decimal digits and integers in texts

Every script has its own ten digits, and each of them counts as a digit here. An integer is an
optional sign and digits, not too many of them, where one underscore may stand between two digits.
A number with too many digits is not written either.
-/

namespace LintRun.Text

/-- The code points of the zeros; the nine other digits of a script follow its zero. -/
def digitZeros : List Nat := [
  0x30, 0x660, 0x6f0, 0x7c0, 0x966, 0x9e6, 0xa66, 0xae6, 0xb66, 0xbe6, 0xc66, 0xce6, 0xd66,
  0xde6, 0xe50, 0xed0, 0xf20, 0x1040, 0x1090, 0x17e0, 0x1810, 0x1946, 0x19d0, 0x1a80, 0x1a90,
  0x1b50, 0x1bb0, 0x1c40, 0x1c50, 0xa620, 0xa8d0, 0xa900, 0xa9d0, 0xa9f0, 0xaa50, 0xabf0,
  0xff10, 0x104a0, 0x10d30, 0x11066, 0x110f0, 0x11136, 0x111d0, 0x112f0, 0x11450, 0x114d0,
  0x11650, 0x116c0, 0x11730, 0x118e0, 0x11950, 0x11c50, 0x11d50, 0x11da0, 0x16a60, 0x16ac0,
  0x16b50, 0x1d7ce, 0x1d7d8, 0x1d7e2, 0x1d7ec, 0x1d7f6, 0x1e140, 0x1e2f0, 0x1e950, 0x1fbf0]

def digitValue? (c : Char) : Option Nat :=
  if c.isDigit then some (c.toNat - 48)
  else if c.toNat < 128 then none
  else (digitZeros.find? fun start => start ≤ c.toNat && c.toNat < start + 10).map (c.toNat - ·)

theorem digitValue?_of_isDigit {c : Char} (h : c.isDigit = true) :
    digitValue? c = some (c.toNat - 48) := by
  simp [digitValue?, h]

/-- The number that the digits of `cs` write; what is no digit counts as zero. -/
def natOfDigits (cs : List Char) : Nat :=
  cs.foldl (fun value c => 10 * value + (digitValue? c).getD 0) 0

/-- Digits with at most one underscore between two of them, without the underscores. -/
def digitGroups? : List Char → Option (List Char)
  | [] => none
  | [c] => if (digitValue? c).isSome then some [c] else none
  | c :: '_' :: rest =>
    if (digitValue? c).isSome then (digitGroups? rest).map (c :: ·) else none
  | c :: rest => if (digitValue? c).isSome then (digitGroups? rest).map (c :: ·) else none

def takeSign : List Char → Bool × List Char
  | '-' :: rest => (true, rest)
  | '+' :: rest => (false, rest)
  | rest => (false, rest)

def digitLimit : Nat := 4300

def overlongMessage (count : Option Nat) : String :=
  "Exceeds the limit (" ++ toString digitLimit ++ " digits) for integer string conversion" ++
    count.elim "" (fun count => ": value has " ++ toString count ++ " digits") ++
    "; use sys.set_int_max_str_digits() to increase the limit"

def readInt? (s : String) : Option Int :=
  let (negative, digits) := takeSign s.toList
  (digitGroups? digits).bind fun ds =>
    if digitLimit < ds.length then none
    else some (if negative then -(natOfDigits ds : Int) else (natOfDigits ds : Int))

end LintRun.Text
