/-!
# UTF-8

`next` takes the first character off a sequence of bytes. Where the bytes are not UTF-8 it takes
off the longest run that some valid sequence starts with, at least one byte, and gives no
character. `decode?` refuses such bytes and `decodeLossy` writes the replacement character for each
of them.
-/

namespace LintRun.Text

abbrev Bytes := List UInt8

namespace Utf8

def payload (b : UInt8) : Nat := b.toNat % 64

/-- The number of bytes after the first byte `b` of a character, with the least and the greatest
second byte; none if no character starts with `b`. -/
def tailShape? (b : UInt8) : Option (Nat × UInt8 × UInt8) :=
  if 0xc2 ≤ b && b ≤ 0xdf then some (1, 0x80, 0xbf)
  else if b == 0xe0 then some (2, 0xa0, 0xbf)
  else if b == 0xed then some (2, 0x80, 0x9f)
  else if 0xe1 ≤ b && b ≤ 0xef then some (2, 0x80, 0xbf)
  else if b == 0xf0 then some (3, 0x90, 0xbf)
  else if 0xf1 ≤ b && b ≤ 0xf3 then some (3, 0x80, 0xbf)
  else if b == 0xf4 then some (3, 0x80, 0x8f)
  else none

/-- Reads `count` more bytes of a character with the value `value` so far. -/
def takeTail (low high : UInt8) : Nat → Nat → Bytes → Option Char × Bytes
  | 0, value, rest => (some (Char.ofNat value), rest)
  | _ + 1, _, [] => (none, [])
  | count + 1, value, b :: rest =>
    if low ≤ b && b ≤ high then takeTail 0x80 0xbf count (64 * value + payload b) rest
    else (none, b :: rest)

def next (b : UInt8) (rest : Bytes) : Option Char × Bytes :=
  if b < 0x80 then (some (Char.ofNat b.toNat), rest)
  else
    match tailShape? b with
    | none => (none, rest)
    | some (count, low, high) =>
      let lead := if count = 1 then 32 else if count = 2 then 16 else 8
      takeTail low high count (b.toNat % lead) rest

theorem takeTail_length_le (low high : UInt8) (count value : Nat) (rest : Bytes) :
    (takeTail low high count value rest).2.length ≤ rest.length := by
  induction count generalizing low high value rest with
  | zero => simp [takeTail]
  | succ count ih =>
    cases rest with
    | nil => simp [takeTail]
    | cons b rest =>
      simp only [takeTail]
      split
      · exact Nat.le_succ_of_le (ih ..)
      · exact Nat.le_refl _

theorem next_length_le (b : UInt8) (rest : Bytes) : (next b rest).2.length ≤ rest.length := by
  unfold next
  split
  · exact Nat.le_refl _
  · split
    · exact Nat.le_refl _
    · exact takeTail_length_le ..

def decodeLossy : Bytes → List Char
  | [] => []
  | b :: rest =>
    have := next_length_le b rest
    (next b rest).1.getD '\ufffd' :: decodeLossy (next b rest).2
termination_by bytes => bytes.length
decreasing_by simp; omega

def decode? : Bytes → Option (List Char)
  | [] => some []
  | b :: rest =>
    have := next_length_le b rest
    match (next b rest).1 with
    | none => none
    | some c => (decode? (next b rest).2).map (c :: ·)
termination_by bytes => bytes.length
decreasing_by simp; omega

def encodeChar (c : Char) : Bytes :=
  let n := c.toNat
  let tail (m : Nat) : UInt8 := UInt8.ofNat (0x80 + m % 64)
  if n < 0x80 then [UInt8.ofNat n]
  else if n < 0x800 then [UInt8.ofNat (0xc0 + n / 64), tail n]
  else if n < 0x10000 then [UInt8.ofNat (0xe0 + n / 4096), tail (n / 64), tail n]
  else [UInt8.ofNat (0xf0 + n / 262144), tail (n / 4096), tail (n / 64), tail n]

def encode (s : String) : Bytes :=
  s.toList.flatMap encodeChar

/-- The number of bytes of a text. -/
def size (s : String) : Nat :=
  (encode s).length

end Utf8

end LintRun.Text
