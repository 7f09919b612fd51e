import LintRun.Machine.Source

/-!
# Translations of bytes

What `tr` does to the bytes that it reads.
-/

namespace LintRun.Machine.Tool

open Text (Bytes)
open Exec

def bytesFrom (low high : Nat) : List UInt8 :=
  (List.range' low (high + 1 - low)).map UInt8.ofNat

def classBytes? (name : String) : Option (List UInt8) :=
  let digits := bytesFrom 48 57
  let upper := bytesFrom 65 90
  let lower := bytesFrom 97 122
  match name with
  | "lower" => some lower
  | "upper" => some upper
  | "digit" => some digits
  | "alpha" => some (upper ++ lower)
  | "alnum" => some (digits ++ upper ++ lower)
  | "space" => some (bytesFrom 9 13 ++ [32])
  | "blank" => some [9, 32]
  | "xdigit" => some (digits ++ bytesFrom 65 70 ++ bytesFrom 97 102)
  | "punct" => some (bytesFrom 33 47 ++ bytesFrom 58 64 ++ bytesFrom 91 96 ++ bytesFrom 123 126)
  | "cntrl" => some (bytesFrom 0 31 ++ [127])
  | "print" => some (bytesFrom 32 126)
  | "graph" => some (bytesFrom 33 126)
  | _ => none

/-- The class that a set starts with, and what follows it. -/
def class? : List Char → Option (List UInt8 × List Char)
  | '[' :: ':' :: rest =>
    let name := rest.takeWhile Char.isAlpha
    match rest.drop name.length with
    | ':' :: ']' :: rest => (classBytes? (String.ofList name)).map fun bytes => (bytes, rest)
    | _ => none
  | _ => none

def byteSet : Nat → List Char → List UInt8
  | 0, _ | _, [] => []
  | fuel + 1, cs =>
    let byte (cs : List Char) : List UInt8 × List Char :=
      match cs with
      | '\\' :: rest =>
        let (byte, rest) := Shell.Format.escape rest
        ([byte], rest)
      | c :: rest => (Text.Utf8.encodeChar c, rest)
      | [] => ([], [])
    match class? cs with
    | some (bytes, rest) => bytes ++ byteSet fuel rest
    | none =>
      let (low, rest) := byte cs
      match low, rest with
      | [low], '-' :: c :: more =>
        let (high, rest) := byte (c :: more)
        bytesFrom low.toNat (high.headD low).toNat ++ byteSet fuel rest
      | low, rest => low ++ byteSet fuel rest

def setOf (text : String) : List UInt8 :=
  byteSet text.length text.toList

/-- Leaves one of several equal bytes of a set in a row, if none comes before the first. -/
def squeeze (set : List UInt8) : Option UInt8 → Bytes → Bytes
  | _, [] => []
  | last, b :: rest =>
    if last == some b && set.contains b then squeeze set last rest
    else b :: squeeze set (some b) rest

/-- What `tr` does: the bytes that it deletes, those that stand for others, and those of which it
leaves one of several in a row. -/
structure Translation where
  deleted : List UInt8 := []
  pairs : List (UInt8 × UInt8) := []
  squeezed : List UInt8 := []

def Translation.apply (translation : Translation) (bytes : Bytes) : Bytes :=
  squeeze translation.squeezed none
    ((bytes.filter fun b => !translation.deleted.contains b).map fun b =>
      (translation.pairs.lookup b).getD b)

inductive TranslationFault
  | noSets
  /-- A second set is needed for what the text tells. -/
  | oneSet (set purpose : String)
  /-- A set too many; the text tells why, if there are only two. -/
  | extraSet (set : String) (reason : Option String)
  | emptyTarget

def TranslationFault.lines : TranslationFault → List String
  | .noSets => ["missing operand"]
  | .oneSet set purpose =>
    ["missing operand after ‘" ++ set ++ "’", "Two strings must be given when " ++ purpose ++ "."]
  | .extraSet set reason => ("extra operand ‘" ++ set ++ "’") :: reason.toList
  | .emptyTarget => ["when not truncating set1, string2 must be non-empty"]

def Translation.ofArguments (letters : List Char) (sets : List String) :
    Except TranslationFault Translation :=
  let deletes := letters.contains 'd'
  let squeezes := letters.contains 's'
  let first (text : String) : List UInt8 :=
    let set := setOf text
    if letters.any "cC".toList.contains then (bytesFrom 0 255).filter (!set.contains ·) else set
  match sets, deletes, squeezes with
  | [], _, _ => .error .noSets
  | [source], true, false => .ok { deleted := first source }
  | [source], false, true => .ok { squeezed := first source }
  | [source], true, true => .error (.oneSet source "both deleting and squeezing repeats")
  | [source], false, false => .error (.oneSet source "translating")
  | _ :: extra :: rest, true, false =>
    .error (.extraSet extra (if rest.isEmpty then
        some "Only one string may be given when deleting without squeezing repeats."
      else none))
  | [source, target], true, true => .ok { deleted := first source, squeezed := setOf target }
  | [_, ""], false, _ => .error .emptyTarget
  | [source, target], false, _ =>
    let target := setOf target
    let pairs := (first source).zipIdx.map fun (b, i) => (b, target[i]?.getD (target.getLastD b))
    .ok { pairs := pairs.reverse, squeezed := if squeezes then target else [] }
  | _ :: _ :: extra :: _, _, _ => .error (.extraSet extra none)

def translate (name : String) (arguments : List String) : Exec Nat := do
  let options := arguments.takeWhile fun argument => isOption argument && argument != "--"
  let sets := arguments.drop options.length
  let sets := if sets.head? == some "--" then sets.drop 1 else sets
  let letters := lettersOf options
  if let some letter := letters.find? fun c => !"cCdst".toList.contains c then
    return ← refuseOption name (String.ofList ['-', letter])
  match Translation.ofArguments letters sets with
  | .ok translation =>
    passOn translation.apply 0
    return 0
  | .error fault =>
    let hint := match fault with
      | .emptyTarget => []
      | _ => ["Try '" ++ name ++ " --help' for more information."]
    complain (name ++ ": " ++ "\n".intercalate (fault.lines ++ hint))
    return 1

end LintRun.Machine.Tool
