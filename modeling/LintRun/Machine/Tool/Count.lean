import LintRun.Machine.Source
import LintRun.Machine.Tool.Line

/-!
# Counts

What `wc` counts: lines, words and bytes.
-/

namespace LintRun.Machine.Tool

open Text (Bytes)
open Exec

def wordCount (bytes : Bytes) : Nat :=
  let isGap (b : UInt8) : Bool := b == 32 || (9 ≤ b && b ≤ 13)
  ((bytes.splitBy fun a b => isGap a == isGap b).filter fun run =>
    run.head?.any fun b => !isGap b).length

def countsOf (wanted : Char → Bool) (bytes : Bytes) : List Nat :=
  (if wanted 'l' then [bytes.count 10] else []) ++ (if wanted 'w' then [wordCount bytes] else []) ++
    (if wanted 'c' then [bytes.length] else [])

/-- How wide counts are shown of inputs of which the sizes are known where they are files. -/
def countWidth (sizes : List (Option Nat)) : Nat :=
  let total := (sizes.filterMap id).foldl (· + ·) 0
  max (toString total).length (if sizes.all Option.isSome then 1 else 7)

def count (name : String) (arguments : List String) : Exec Nat := do
  let (options, files) := splitOptions arguments
  let letters := lettersOf options
  if let some option := options.find? fun option =>
    (option.toList.drop 1).any fun c => !"lwc".toList.contains c then
      return ← refuseOption name option
  let wanted (c : Char) : Bool := letters.isEmpty || letters.contains c
  let mut code := 0
  let mut contents : List (String × Bytes) := []
  let mut sizes : List (Option Nat) := []
  for file in if files.isEmpty then ["-"] else files do
    match ← source name plainFault file with
    | none => code := 1
    | some descriptor =>
      sizes := sizes ++ [(← input descriptor).bind fun (_, input) => input.size]
      contents := contents ++ [(file, ← readAll descriptor)]
  let width := if files.length ≤ 1 && (countsOf wanted []).length = 1 then 1 else countWidth sizes
  let line (label : Option String) (counts : List Nat) : Exec Unit :=
    writeText 1 (" ".intercalate (counts.map (fun n => padStart width (toString n)) ++
      label.toList) ++ "\n")
  for (file, bytes) in contents do
    line (if files.isEmpty then none else some file) (countsOf wanted bytes)
  if 1 < files.length then
    let totals := (contents.map fun (_, bytes) => countsOf wanted bytes).foldl
      (fun totals counts => if totals.isEmpty then counts else totals.zipWith (· + ·) counts) []
    line (some "total") totals
  return code

end LintRun.Machine.Tool
