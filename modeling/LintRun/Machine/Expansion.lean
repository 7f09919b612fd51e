import LintRun.Machine.Session
import LintRun.Shell.Pattern

/-!
# Fields

What the expansions of a word gave becomes fields: values outside quotes are split at blanks, and a
field with a pattern stands for the files that match it, if there are any.
-/

namespace LintRun.Machine

open Shell (Word)

/-- A part of a word after its expansions. -/
inductive Fragment
  | text (cs : List Char) (kept : Bool)
  /-- A value that is split at blanks. -/
  | value (cs : List Char)
  /-- The end of a field. -/
  | boundary

namespace Fragment

def isBlank (c : Char) : Bool :=
  c == ' ' || c == '\t' || c == '\n'

def blanks : List Char := [' ', '\t', '\n']

/-- Fields that are complete, and the one at which things stand; both are kept backwards. -/
structure Fields where
  complete : List Word := []
  current : Option Word := none
  /-- Whether a blank has just ended a field: a separator that follows belongs to the same end. -/
  afterBlank : Bool := false

def Fields.close (fields : Fields) : Fields :=
  { complete := (fields.current.map List.reverse).toList ++ fields.complete }

def Fields.add (fields : Fields) (kept : Bool) (cs : List Char) : Fields :=
  { complete := fields.complete
    current := some (cs.foldl (fun word c => ⟨c, kept⟩ :: word) (fields.current.getD [])) }

/-- Goes on with a character of a value. A separator that is no blank ends a field even if nothing
is in it. -/
def Fields.step (separators : List Char) (fields : Fields) (c : Char) : Fields :=
  if !separators.contains c then fields.add false [c]
  else if isBlank c then
    { fields.close with afterBlank := fields.current.isSome || fields.afterBlank }
  else if fields.afterBlank then { fields with afterBlank := false }
  else (fields.add false []).close

def Fields.push (separators : List Char) (fields : Fields) : Fragment → Fields
  | .text cs kept => fields.add kept cs
  | .value cs => cs.foldl (Fields.step separators) fields
  | .boundary => fields.close

def fields (separators : List Char) (fragments : List Fragment) : List Word :=
  ((fragments.foldl (Fields.push separators) {}).close).complete.reverse

def asValue : Fragment → Fragment
  | .text cs false => .value cs
  | fragment => fragment

def word (fragments : List Fragment) : Word :=
  fragments.flatMap fun fragment =>
    match fragment with
    | .text cs kept => cs.map (⟨·, kept⟩)
    | .value cs => cs.map (⟨·, false⟩)
    | .boundary => [⟨' ', true⟩]

end Fragment

def components (pattern : Word) : List Word :=
  pattern.splitBy (fun a b => a.char != '/' && b.char != '/')

/-- The names in a directory that match a part of a pattern. Hidden names are matched only by a
pattern that starts with a dot. -/
def matchingNames (tree : Tree) (directory : String) (part : Word) : List String :=
  match tree.list (.ofString (if directory == "" then "." else directory)) with
  | .error _ => []
  | .ok entries =>
    let hidden := part.head?.any fun marked => marked.char == '.'
    ((entries.map Entry.name).filter fun name =>
      Shell.Pattern.isMatch part name.toList && (hidden || !name.startsWith ".")).mergeSort
        fun a b => decide (a ≤ b)

def matchingPaths (tree : Tree) (pattern : Word) : List String :=
  (components pattern).foldl
    (fun paths part => paths.flatMap fun path =>
      if Shell.Pattern.isActive part then (matchingNames tree path part).map (path ++ ·)
      else
        let path := path ++ part.text
        if (tree.locate (.followed path) .entry).isOk then [path] else [])
    [""]

/-- The texts that a field stands for, its own if `plain` tells that patterns are of no account. -/
def fieldTexts (plain : Bool) (tree : Tree) (field : Word) : List String :=
  if !plain && Shell.Pattern.isActive field then
    match matchingPaths tree field with
    | [] => [field.text]
    | paths => paths
  else [field.text]

end LintRun.Machine
