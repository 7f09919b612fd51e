import LintRun.Toml.Draft
import LintRun.Toml.Scalar

/-!
# Configuration documents

A document is a sequence of statements, one to a line: an entry, the header of a table, the header
of a further table in an array, or nothing, each with a comment after it. `parse?` gives the table
that the document describes, or nothing if it is malformed.
-/

namespace LintRun.Toml

/-- The entries of a table written within a value, and which of them are frozen. -/
structure InlineTable where
  entries : Table := []
  frozen : List Key := []

def InlineTable.add? (table : InlineTable) (key : Key) (value : Value) : Option InlineTable :=
  if table.frozen.any (·.isPrefixOf key) then none
  else
    (updateTable? false table.entries (addValue? (key.getLastD "") value) key.dropLast).map
      fun entries =>
        { entries, frozen := if Draft.isNested value then key :: table.frozen else table.frozen }

mutual
def value? : Nat → Reader Value
  | 0, _ => none
  | fuel + 1, '[' :: rest =>
    (skipBlank? rest.length rest).bind fun rest =>
      match rest with
      | ']' :: rest => some (.list [], rest)
      | rest => (items? fuel rest).map fun (items, rest) => (.list items, rest)
  | fuel + 1, '\x7b' :: rest =>
    match skipSpace rest with
    | '\x7d' :: rest => some (.table [], rest)
    | rest => (inlineEntries? fuel {} rest).map fun (entries, rest) => (.table entries, rest)
  | _ + 1, cs => scalar? cs

def items? : Nat → Reader (List Value)
  | 0, _ => none
  | fuel + 1, cs =>
    (value? fuel cs).bind fun (value, rest) =>
      (skipBlank? rest.length rest).bind fun rest =>
        match rest with
        | ']' :: rest => some ([value], rest)
        | ',' :: rest =>
          (skipBlank? rest.length rest).bind fun rest =>
            match rest with
            | ']' :: rest => some ([value], rest)
            | rest => (items? fuel rest).map fun (values, rest) => (value :: values, rest)
        | _ => none

/-- The entries of a table within a value up to its end, all on one line. -/
def inlineEntries? : Nat → InlineTable → Reader Table
  | 0, _, _ => none
  | fuel + 1, table, cs =>
    (pair? fuel cs).bind fun ((key, value), rest) =>
      (table.add? key value).bind fun table =>
        match skipSpace rest with
        | '\x7d' :: rest => some (table.entries, rest)
        | ',' :: rest => inlineEntries? fuel table (skipSpace rest)
        | _ => none

def pair? : Nat → Reader (Key × Value)
  | 0, _ => none
  | fuel + 1, cs =>
    (key? cs.length cs).bind fun (key, rest) =>
      match rest with
      | '=' :: rest =>
        (value? fuel (skipSpace rest)).map fun (value, rest) => ((key, value), rest)
      | _ => none
end

/-- Nesting costs at most three calls for a character. -/
def pairOf? (cs : List Char) : Option ((Key × Value) × List Char) :=
  pair? (3 * cs.length + 3) cs

def header? (closing : List Char) : Reader Key := fun cs =>
  (key? cs.length (skipSpace cs)).bind fun (key, rest) =>
    if closing.isPrefixOf rest then some (key, rest.drop closing.length) else none

def statement? (draft : Draft) (cs : List Char) : Option (Draft × List Char) :=
  match cs with
  | [] => some (draft, [])
  | '\n' :: _ | '#' :: _ => some (draft, cs)
  | '[' :: '[' :: rest =>
    (header? [']', ']'] rest).bind fun (key, rest) =>
      (draft.openArrayTable? key).map fun draft => (draft, rest)
  | '[' :: rest =>
    (header? [']'] rest).bind fun (key, rest) =>
      (draft.openTable? key).map fun draft => (draft, rest)
  | _ =>
    (pairOf? cs).bind fun ((key, value), rest) =>
      (draft.add? key value).map fun draft => (draft, rest)

def statements? : Nat → Draft → List Char → Option Draft
  | 0, _, _ => none
  | fuel + 1, draft, cs =>
    (statement? draft (skipSpace cs)).bind fun (draft, rest) =>
      (skipComment? (skipSpace rest)).bind fun rest =>
        match rest with
        | [] => some draft
        | '\n' :: rest => statements? fuel draft rest
        | _ => none

/-- The table that a document describes. Line breaks are single newlines. -/
def parse? (document : List Char) : Option Table :=
  (statements? (document.length + 1) {} document).map (·.entries)

end LintRun.Toml
