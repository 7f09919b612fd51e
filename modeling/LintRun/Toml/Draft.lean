import LintRun.Value

/-!
# A configuration document under construction

A draft holds the entries read so far and remembers which of its tables are complete: those written
within a value are frozen with all below them, and those opened by a header or by a dotted key may
not be opened again.
-/

namespace LintRun.Toml

abbrev Key := List String

def replaceEntry (entries : Table) (name : String) (value : Value) : Table :=
  entries.map fun (key, old) => if key = name then (key, value) else (key, old)

/-- Applies `f` to the table behind `key`, with empty tables where there is none yet. Behind an
array of tables lies its last table if `throughArrays`. -/
def updateTable? (throughArrays : Bool) (entries : Table) (f : Table → Option Table) :
    Key → Option Table
  | [] => f entries
  | name :: rest =>
    match entries.lookup name with
    | none =>
      (updateTable? throughArrays [] f rest).map fun inner => entries ++ [(name, .table inner)]
    | some (.table inner) =>
      (updateTable? throughArrays inner f rest).map fun inner =>
        replaceEntry entries name (.table inner)
    | some (.list items) =>
      match throughArrays, items.getLast? with
      | true, some (.table inner) =>
        (updateTable? throughArrays inner f rest).map fun inner =>
          replaceEntry entries name (.list (items.dropLast ++ [.table inner]))
      | _, _ => none
    | some _ => none

def addValue? (name : String) (value : Value) (entries : Table) : Option Table :=
  if (entries.lookup name).isSome then none else some (entries ++ [(name, value)])

def addToArray? (name : String) (entries : Table) : Option Table :=
  match entries.lookup name with
  | none => some (entries ++ [(name, .list [.table []])])
  | some (.list items) => some (replaceEntry entries name (.list (items ++ [.table []])))
  | some _ => none

structure Draft where
  entries : Table := []
  frozen : List Key := []
  opened : List Key := []
  /-- Tables that dotted keys opened since the last header. -/
  pending : List Key := []
  header : Key := []

namespace Draft

def isFrozen (draft : Draft) (key : Key) : Bool :=
  draft.frozen.any (·.isPrefixOf key)

/-- What dotted keys opened stays opened from the next header on. -/
def endSection (draft : Draft) : Draft :=
  { draft with opened := draft.pending ++ draft.opened, pending := [] }

def openTable? (draft : Draft) (key : Key) : Option Draft :=
  let draft := draft.endSection
  if draft.opened.contains key || draft.isFrozen key then none
  else
    (updateTable? true draft.entries some key).map fun entries =>
      { draft with entries, opened := key :: draft.opened, header := key }

/-- A new table of an array; what was known of the table before it is forgotten. -/
def openArrayTable? (draft : Draft) (key : Key) : Option Draft :=
  let draft := draft.endSection
  if draft.isFrozen key then none
  else
    let others := fun known : Key => !key.isPrefixOf known
    let add := addToArray? (key.getLastD "")
    (updateTable? true draft.entries add key.dropLast).map fun entries =>
      { draft with
        entries
        frozen := draft.frozen.filter others
        opened := key :: draft.opened.filter others
        header := key }

def isNested : Value → Bool
  | .list _ | .table _ => true
  | _ => false

/-- The keys of the tables that a dotted key passes through, below the header. -/
def passed (header key : Key) : List Key :=
  (List.range (key.length - 1)).map fun i => header ++ key.take (i + 1)

def add? (draft : Draft) (key : Key) (value : Value) : Option Draft :=
  let through := passed draft.header key
  let parent := draft.header ++ key.dropLast
  if through.any draft.opened.contains || draft.isFrozen parent then none
  else
    (updateTable? true draft.entries (addValue? (key.getLastD "") value) parent).map fun entries =>
      { draft with
        entries
        pending := through ++ draft.pending
        frozen := if isNested value then (draft.header ++ key) :: draft.frozen else draft.frozen }

end Draft

end LintRun.Toml
