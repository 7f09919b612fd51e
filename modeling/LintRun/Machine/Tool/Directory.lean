import LintRun.Machine.Source

/-!
# Tools on the file tree

Tools that list, make, move and remove files, and those that take paths apart.
-/

namespace LintRun.Machine.Tool

open Text (Bytes)
open Exec

def shownNames (options : List Char) (entries : List (String × Node)) : List String :=
  let names := entries.map Prod.fst
  let names :=
    if options.contains 'a' then [".", ".."] ++ names
    else if options.contains 'A' then names
    else names.filter fun name => !name.startsWith "."
  names.mergeSort fun a b => decide (a ≤ b)

/-- Lists files first, then directories, each under its name if there are several. -/
def listDirectory (name : String) (arguments : List String) : Exec Nat := do
  let (options, files) := splitOptions arguments
  let options := lettersOf options
  let files := if files.isEmpty then ["."] else files
  let mut code := 0
  let mut plain : List String := []
  let mut directories : List (String × List (String × Node)) := []
  for file in files do
    match ← nodeAt file with
    | .ok (.directory entries) =>
      if options.contains 'd' then plain := plain ++ [file]
      else directories := directories ++ [(file, entries)]
    | .ok _ => plain := plain ++ [file]
    | .error e =>
      complain (name ++ ": cannot access '" ++ file ++ "': " ++ e.text)
      code := 2
  plain := plain.mergeSort fun a b => decide (a ≤ b)
  let parts := (directories.mergeSort fun a b => decide (a.1 ≤ b.1)).map fun (file, entries) =>
    let names := String.join ((shownNames options entries).map (· ++ "\n"))
    if 1 < files.length then file ++ ":\n" ++ names else names
  let listed := String.join (plain.map (· ++ "\n"))
  writeText 1 ("\n".intercalate ((if plain.isEmpty then [] else [listed]) ++ parts))
  return code

def touch (name : String) (arguments : List String) : Exec Nat := do
  let mut code := 0
  for file in (splitOptions arguments).2 do
    match ← nodeAt file with
    | .ok _ => pure ()
    | .error e =>
      let tree ← tree
      match if file == "" then Except.error e else tree.creation file with
      | .ok _ => change (.file (← absolute file) [] false)
      | .error reason =>
        let action := if reason = .isDirectory then "setting times of" else "cannot touch"
        complain (name ++ ": " ++ action ++ " '" ++ file ++ "': " ++ e.text)
        code := 1
  return code

def makeDirectory (name : String) (arguments : List String) : Exec Nat := do
  let mut code := 0
  for file in (splitOptions arguments).2 do
    let path ← absolute file
    let tree ← tree
    let isThere := (tree.locate path .entry).isOk
    let fault := if file == "" then some Errno.noEntry
      else if arguments.contains "-p" then
        if isThere && !((tree.find path).toOption.any Node.isDirectory) then some .exists_ else none
      else if isThere then some .exists_
      else
        match tree.holder path with
        | .ok (parent, _) =>
          if (tree.root.get? parent).any Node.isDirectory then none else some .notDirectory
        | .error e => some e
    match fault with
    | none => change (.directory path)
    | some e =>
      complain (name ++ ": cannot create directory ‘" ++ file ++ "’: " ++ e.text)
      code := 1
  return code

def remove (name : String) (arguments : List String) : Exec Nat := do
  let (options, files) := splitOptions arguments
  let options := lettersOf options
  let deep := options.contains 'r' || options.contains 'R'
  let mut code := 0
  for file in files do
    let path ← absolute file
    let tree ← tree
    let located := if file == "" then .error .noEntry else tree.locate (.followed file) .entry
    match located.map fun names => tree.root.get? names with
    | .ok (some (.directory _)) =>
      if deep then change (.remove path)
      else
        complain (name ++ ": cannot remove '" ++ file ++ "': Is a directory")
        code := 1
    | .ok _ => change (.remove path)
    | .error e =>
      if !options.contains 'f' then
        complain (name ++ ": cannot remove '" ++ file ++ "': " ++ e.text)
        code := 1
  return code

def removeDirectory (name : String) (arguments : List String) : Exec Nat := do
  let mut code := 0
  for file in (splitOptions arguments).2 do
    let path ← absolute file
    let complaint (reason : String) : Exec Unit :=
      complain (name ++ ": failed to remove '" ++ file ++ "': " ++ reason)
    match ← nodeAt file with
    | .ok (.directory []) => change (.remove path)
    | .ok (.directory _) =>
      complaint "Directory not empty"
      code := 1
    | .ok _ =>
      complaint "Not a directory"
      code := 1
    | .error e =>
      complaint e.text
      code := 1
  return code

/-- The last name of a path, without an ending if it has that and more. -/
def baseName (path ending : String) : String :=
  let name := (Path.splitNames path).getLastD (if path.startsWith "/" then "/" else "")
  if name.endsWith ending && name != ending then (name.dropEnd ending.length).toString else name

def directoryName (path : String) : String :=
  let p := Path.ofString path
  { p with names := p.names.dropLast }.text

/-- Whether a file may be executed under a mode, which is octal or says what is added or taken. -/
def executableUnder? (mode : String) (executable : Bool) : Option Bool :=
  match Shell.Integer.digitsIn? 8 mode.toList with
  | some bits => some (bits &&& 73 != 0)
  | none =>
    match mode.toList.dropWhile fun c => !"+-=".toList.contains c with
    | '+' :: rights => some (executable || rights.contains 'x')
    | '-' :: rights => some (executable && !rights.contains 'x')
    | '=' :: rights => some (rights.contains 'x')
    | _ => none

def changeMode (name : String) (arguments : List String) : Exec Nat := do
  let mut code := 0
  for file in arguments.drop 1 do
    match ← nodeAt file with
    | .ok (.file content executable) =>
      match executableUnder? (arguments.headD "") executable with
      | some executable => change (.file (← absolute file) content executable)
      | none =>
        complain (name ++ ": invalid mode: ‘" ++ arguments.headD "" ++ "’\nTry '" ++ name ++
          " --help' for more information.")
        return 1
    | .ok _ => pure ()
    | .error e =>
      complain (name ++ ": cannot access '" ++ file ++ "': " ++ e.text)
      code := 1
  return code

/-- Where a file goes that is copied or moved to a place, into it if that is a directory. -/
def destination (file place : String) : Exec Path := do
  let path ← absolute place
  match ← nodeAt place with
  | .ok (.directory _) =>
    return { path with names := path.names ++ (Path.splitNames file).getLast?.toList }
  | _ => return path

def isNoDirectory (place : String) : Exec Bool := do
  return Path.asksDirectory place && !((← nodeAt place).toOption.any Node.isDirectory)

def copy (name : String) (arguments : List String) : Exec Nat := do
  let (options, operands) := splitOptions arguments
  let deep := ['r', 'R', 'a'].any (lettersOf options).contains
  let mut code := 0
  for file in operands.dropLast do
    match ← nodeAt file with
    | .error e =>
      complain (name ++ ": cannot stat '" ++ file ++ "': " ++ e.text)
      code := 1
    | .ok node =>
      if node.isDirectory && !deep then
        complain (name ++ ": -r not specified; omitting directory '" ++ file ++ "'")
        code := 1
      else
        let place := operands.getLastD ""
        if !node.isDirectory && (← isNoDirectory place) then
          complain (name ++ ": cannot create regular file '" ++ place ++ "': Not a directory")
          code := 1
        else (node.changesAt (← destination file place)).forM change
  return code

def move (name : String) (arguments : List String) : Exec Nat := do
  let (_, operands) := splitOptions arguments
  let mut code := 0
  for file in operands.dropLast do
    let tree ← tree
    let located := if file == "" then .error .noEntry else tree.locate (.followed file) .entry
    match located.map fun names => tree.root.get? names with
    | .ok (some node) =>
      let place := operands.getLastD ""
      if !node.isDirectory && (← isNoDirectory place) then
        complain (name ++ ": cannot move '" ++ file ++ "' to '" ++ place ++ "': Not a directory")
        code := 1
      else
        let place ← destination file place
        change (.remove place)
        (node.changesAt place).forM change
        change (.remove (← absolute file))
    | .ok none => pure ()
    | .error e =>
      complain (name ++ ": cannot stat '" ++ file ++ "': " ++ e.text)
      code := 1
  return code

def makeLink (name : String) (arguments : List String) : Exec Nat := do
  let (options, operands) := splitOptions arguments
  let letters := lettersOf options
  let target := operands.headD ""
  let place := operands.getLastD ""
  let path ← destination target place
  if letters.contains 'f' then change (.remove path)
  match (← tree).locate path .entry with
  | .ok _ =>
    complain (name ++ ": failed to create symbolic link '" ++ place ++ "': File exists")
    return 1
  | .error _ =>
    if letters.contains 's' then
      if target == "" then
        complain (name ++ ": failed to create symbolic link '" ++ place ++ "' -> '': " ++
          Errno.noEntry.text)
        return 1
      change (.link path target)
    else
      match ← nodeAt target with
      | .ok node => (node.changesAt path).forM change
      | .error e =>
        complain (name ++ ": failed to access '" ++ target ++ "': " ++ e.text)
        return 1
    return 0

end LintRun.Machine.Tool
