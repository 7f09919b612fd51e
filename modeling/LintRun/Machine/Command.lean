import LintRun.Machine.Program
import LintRun.Machine.Redirection
import LintRun.Machine.Signal
import LintRun.Machine.Tool
import LintRun.Machine.Variable

/-!
# Commands of the shell

Commands that the shell runs itself and that need nothing but their arguments, and the ways in which
a name leads to a command.
-/

namespace LintRun.Machine

namespace Exec

def ownCommands : List String := [
  "[", "alias", "cd", "chdir", "command", "echo", "false", "getopts", "hash", "jobs", "kill",
  "printf", "pwd", "read", "test", "true", "type", "ulimit", "umask", "unalias", "wait"]

def isOwn (name : String) : Bool :=
  Shell.specialCommands.contains name || ownCommands.contains name

def searchPath : Exec (List String) :=
  return ((← valueOf? "PATH").getD "").splitOn ":"

/-- The same for a tool, which looks in the usual places if it is told of none. -/
def toolPath : Exec (List String) :=
  return ((← valueOf? "PATH").getD "/bin:/usr/bin").splitOn ":"

def programFile? (name : String) : Exec (Option String) := do
  let tree ← tree
  return ((← searchPath).map fun directory => Image.fileIn directory name).find? fun file =>
    match tree.find (.followed file) with
    | .ok (.file _ executable) => executable
    | _ => false

inductive Meaning
  | keyword
  | function
  | special
  | own
  | file (path : String)
  | nothing

def meaning (name : String) : Exec Meaning := do
  if Shell.reservedWords.contains name then return .keyword
  else if ((← process).functions.lookup name).isSome then return .function
  else if Shell.specialCommands.contains name then return .special
  else if ownCommands.contains name then return .own
  else if name.contains '/' then
    return if ((← nodeAt name).isOk) then .file name else .nothing
  else return ((← programFile? name).elim .nothing .file)

def describe (name : String) : Exec Nat := do
  let meaning ← meaning name
  let text := match meaning with
    | .keyword => " is a shell keyword"
    | .function => " is a shell function"
    | .special => " is a special shell builtin"
    | .own => " is a shell builtin"
    | .file path => " is " ++ path
    | .nothing => ": not found"
  writeText 1 (name ++ text ++ "\n")
  return match meaning with
    | .nothing => 127
    | _ => 0

def describeAll (names : List String) : Exec Nat := do
  let mut code := 0
  for name in names do
    let found ← describe name
    if found != 0 then code := found
  return code

def locate (name : String) : Exec Nat := do
  match ← meaning name with
  | .file path =>
    writeText 1 (path ++ "\n")
    return 0
  | .nothing => return 127
  | _ =>
    writeText 1 (name ++ "\n")
    return 0

def remember (names : List String) : Exec Nat := do
  let mut code := 0
  for name in names do
    if let .nothing ← meaning name then
      report (name ++ ": not found")
      code := 1
  return code

def isDirectory (path : Path) : Exec Bool := do
  match (← tree).find path with
  | .ok (.directory _) => return true
  | _ => return false

def isAnchored (path : String) : Bool :=
  ["", ".", ".."].contains ((path.splitOn "/").headD "")

/-- The directory that a path leads to, in `CDPATH` if it is there, and whether that is news. -/
def directoryAt (target : String) : Exec (Path × Bool) := do
  if let some directories := (← valueOf? "CDPATH") then
    if !isAnchored target then
      for directory in directories.splitOn ":" do
        let path := (← absolute (Image.fileIn directory target)).normalize
        if ← isDirectory path then return (path, directory != "")
  return ((← absolute target).normalize, false)

def changeDirectory (arguments : List String) : Exec Nat := do
  let (options, arguments) ← withoutOptions ['L', 'P'] arguments
  let home ← valueOf? "HOME"
  let before ← valueOf? "OLDPWD"
  let isBack := arguments.head? == some "-"
  let target := (if isBack then before else arguments.head?.or home).getD ""
  let target := if target == "" then "." else target
  let (path, isNews) ← directoryAt target
  if !(← isDirectory path) then blame ("can't cd to " ++ target)
  let path ← if options.getLast? = some 'P' then ownPlace path else pure path
  putVariable "OLDPWD" (← process).directory.text
  export_ "OLDPWD"
  modifyProcess fun p => { p with directory := path }
  putVariable "PWD" path.text
  if isBack || isNews then writeText 1 (path.text ++ "\n")
  return 0

def countArgument (usual least : Nat) : List String → Exec Nat
  | [] => return usual
  | argument :: _ =>
    match Shell.Integer.start? (some 10) argument.toList with
    | some (n, rest) =>
      if rest.all Shell.Integer.isGap && least ≤ n && n < Int.pow 2 31 then return n.toNat
      else blame ("Illegal number: " ++ argument)
    | none => blame ("Illegal number: " ++ argument)

def rightsText (mask : Nat) : String :=
  (if mask &&& 4 = 0 then "r" else "") ++ (if mask &&& 2 = 0 then "w" else "") ++
    (if mask &&& 1 = 0 then "x" else "")

def changeMask (arguments : List String) : Exec Nat := do
  let (options, arguments) ← withoutOptions ['S'] arguments
  let mask := (← process).mask
  match arguments with
  | [] =>
    if options.contains 'S' then
      writeText 1 ("u=" ++ rightsText (mask / 64) ++ ",g=" ++ rightsText (mask / 8 % 8) ++ ",o=" ++
        rightsText (mask % 8) ++ "\n")
    else
      let digits := Nat.toDigits 8 mask
      writeText 1 (String.ofList (List.replicate (4 - digits.length) '0' ++ digits) ++ "\n")
  | text :: _ =>
    match Shell.Integer.digitsIn? 8 text.toList with
    | some mask => modifyProcess fun p => { p with mask := mask % 512 }
    | none =>
      blame ((if (text.toList.head?.map Char.isDigit).getD false then "Illegal number: "
        else "Illegal mode: ") ++ text)
  return 0

def listTraps : Exec Unit := do
  let traps := (← process).traps.mergeSort fun a b => a.1 ≤ b.1
  writeText 1 (String.join (traps.map fun (signal, action) =>
    "trap -- " ++ quoted action ++ " " ++ signalName signal ++ "\n"))

/-- Says what to do on signals. A single argument, a dash or a number in front of signals takes that
back. -/
def setTraps (arguments : List String) : Exec Nat := do
  let (_, arguments) ← withoutOptions [] arguments
  let takesBack (argument : String) : Bool :=
    argument == "-" || (Shell.Integer.natural? argument).isSome
  match arguments with
  | [] =>
    listTraps
    return 0
  | action :: rest =>
    let (action, names) :=
      if rest.isEmpty then (none, arguments)
      else if takesBack action then (none, if action == "-" then rest else arguments)
      else (some action, rest)
    let mut code := 0
    for name in names do
      match signal? name with
      | some signal =>
        modifyProcess fun p => { p with
          traps := (action.map fun action => (signal, action)).toList ++
            p.traps.filter fun entry => entry.1 != signal }
      | none =>
        complain ("trap: " ++ name ++ ": bad trap")
        code := 1
    return code

def listSignals (codes : List String) : Exec Nat := do
  match codes with
  | [] =>
    let names := (List.range 64).map fun n => signalName (n + 1)
    writeText 1 (String.join ("0" :: names |>.map (· ++ "\n")))
    return 0
  | code :: _ =>
    match Shell.Integer.natural? code with
    | some n =>
      let signal := if 128 < n then n - 128 else n
      if signal = 0 || 64 < signal then blame ("invalid signal number or exit status: " ++ code)
      writeText 1 (signalName signal ++ "\n")
      return 0
    | none => blame ("Illegal number: " ++ code)

/-- Adds what the shell says of a program that cannot be started, and gives the exit code. -/
def startFailure (name : String) (e : Errno) : Exec Nat := do
  let isMissing := e = .noEntry || e = .notDirectory
  report (name ++ ": " ++ if isMissing then "not found" else e.text)
  return if isMissing || name == "" then 127 else 126

def underName {α : Type} (name : Option String) (body : Exec α) : Exec α := do
  let before := (← process).command
  let restoreName := modifyProcess fun p => { p with command := before }
  modifyProcess fun p => { p with command := name }
  try
    let result ← body
    restoreName
    return result
  catch stop =>
    restoreName
    throw stop

def survive (body : Exec Nat) : Exec Nat := do
  try body catch stop =>
    match stop with
    | .fault => return 2
    | stop => throw stop

/-- Runs a command of the shell. A fault in one that is special ends the script. -/
def asCommand (name : String) (body : Exec Nat) : Exec Nat :=
  underName (some name)
    (if Shell.specialCommands.contains name then body else survive body)

def returning (body : Exec Nat) : Exec Nat := do
  try body catch stop =>
    match stop with
    | .leaveFunction code => return code
    | stop => throw stop

mutual

/-- What is run of a command that may have `command` in front of it: the command without that,
unless that asks for something else. -/
def underlying : List String → List String
  | "command" :: rest => (operands? rest).getD ("command" :: rest)
  | fields => fields

/-- The command after the options of a `command`, if they ask for nothing else. -/
def operands? : List String → Option (List String)
  | [] | ["--"] => none
  | "--" :: name :: rest => some (underlying (name :: rest))
  | argument :: rest =>
    match argument.toList with
    | '-' :: 'p' :: letters => if letters.all (· == 'p') then operands? rest else none
    | '-' :: _ :: _ => none
    | _ => some (underlying (argument :: rest))

end

def plainCommand (fields : List String) : Bool × List String :=
  let named := underlying fields
  (named.length != fields.length, named)

/-- The assignments of the variables that a program gets. Those whose names are no names of
variables are not among them. -/
def imported (environment : Environment) : Environment :=
  environment.filter fun (name, _) => Shell.isName name.toList

def shellVariables (path : String) : Environment := [
  ("IFS", String.ofList Fragment.blanks), ("PATH", path), ("PS1", "# "), ("PS2", "> "),
  ("PS4", "+ "), ("OPTIND", "1")]

def defaultPath : String := "/usr/local/sbin:/usr/local/bin:/usr/sbin:/usr/bin:/sbin:/bin"

def becomeShell (name : String) : Exec Unit := do
  let given := imported (← environment)
  let own := shellVariables ((given.lookup "PATH").getD defaultPath)
  let others := given.filter fun entry => (own.lookup entry.1).isNone
  let path := if (given.lookup "PATH").isSome then ["PATH"] else []
  modifyProcess fun p => { p with
    name
    arguments := []
    calledNumber := p.number
    values := own ++ others
    exported := "PWD" :: path ++ others.map Prod.fst
    readOnly := [], kept := [], functions := [], status := 0, options := [], jobs := []
    loops := 0, line := 0, command := none }
  putVariable "PWD" (← process).directory.text

/-- The place of a name in a table with 39 places, in whose order the shell hands variables over. -/
def tablePlace (name : String) : Nat :=
  let bytes := (Text.Utf8.encode name).map UInt8.toNat
  (bytes.headD 0 * 16 + bytes.foldl (· + ·) 0) % 39

def orderVariables : Exec Unit :=
  modifyProcess fun p => { p with
    values := p.values.mergeSort fun a b => tablePlace a.1 ≤ tablePlace b.1 }

/-- Shows a command before it is run, on the diagnostics as they were before its redirections. -/
def trace (descriptors : List (Nat × Descriptor)) (given : List (String × String))
    (fields : List String) : Exec Unit := do
  if ← isOn 'x' then
    let words := given.map (fun (name, value) => name ++ "=" ++ value) ++ fields
    let line := ((← valueOf? "PS4").getD "") ++ " ".intercalate words ++ "\n"
    if let some (.output output) := descriptors.lookup 2 then
      modifyWorld fun w => w.write (Text.Utf8.encode line) output

end Exec

end LintRun.Machine
