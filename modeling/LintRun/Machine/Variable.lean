import LintRun.Machine.Setting
import LintRun.Machine.Parameter
import LintRun.Shell.Grammar

/-!
# Commands on variables

The commands of the shell that give, take, mark and show variables, and those that read a line or
the next option into one.
-/

namespace LintRun.Machine

namespace Exec

def assignment? (text : String) : Option (String × String) :=
  (Shell.Reader.assigned? text.toList).map fun name =>
    (name, String.ofList (text.toList.drop (name.length + 1)))

def environmentEntry? (text : String) : Option (String × String) :=
  let name := text.toList.takeWhile (· != '=')
  if name.length < text.length then
    some (String.ofList name, String.ofList (text.toList.drop (name.length + 1)))
  else none

def namedValue (argument : String) : Exec (String × Option String) := do
  match assignment? argument with
  | some (name, value) => return (name, some value)
  | none =>
    if Shell.isName argument.toList then return (argument, none)
    else
      let name := argument.toList.takeWhile (· != '=')
      blame (String.ofList name ++ ": bad variable name")

def requireName (name : String) : Exec Unit := do
  if !Shell.isName name.toList then blame (name ++ ": bad variable name")

/-- A text in single quotes, but for the single quotes in it, which stand in double quotes. -/
def quoted (text : String) : String :=
  let runs := text.toList.splitBy fun a b => (a == '\'') == (b == '\'')
  let written := runs.flatMap fun run =>
    if run.head? == some '\'' then '"' :: run ++ ['"'] else '\'' :: run ++ ['\'']
  String.ofList ((if text == "" || text.startsWith "'" then ['\'', '\''] else []) ++ written)

def listVariables (command : String) (names : List String) : Exec Unit := do
  let values := (← process).values
  let lines := (names.mergeSort fun a b => decide (a ≤ b)).map fun name =>
    let value := (values.lookup name).elim "" fun value => "=" ++ quoted value
    command ++ " " ++ name ++ value ++ "\n"
  writeText 1 (String.join lines)

def withoutOptions (known : List Char) : List String → Exec (List Char × List String)
  | [] => return ([], [])
  | argument :: rest => do
    match argument.toList with
    | ['-'] => return ([], argument :: rest)
    | ['-', '-'] => return ([], rest)
    | '-' :: letters =>
      match letters.find? fun letter => !known.contains letter with
      | some letter => blame ("Illegal option -" ++ letter.toString)
      | none =>
        let (more, rest) ← withoutOptions known rest
        return (letters ++ more, rest)
    | _ => return ([], argument :: rest)

def exportAll (arguments : List String) : Exec Unit := do
  let (options, arguments) ← withoutOptions ['p'] arguments
  if options.contains 'p' || arguments.isEmpty then
    listVariables "export" (← process).exported
  else
    for argument in arguments do
      let (name, value) ← namedValue argument
      if let some value := value then setVariable name value
      export_ name

def markReadOnly (arguments : List String) : Exec Unit := do
  let (options, arguments) ← withoutOptions ['p'] arguments
  if options.contains 'p' || arguments.isEmpty then
    listVariables "readonly" (← process).readOnly
  else
    for argument in arguments do
      let (name, value) ← namedValue argument
      if let some value := value then setVariable name value
      modifyProcess fun p => { p with readOnly := name :: p.readOnly.filter (· != name) }

/-- Makes variables the own ones of the function that is running. They keep their values until they
are given others. -/
def makeLocal (arguments : List String) : Exec Unit := do
  if (← process).kept.isEmpty then blame "not in a function"
  for argument in arguments do
    let (name, value) ← namedValue argument
    modifyProcess fun p => { p with
      kept := match p.kept with
        | [] => []
        | frame :: frames => (p.keep name :: frame) :: frames }
    if let some value := value then setVariable name value

def withOwnVariables {α : Type} (body : Exec α) : Exec α := do
  modifyProcess fun p => { p with kept := [] :: p.kept }
  let result ← body
  let p ← process
  modifyProcess fun p => { p with kept := p.kept.drop 1 }
  for kept in p.kept.headD [] do restore kept
  return result

def unsetAll (arguments : List String) : Exec Unit := do
  let (options, names) ← withoutOptions ['f', 'v'] arguments
  for name in names do
    if options.contains 'f' then
      modifyProcess fun p => { p with functions := p.functions.filter fun entry => entry.1 != name }
    else
      requireName name
      unsetVariable name

/-! ## Reading -/

/-- The characters of a line with whether a backslash keeps each from being special, and whether the
line goes on in the next one. -/
def withoutBackslashes : List Char → Shell.Word × Bool
  | [] => ([], false)
  | ['\\'] => ([], true)
  | '\\' :: c :: rest =>
    let (word, goesOn) := withoutBackslashes rest
    (⟨c, true⟩ :: word, goesOn)
  | c :: rest =>
    let (word, goesOn) := withoutBackslashes rest
    (⟨c, false⟩ :: word, goesOn)

def readJoined (raw : Bool) : Nat → Exec (Shell.Word × Bool)
  | 0 => throw .stuck
  | fuel + 1 => do
    let (bytes, isEnded) ← readLine 0
    let cs := (Text.Utf8.decodeLossy bytes).filter (· != '\x00')
    if raw then return (cs.map (⟨·, false⟩), isEnded)
    let (word, goesOn) := withoutBackslashes cs
    if goesOn && isEnded then
      let (more, isEnded) ← readJoined raw fuel
      return (word ++ more, isEnded)
    else return (word, isEnded)

/-- What the last of several variables gets: all but the blanks at the end, or the only field that
is left without the separator after it. -/
def lastField (isSeparator isGap : Shell.Marked → Bool) (rest : Shell.Word) : Shell.Word :=
  let field := rest.takeWhile fun marked => !isSeparator marked
  let after := rest.drop field.length
  if after.all isSeparator && (after.filter fun marked => !isGap marked).length ≤ 1 then field
  else (rest.reverse.dropWhile isGap).reverse

def fieldValues (isSeparator isGap : Shell.Marked → Bool) :
    List String → Shell.Word → List (String × String)
  | [], _ => []
  | [name], rest => [(name, Shell.Word.text (lastField isSeparator isGap (rest.dropWhile isGap)))]
  | name :: names, rest =>
    let rest := rest.dropWhile isGap
    let field := rest.takeWhile fun marked => !isSeparator marked
    let after := (rest.drop field.length).dropWhile isGap
    let after := match after with
      | marked :: more => if isSeparator marked then more.dropWhile isGap else after
      | [] => []
    (name, Shell.Word.text field) :: fieldValues isSeparator isGap names after

def joinLimit : Nat := 1000

def readVariables (arguments : List String) : Exec Nat := do
  let arguments := match arguments with
    | "-p" :: _ :: rest => rest
    | arguments => arguments
  let (options, names) ← withoutOptions ['r'] arguments
  if names.isEmpty then blame "arg count"
  let (line, isEnded) ← readJoined (options.contains 'r') joinLimit
  let separators ← separators
  let isSeparator (marked : Shell.Marked) := !marked.kept && separators.contains marked.char
  let isGap (marked : Shell.Marked) := isSeparator marked && Fragment.isBlank marked.char
  for (name, value) in fieldValues isSeparator isGap names line do
    requireName name
    setVariable name value
  return if isEnded then 0 else 1

/-! ## Options of a script -/

structure OptionStep where
  letter : Char := '?'
  argument : Option String := none
  /-- The number of the next argument, and how far things stand in the one before. -/
  next : Nat
  offset : Nat := 0
  isEnd : Bool := false
  fault : Option String := none

/-- What to take for an option letter; a colon stands after one that has an argument. -/
def declared? (letter : Char) : List Char → Option Bool
  | [] => none
  | c :: ':' :: rest => if c = letter then some true else declared? letter rest
  | c :: rest => if c = letter then some false else declared? letter rest

/-- Takes a letter at the front of what is left of the argument before `next`. -/
def takeLetter (declaration : List Char) (arguments : List String) (next offset : Nat)
    (letter : Char) (rest : List Char) : OptionStep :=
  let isSilent := declaration.head? == some ':'
  let offset := if rest.isEmpty then 0 else offset + 1
  match declared? letter declaration with
  | none =>
    { next, offset
      argument := if isSilent then some letter.toString else none
      fault := if isSilent then none else some ("Illegal option -" ++ letter.toString) }
  | some false => { letter, argument := some "", next, offset }
  | some true =>
    if !rest.isEmpty then { letter, argument := some (String.ofList rest), next }
    else
      match arguments[next - 1]? with
      | some argument => { letter, argument := some argument, next := next + 1 }
      | none =>
        if isSilent then { letter := ':', argument := some letter.toString, next }
        else { next, fault := some ("No arg for -" ++ letter.toString ++ " option") }

def nextOption (declaration : List Char) (arguments : List String) (next offset : Nat) :
    OptionStep :=
  let started := if offset = 0 then [] else ((arguments[next - 2]?.getD "").toList.drop offset)
  match started with
  | letter :: rest => takeLetter declaration arguments next offset letter rest
  | [] =>
    match (arguments[next - 1]?.getD "").toList with
    | ['-', '-'] => { next := next + 1, isEnd := true }
    | '-' :: letter :: rest => takeLetter declaration arguments (next + 1) 1 letter rest
    | _ => { next, isEnd := true }

def takeOption (arguments : List String) : Exec Nat := do
  match arguments with
  | declaration :: name :: given =>
    let p ← process
    let next := ((← valueOf? "OPTIND").bind Shell.Integer.natural?).getD 1
    let offset := if next ≤ 1 then 0 else p.optionOffset
    let step := nextOption declaration.toList (if given.isEmpty then p.arguments else given)
      (max 1 next) offset
    if let some text := step.fault then complain text
    match step.argument with
    | some argument => setVariable "OPTARG" argument
    | none => if !step.isEnd then unsetVariable "OPTARG"
    setVariable "OPTIND" (toString step.next)
    modifyProcess fun p => { p with optionOffset := step.offset }
    requireName name
    setVariable name step.letter.toString
    return if step.isEnd then 1 else 0
  | _ => blame "Usage: getopts optstring var [arg...]"

end Exec

end LintRun.Machine
