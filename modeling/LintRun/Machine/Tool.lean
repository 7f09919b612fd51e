import LintRun.Machine.Tool.Condition
import LintRun.Machine.Tool.Count
import LintRun.Machine.Tool.Directory
import LintRun.Machine.Tool.Display
import LintRun.Machine.Tool.Sequence
import LintRun.Machine.Tool.Share
import LintRun.Machine.Tool.Translation

/-!
# The tools of the machine

The small programs that scripts call. Each gets the name that it was called by and its arguments,
and gives an exit code.
-/

namespace LintRun.Machine.Tool

open Text (Bytes)
open Exec

def duration? (text : String) : Option (Option Time) :=
  let cs := text.toList
  let (cs, unit) := match cs.getLast? with
    | some 's' => (cs.dropLast, 1)
    | some 'm' => (cs.dropLast, 60)
    | some 'h' => (cs.dropLast, 3600)
    | some 'd' => (cs.dropLast, 86400)
    | _ => (cs, 1)
  let whole := cs.takeWhile Char.isDigit
  let fraction := match cs.drop whole.length with
    | '.' :: rest => some rest
    | [] => some []
    | _ => none
  if text == "infinity" || text == "inf" then some none
  else
    fraction.bind fun fraction =>
      if (whole ++ fraction).isEmpty || !fraction.all Char.isDigit then none
      else
        let digits := Shell.Integer.ofDigits 10 (whole ++ fraction)
        some (some (digits * unit * 1000000000 / Nat.pow 10 fraction.length))

def sleep (name : String) (arguments : List String) : Exec Nat := do
  if arguments.isEmpty then
    complain (name ++ ": missing operand\nTry '" ++ name ++ " --help' for more information.")
    return 1
  for argument in arguments do
    if isOption argument then return ← refuseOption name argument
    if (duration? argument).isNone then
      complain (name ++ ": invalid time interval ‘" ++ argument ++ "’\nTry '" ++ name ++
        " --help' for more information.")
      return 1
  for argument in arguments do
    match duration? argument with
    | some (some time) => spend time
    | _ => throw .stuck
  return 0

def format (name : String) (arguments : List String) : Exec Nat := do
  match if arguments.head? == some "--" then arguments.drop 1 else arguments with
  | [] =>
    complain (name ++ ": missing operand\nTry '" ++ name ++ " --help' for more information.")
    return 1
  | text :: arguments =>
    let (bytes, faults) := Shell.Format.format text arguments
    for fault in faults do complain (name ++ ": " ++ fault)
    write 1 bytes
    return if faults.isEmpty then 0 else 1

/-- What `echo` writes as a tool of its own: options say whether a line ends and whether escapes are
looked for. -/
def echoed (arguments : List String) : Bytes :=
  let isFlags (argument : String) : Bool :=
    isOption argument && (argument.toList.drop 1).all "neE".toList.contains
  let flags := lettersOf (arguments.takeWhile isFlags)
  let text := " ".intercalate (arguments.dropWhile isFlags)
  let (bytes, stops) :=
    if (flags.filter (· != 'n')).getLast? = some 'e' then Shell.Format.unescape text.toList
    else (Text.Utf8.encode text, false)
  if stops || flags.contains 'n' then bytes else bytes ++ [10]

/-- What a tool can be asked for: letters of options, and how many operands there are at least and
what they are called. -/
structure Usage where
  letters : List Char
  operands : Nat := 0
  called : String := "operand"

def usages : List (String × Usage) := [
  ("basename", ⟨"az".toList, 1, "operand"⟩),
  ("chmod", ⟨"RcfvrwxXstugo".toList, 1, "operand"⟩),
  ("cp", ⟨"abdfHilLnpPrRsStTuvxZ".toList, 1, "file operand"⟩),
  ("dirname", ⟨['z'], 1, "operand"⟩),
  ("ln", ⟨"bdFfiLnPrsStTv".toList, 1, "file operand"⟩),
  ("mkdir", ⟨"mpvZ".toList, 1, "operand"⟩),
  ("mv", ⟨"bfinSTtuvZ".toList, 1, "file operand"⟩),
  ("pwd", ⟨"LP".toList, 0, "operand"⟩),
  ("rm", ⟨"dfiIrRv".toList, 1, "operand"⟩),
  ("rmdir", ⟨"pv".toList, 1, "operand"⟩),
  ("touch", ⟨"acdfhmrt".toList, 1, "file operand"⟩),
  ("yes", ⟨[], 0, "operand"⟩)]

/-- Says what is wrong with the arguments of a tool as far as its usage tells, and gives the exit
code. Tools that remove do without operands if they are forced. -/
def misuse? (tool name : String) (arguments : List String) : Exec (Option Nat) := do
  let some usage := usages.lookup tool | return none
  let (options, operands) := splitOptions arguments
  let letters := lettersOf (options.filter fun option => !option.startsWith "--")
  if let some letter := letters.find? fun letter => !usage.letters.contains letter then
    return some (← refuseOption name (String.ofList ['-', letter]))
  let complaint : Option String :=
    if operands.length < usage.operands && !(tool == "rm" && letters.contains 'f') then
      some ("missing " ++ usage.called)
    else if ["cp", "mv"].contains tool && operands.length = 1 then
      some ("missing destination file operand after '" ++ operands.headD "" ++ "'")
    else none
  match complaint with
  | some text =>
    complain (name ++ ": " ++ text ++ "\nTry '" ++ name ++ " --help' for more information.")
    return some 1
  | none => return none

def runSound (tool name : String) (arguments : List String) : Exec Nat :=
  match tool with
  | "true" => return 0
  | "false" => return 1
  | "cat" => concatenate name arguments
  | "head" => head name arguments
  | "tail" => tail name arguments
  | "wc" => count name arguments
  | "tr" => translate name arguments
  | "sleep" => sleep name arguments
  | "ls" => listDirectory name arguments
  | "touch" => touch name arguments
  | "mkdir" => makeDirectory name arguments
  | "rm" => remove name arguments
  | "rmdir" => removeDirectory name arguments
  | "chmod" => changeMode name arguments
  | "cp" => copy name arguments
  | "mv" => move name arguments
  | "ln" => makeLink name arguments
  | "seq" => sequence name arguments
  | "yes" => do flood (Text.Utf8.encode
      (if arguments.isEmpty then "y\n" else " ".intercalate arguments ++ "\n"))
  | "test" | "[" => do
    match ← test tool arguments with
    | .ok value => return if value then 0 else 1
    | .error fault =>
      let text := if fault = .missingBracket then "missing ‘]’" else fault.message
      complain (name ++ ": " ++ text)
      return 2
  | "printf" => format name arguments
  | "echo" => do
    write 1 (echoed arguments)
    return 0
  | "pwd" => do
    writeText 1 ((← ownPlace (← process).directory).text ++ "\n")
    return 0
  | "basename" => do
    writeText 1 (baseName (arguments.headD "") ((arguments.drop 1).headD "") ++ "\n")
    return 0
  | "dirname" => do
    writeText 1 (directoryName (arguments.headD "") ++ "\n")
    return 0
  | "getconf" => do
    match arguments with
    | ["ARG_MAX"] =>
      writeText 1 "2097152\n"
      return 0
    | _ =>
      complain ("Usage: getconf [-v specification] variable_name [pathname]\n" ++
        "       getconf -a [pathname]")
      return 2
  | _ => return 127

def run (tool name : String) (arguments : List String) : Exec Nat := do
  match ← misuse? tool name arguments with
  | some code => return code
  | none => runSound tool name arguments

def names : List String := [
  "[", "basename", "cat", "chmod", "cp", "dirname", "echo", "env", "false", "getconf", "head",
  "kill", "ln", "ls", "mkdir", "mv", "printf", "pwd", "rm", "rmdir", "seq", "setsid", "sh", "sleep",
  "tail", "test", "touch", "tr", "true", "wc", "yes"]

end LintRun.Machine.Tool
