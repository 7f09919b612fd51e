import LintRun.Machine.Source
import LintRun.Machine.Tool.Line

/-!
# Shares of files

What `head` and `tail` show: a number of lines or bytes at one end of a file, or all but that number
at the other end.
-/

namespace LintRun.Machine.Tool

open Text (Bytes)
open Exec

structure Share where
  count : Nat := 10
  inBytes : Bool := false
  /-- Whether the count is of what is left out, at the other end. -/
  isRest : Bool := false
  /-- Whether the files are named; if nothing is said of it, several are. -/
  names : Option Bool := none
  files : List String := []

inductive ShareFault
  | count (inBytes : Bool) (text : String)
  | option (option : String)

/-- A count; with the sign `rest` in front of it, of what is left out. -/
def Share.withCount (share : Share) (rest : Char) (inBytes : Bool) (text : String) :
    Except ShareFault Share :=
  let unsigned (sign : Char) (text : String) : String := match text.toList with
    | c :: digits => if c = sign then String.ofList digits else text
    | [] => text
  let amount := unsigned '-' text
  match Shell.Integer.natural? (unsigned '+' amount) with
  | some count => .ok { share with count, inBytes, isRest := text.startsWith rest.toString }
  | none => .error (.count inBytes amount)

def Share.ofArguments (rest : Char) (share : Share) : List String → Except ShareFault Share
  | [] => .ok share
  | "--" :: files => .ok { share with files := share.files ++ files }
  | "-q" :: others => Share.ofArguments rest { share with names := some false } others
  | "-v" :: others => Share.ofArguments rest { share with names := some true } others
  | "-c" :: text :: others => do Share.ofArguments rest (← share.withCount rest true text) others
  | "-n" :: text :: others => do Share.ofArguments rest (← share.withCount rest false text) others
  | argument :: others => do
    match argument.toList with
    | '-' :: 'c' :: text =>
      Share.ofArguments rest (← share.withCount rest true (String.ofList text)) others
    | '-' :: 'n' :: text =>
      Share.ofArguments rest (← share.withCount rest false (String.ofList text)) others
    | '-' :: c :: text =>
      if (c :: text).all Char.isDigit then
        let count := Shell.Integer.ofDigits 10 (c :: text)
        Share.ofArguments rest { share with count, inBytes := false, isRest := false } others
      else throw (.option argument)
    | _ => Share.ofArguments rest { share with files := share.files ++ [argument] } others

/-- Shows a share of each file; `show_` shows it of what is read on a descriptor. -/
def showShares (name : String) (rest : Char) (show_ : Share → Nat → Exec Unit)
    (arguments : List String) : Exec Nat := do
  match Share.ofArguments rest {} arguments with
  | .error (.option option) => refuseOption name option
  | .error (.count inBytes text) =>
    complain (name ++ ": invalid number of " ++ (if inBytes then "bytes" else "lines") ++ ": ‘" ++
      text ++ "’")
    return 1
  | .ok share =>
    let files := if share.files.isEmpty then ["-"] else share.files
    let names := share.names.getD (1 < files.length)
    let fault : SourceFault := fun file e =>
      if e = .isDirectory then "error reading '" ++ file ++ "': " ++ e.text
      else "cannot open '" ++ file ++ "' for reading: " ++ e.text
    let mut code := 0
    let mut isFirst := true
    for file in files do
      match ← source name fault file with
      | none => code := 1
      | some descriptor =>
        if names then
          writeText 1 ((if isFirst then "" else "\n") ++ "==> " ++
            (if file == "-" then "standard input" else file) ++ " <==\n")
        isFirst := false
        show_ share descriptor
    return code

def headLines (descriptor : Nat) : Nat → Exec Unit
  | 0 => return
  | count + 1 => do
    let (line, ended) ← readLine descriptor
    write 1 (if ended then line ++ [10] else line)
    if ended then headLines descriptor count

def head (name : String) (arguments : List String) : Exec Nat := do
  let showHead (share : Share) (descriptor : Nat) : Exec Unit := do
    if share.isRest then
      let bytes ← readAll descriptor
      let lines := lineBytes bytes
      write 1 (if share.inBytes then bytes.take (bytes.length - share.count)
        else (lines.take (lines.length - share.count)).flatten)
    else if share.inBytes then write 1 (← readBytes descriptor share.count)
    else headLines descriptor share.count
  showShares name '-' showHead arguments

def tail (name : String) (arguments : List String) : Exec Nat := do
  let showTail (share : Share) (descriptor : Nat) : Exec Unit := do
    let bytes ← readAll descriptor
    let lines := lineBytes bytes
    let skipped (length : Nat) : Nat :=
      if share.isRest then share.count - 1 else length - share.count
    write 1 (if share.inBytes then bytes.drop (skipped bytes.length)
      else (lines.drop (skipped lines.length)).flatten)
  showShares name '+' showTail arguments

end LintRun.Machine.Tool
