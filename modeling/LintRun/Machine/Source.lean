import LintRun.Machine.Session
import LintRun.Shell.Format

/-!
# What tools read

A tool reads the files that it is given one after the other, or else what the process reads.
-/

namespace LintRun.Machine

open Text (Bytes)

/-- What is under a path but in no directory of the tree. -/
inductive Device
  | null
  | zero
  /-- What a process reads or writes on a descriptor. -/
  | stream (descriptor : Nat)
  deriving DecidableEq

def Device.ofPath? (path : String) : Option Device :=
  match path with
  | "/dev/null" => some .null
  | "/dev/zero" => some .zero
  | "/dev/stdin" => some (.stream 0)
  | "/dev/stdout" => some (.stream 1)
  | "/dev/stderr" => some (.stream 2)
  | _ =>
    if path.startsWith "/dev/fd/" then
      (Shell.Integer.natural? (path.drop 8).toString).map Device.stream
    else none

def Device.at? (tree : Tree) (file : String) : Option Device :=
  match tree.locate (.followed file) .node with
  | .ok names => Device.ofPath? (Path.mk .root names).text
  | .error _ => Device.ofPath? file

namespace Exec

/-- What is at a path. An empty path leads nowhere. -/
def nodeAt (file : String) : Exec (Except Errno Node) := do
  if file == "" then return .error .noEntry else return (← tree).find (.followed file)

def openFile (file : String) : Exec (Except Errno Input) := do
  match Device.at? (← tree) file with
  | some .null => return .ok {}
  | some .zero => return .ok { repeated := [0] }
  | some (.stream descriptor) =>
    return match ← input descriptor with
      | some (_, input) => .ok input
      | none => .error .noEntry
  | none => return (← nodeAt file).bind fun node =>
      match node with
      | .file content _ => .ok { pieces := [(0, content)], size := some content.length }
      | _ => .error .isDirectory

def fileDescriptor : Nat := 10

def isOption (argument : String) : Bool :=
  argument.startsWith "-" && argument != "-"

/-- The arguments that are options, which may stand anywhere in front of two dashes, and the
others. -/
def splitOptions (arguments : List String) : List String × List String :=
  let before := arguments.takeWhile (· != "--")
  (before.filter isOption, before.filter (!isOption ·) ++ arguments.drop (before.length + 1))

def lettersOf (options : List String) : List Char :=
  options.flatMap fun option => option.toList.drop 1

abbrev SourceFault := String → Errno → String

def plainFault : SourceFault := fun file e =>
  (if file == "" then "''" else file) ++ ": " ++ e.text

/-- The descriptor to read a file from; a dash stands for what the process reads. -/
def source (tool : String) (fault : SourceFault) (file : String) : Exec (Option Nat) := do
  let complaint (e : Errno) : Exec (Option Nat) := do
    complain (tool ++ ": " ++ fault file e)
    return none
  if file == "-" then
    match (← input 0).bind fun (_, input) => input.fault with
    | some e => return ← complaint e
    | none => return some 0
  match ← openFile file with
  | .ok input =>
    setInput fileDescriptor input
    return some fileDescriptor
  | .error e => complaint e

def refuseOption (tool option : String) : Exec Nat := do
  complain (tool ++ ": " ++
    (if option.startsWith "--" then "unrecognized option '" ++ option
      else "invalid option -- '" ++ (option.toList.drop 1 |>.take 1 |> String.ofList)) ++
    "'\nTry '" ++ tool ++ " --help' for more information.")
  return 1

def passOn (f : Bytes → Bytes) (descriptor : Nat) : Exec Unit := do
  let some (number, input) ← input descriptor | return
  modifyWorld fun w => w.setInput number { input with pieces := [] }
  for (time, bytes) in input.pieces do
    waitUntil time
    write 1 (f bytes)
  if input.repeated.isEmpty then finish input
  else
    let _ ← flood (f input.repeated)
    return

end Exec

end LintRun.Machine
