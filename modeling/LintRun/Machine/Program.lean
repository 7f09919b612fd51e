import LintRun.Text.Blank
import LintRun.Tree

/-!
# Programs of the machine

A file that may be executed is either one of the machine's own programs, which is a mark and a name,
or a script whose first line names the program that runs it.
-/

namespace LintRun.Machine

open Text (Bytes)

def mark : Bytes := [0x7f, 0x45, 0x4c, 0x46]

/-- A program that is ready to start. The first argument is the name it is called by. -/
structure Image where
  tool : String
  arguments : List String
  deriving DecidableEq

namespace Image

def interpreter? (content : Bytes) : Option (String × Option String) :=
  match content with
  | 0x23 :: 0x21 :: rest =>
    let line := Text.Utf8.decodeLossy ((rest.take 254).takeWhile (· != 10))
    let isGap (c : Char) : Bool := c == ' ' || c == '\t'
    let line := Text.trimWhile isGap line
    let name := line.takeWhile fun c => !isGap c
    let argument := (line.drop name.length).dropWhile isGap
    if name.isEmpty then none
    else some (String.ofList name, if argument.isEmpty then none else some (String.ofList argument))
  | _ => none

/-- The program in a file. A script may be run by a script, but not for ever. -/
def load (tree : Tree) : Nat → String → List String → Except Errno Image
  | 0, _, _ => .error .tooManyLinks
  | depth + 1, file, arguments =>
    if file == "" then .error .noEntry
    else
      match tree.find (.followed file) with
      | .error e => .error e
      | .ok (.file content executable) =>
        if !executable then .error .denied
        else if mark.isPrefixOf content then
          .ok ⟨String.ofList (Text.Utf8.decodeLossy (content.drop mark.length)), arguments⟩
        else
          match interpreter? content with
          | some (name, argument) =>
            load tree depth name (name :: argument.toList ++ file :: arguments.drop 1)
          | none => .error .noExecutable
      | .ok _ => .error .denied

def depthLimit : Nat := 5

def fileIn (directory name : String) : String :=
  if directory == "" then name else directory ++ "/" ++ name

/-- The program of a name without a slash in the first of the directories that has it. Otherwise
the failure is the first that does not just say that nothing is there. -/
def search (tree : Tree) (directories : List String) (name : String) (arguments : List String) :
    Except Errno Image :=
  if name.contains '/' then load tree depthLimit name arguments
  else
    let results := directories.map fun directory =>
      load tree depthLimit (fileIn directory name) arguments
    match results.find? fun result => result.isOk with
    | some result => result
    | none =>
      let failures := results.filterMap fun result =>
        match result with
        | .error e => some e
        | .ok _ => none
      .error (((failures.find? fun e => e != .noEntry && e != .notDirectory).orElse
        fun _ => failures.getLast?).getD .noEntry)

def argumentLimit : Nat := 131072

def totalLimit : Nat := 2097152

def fits (arguments : List String) (environment : List (String × String)) : Bool :=
  let texts := arguments ++ environment.map fun (name, value) => name ++ "=" ++ value
  let sizes := texts.map fun text => Text.Utf8.size text + 1
  sizes.all (· ≤ argumentLimit) && (sizes.map (· + 8)).foldl (· + ·) 0 ≤ totalLimit

end Image

end LintRun.Machine
