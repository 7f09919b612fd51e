import LintRun.Machine.Expansion
import LintRun.Shell.Integer
import LintRun.Text.Blank

/-!
# Parameters

The values of parameters and variables, and the fragments that they give in a word.
-/

namespace LintRun.Machine

open Text (Bytes)
open Shell (Word)

namespace Exec

/-- The letters of options, in the order in which the parameter `-` lists them. -/
def listedOptions : List Char := "ubaCEVvxsnmiIfe".toList

def joint : Exec String :=
  return match ← valueOf? "IFS" with
    | none => " "
    | some text => String.ofList (text.toList.take 1)

def parameter? (name : String) : Exec (Option String) := do
  let p ← process
  match name with
  | "#" => return some (toString p.arguments.length)
  | "?" => return some (toString p.status)
  | "$" => return some (toString p.calledNumber)
  | "!" => return p.jobs.head?.map fun job => toString job.process
  | "-" => return some (String.ofList (listedOptions.filter p.options.contains))
  | "0" => return some p.name
  | "@" | "*" =>
    let joint ← joint
    return if p.arguments.isEmpty then none else some (joint.intercalate p.arguments)
  | _ =>
    match Shell.Integer.natural? name with
    | some n => return p.arguments[n - 1]?
    | none => valueOf? name

def requiredValue (name : String) : Exec String := do
  match ← parameter? name with
  | some value => return value
  | none =>
    if (← isOn 'u') && name != "@" && name != "*" then blame (name ++ ": parameter not set")
    else return ""

/-- All arguments as fragments; between double quotes each is a field of its own. -/
def argumentFragments (name : String) (quoted : Bool) : Exec (List Fragment) := do
  let arguments := (← process).arguments
  if quoted then
    if name == "*" then return [.text ((← joint).intercalate arguments).toList true]
    else
      let texts := arguments.map fun argument => Fragment.text argument.toList true
      return texts.intersperse .boundary
  else return (arguments.map fun argument => Fragment.value argument.toList).intersperse .boundary

def valueFragments (quoted : Bool) (value : String) : List Fragment :=
  if quoted then [.text value.toList true] else [.value value.toList]

def separators : Exec (List Char) :=
  return ((← valueOf? "IFS").map String.toList).getD Fragment.blanks

def outputValue (bytes : Bytes) : String :=
  String.ofList (Text.dropEndWhile (· == '\n')
    ((Text.Utf8.decodeLossy bytes).filter (· != '\x00')))

def trim (trimming : Shell.Trimming) (pattern : Word) (cs : List Char) : List Char :=
  let cuts := List.range (cs.length + 1)
  match trimming with
  | .start longest =>
    let cuts := if longest then cuts.reverse else cuts
    match cuts.find? fun n => Shell.Pattern.isMatch pattern (cs.take n) with
    | some n => cs.drop n
    | none => cs
  | .stop longest =>
    let cuts := if longest then cuts else cuts.reverse
    match cuts.find? fun n => Shell.Pattern.isMatch pattern (cs.drop n) with
    | some n => cs.take n
    | none => cs

/-- The home directory of a user whose name stands after a tilde, or both as they are. -/
def homeOf (user : String) : Exec String := do
  match user with
  | "" => return (← valueOf? "HOME").getD "~"
  | "root" => return "/root"
  | _ => return "~" ++ user

def textsOf (fields : List Word) : Exec (List String) := do
  let plain ← isOn 'f'
  let tree ← tree
  return fields.flatMap (fieldTexts plain tree)

end Exec

end LintRun.Machine
