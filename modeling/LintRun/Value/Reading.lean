import LintRun.Number.Reading
import LintRun.Path
import LintRun.Text.Blank
import LintRun.Text.Case
import LintRun.Text.Line
import LintRun.Value

/-!
# Reading option values

The same value may come as a text, a number or a list, as the layer it comes from has it. Flags are
read in the spellings that people use, lists may be written one item to a line, and entries of the
file lists are paths within the checked directory.
-/

namespace LintRun

inductive OptionError
  | notBoolean (option text : String)
  | absoluteEntry (option path : String)
  | notPositive (text : String)
  | directoryMissing
  | directoryRelative (path : Path)
  | directoryAbsent (path : Path)
  | directoryNoDirectory (path : Path)
  | phpEmpty
  /-- The value cannot even be shown. -/
  | overlong

inductive TimeoutFailure
  | invalid (error : OptionError)
  | overflow

namespace Value

def written (value : Value) : Except OptionError String :=
  if value.isOverlong then .error .overlong else .ok value.shown

/-- What is said of a value that is wrong; it has to be shown for that. -/
def complaint (value : Value) (error : String → OptionError) : OptionError :=
  match value.written with
  | .ok shown => error shown
  | .error e => e

def truthy : List String := ["1", "yes", "y", "true", "t", "on"]

def falsy : List String := ["0", "no", "n", "false", "f", "off", ""]

def flagOfText (option text : String) : Except OptionError Bool :=
  let word := Text.lower (Text.trim text)
  if truthy.contains word then .ok true
  else if falsy.contains word then .ok false
  else .error (.notBoolean option word)

/-- A flag; an option that is not given is off. -/
def asFlag (option : String) : Value → Except OptionError Bool
  | .null => .ok false
  | .bool b => .ok b
  | .int i => (written (.int i)).bind (flagOfText option)
  | .text s => flagOfText option s
  | value => .error (value.complaint (.notBoolean option))

/-- The lines of a text without the blanks around them, but for those with nothing else. -/
def linesOfText (text : String) : List String :=
  ((Text.lines text.toList).map fun line =>
    String.ofList (Text.trimWhile Text.isBlank line)).filter (· != "")

mutual
def entries : Value → Except OptionError (List String)
  | .null => .ok []
  | .text s => .ok (linesOfText s)
  | .list items => entriesOfItems items
  | value => value.written.map fun shown => [Text.trim shown]

def entriesOfItems : List Value → Except OptionError (List String)
  | [] => .ok []
  | item :: rest => (entries item).bind fun listed => (entriesOfItems rest).map (listed ++ ·)
end

def withSeparator (separator : List Char) (cs : List Char) : List Char :=
  cs.flatMap fun c => if c = '/' then separator else [c]

/-- A path from the root, or on Windows from a drive. -/
def isAbsoluteEntry (separator cs : List Char) : Bool :=
  separator.isPrefixOf cs || (separator == ['\\'] && (cs.drop 1).head? == some ':')

def relativePaths (option : String) (separator : List Char) :
    List String → Except OptionError (List String)
  | [] => .ok []
  | entry :: rest =>
    let path := withSeparator separator (Text.trimWhile Text.isBlank entry.toList)
    if path.isEmpty then relativePaths option separator rest
    else if isAbsoluteEntry separator path then
      .error (.absoluteEntry option (String.ofList path))
    else
      (relativePaths option separator rest).map fun paths =>
        String.ofList (Text.dropEndWhile separator.contains path) :: paths

def asPaths (option : String) (value : Value) : Except OptionError (List String) :=
  (entries value).bind (relativePaths option ['/'])

/-- A timeout in seconds, which need not be positive yet. -/
def asTimeout (value : Value) : Except TimeoutFailure (Option Binary64) :=
  let invalid := Except.error (TimeoutFailure.invalid (value.complaint .notPositive))
  match value with
  | .null => .ok none
  | .float x => .ok (some x)
  | .int i =>
    match Binary64.ofInt? i with
    | some x => .ok (some x)
    | none => .error .overflow
  | .text s =>
    match Binary64.read? s with
    | some x => .ok (some x)
    | none => invalid
  | _ => invalid

end Value

end LintRun
