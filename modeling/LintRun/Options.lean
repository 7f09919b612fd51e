import LintRun.Text.Json
import LintRun.Tree
import LintRun.Value.Reading

/-!
# Options of a run

The directory to check, the files to check besides those found and those to leave out, what counts
as a failure, how the interpreter is run and for how long. `validate` accepts a directory that is
there, an interpreter that is not blank and a timeout that is not at most zero.
-/

namespace LintRun

structure Options where
  directory : Path
  included : List String
  excluded : List String
  failOnWarnings : Bool
  supportDuplicatedNames : Bool
  debug : Bool
  php : String
  timeout : Option Binary64

namespace OptionError

def invalid (option problem : String) : String :=
  "Invalid " ++ option ++ " option: " ++ problem

def inQuotes (text : String) : String :=
  "\"" ++ text ++ "\""

def message : OptionError → String
  | .notBoolean option text => invalid option (inQuotes text ++ " is not a boolean-like value")
  | .absoluteEntry option path => invalid option (inQuotes path ++ " is an absolute path")
  | .notPositive text => invalid "timeout" (inQuotes text ++ " is not a positive number")
  | .directoryMissing => invalid "directory" "Field required"
  | .directoryRelative path =>
    invalid "directory" (inQuotes path.text ++ " is not an absolute path")
  | .directoryAbsent path => invalid "directory" (inQuotes path.text ++ " does not exist")
  | .directoryNoDirectory path =>
    invalid "directory" (inQuotes path.text ++ " is not a directory")
  | .phpEmpty => invalid "php" "the interpreter must not be empty"
  | .overlong => Text.overlongMessage none

end OptionError

/-- Why options are not valid: the directory cannot be looked at, or some options are wrong. -/
inductive Invalid
  | system (error : OsError)
  | options (first : OptionError) (rest : List OptionError)

namespace Options

def defaultPhp : String := "php"

/-- Options before they are validated; the directory may be missing. -/
structure Proposed where
  directory : Option Path
  included : List String := []
  excluded : List String := []
  failOnWarnings : Bool := false
  supportDuplicatedNames : Bool := false
  debug : Bool := false
  php : String := defaultPhp
  timeout : Option Binary64 := none

/-- What is wrong with a directory. -/
def directoryError? (tree : Tree) : Option Path → Except OsError (Option OptionError)
  | none => .ok (some .directoryMissing)
  | some path =>
    if !path.isAbsolute then .ok (some (.directoryRelative path))
    else do
      if !(← tree.hasNode path) then return some (.directoryAbsent path)
      if !(← tree.hasDirectory path) then return some (.directoryNoDirectory path)
      return none

def phpError? (php : String) : Option OptionError :=
  if Text.allBlank php then some .phpEmpty else none

def timeoutError? : Option Binary64 → Option OptionError
  | none => none
  | some x => if x.atMostZero then some (.notPositive x.text) else none

def validate (tree : Tree) (proposed : Proposed) : Except Invalid Options :=
  match directoryError? tree proposed.directory with
  | .error e => .error (.system e)
  | .ok directoryError =>
    match directoryError.toList ++ (phpError? proposed.php).toList ++
        (timeoutError? proposed.timeout).toList with
    | first :: rest => .error (.options first rest)
    | [] =>
      .ok {
        directory := proposed.directory.getD ⟨.root, []⟩
        included := proposed.included
        excluded := proposed.excluded
        failOnWarnings := proposed.failOnWarnings
        supportDuplicatedNames := proposed.supportDuplicatedNames
        debug := proposed.debug
        php := Text.trim proposed.php
        timeout := proposed.timeout }

/-- The options as lines of JSON. -/
def describe (options : Options) : List String := [
  "Input options:",
  "- directory: " ++ Text.Json.string options.directory.text,
  "- include: " ++ Text.Json.list (options.included.map Text.Json.string),
  "- exclude: " ++ Text.Json.list (options.excluded.map Text.Json.string),
  "- fail-on-warnings: " ++ Text.Json.bool options.failOnWarnings,
  "- support-duplicated-names: " ++ Text.Json.bool options.supportDuplicatedNames,
  "- php: " ++ Text.Json.string options.php,
  "- timeout: " ++ (options.timeout.map Binary64.jsonText).getD "null"]

end Options

end LintRun
