import LintRun.Number.Reading
import LintRun.Options.Layers

/-!
# Command line arguments

The program has one command, `check`, and every option of it has a long name only. An option takes
its value after an equals sign or as the next argument, whatever that looks like; the last value
counts, but for the file lists, which take all. Arguments that make no sense are refused before help
is given, values that make no sense and arguments that are no options after it.
-/

namespace LintRun.Cli

inductive Request
  | help
  | check (overrides : Overrides)

inductive ValueOption
  | directory
  | included
  | excluded
  | php
  | timeout
  | config
  deriving DecidableEq

inductive Flag
  | failOnWarnings
  | supportDuplicatedNames
  | debug
  deriving DecidableEq

/-- An argument with its meaning. -/
inductive Argument
  | help
  | value (option : ValueOption) (text : String)
  | flag (flag : Flag) (on : Bool)
  | operand (text : String)

def valueOptions : List (String × ValueOption) := [
  ("--directory", .directory), ("--include", .included), ("--exclude", .excluded),
  ("--php", .php), ("--timeout", .timeout), ("--config", .config)]

def flags : List (String × Flag × Bool) := [
  ("--fail-on-warnings", .failOnWarnings, true),
  ("--no-fail-on-warnings", .failOnWarnings, false),
  ("--support-duplicated-names", .supportDuplicatedNames, true),
  ("--no-support-duplicated-names", .supportDuplicatedNames, false),
  ("--debug", .debug, true),
  ("--no-debug", .debug, false)]

def splitValue (argument : String) : String × Option String :=
  let cs := argument.toList
  let name := cs.takeWhile (· != '=')
  (String.ofList name,
    if name.length < cs.length then some (String.ofList (cs.drop (name.length + 1))) else none)

def looksLikeOption (argument : String) : Bool :=
  argument.toList.head? == some '-' && 1 < argument.length

def switch? (name : String) : Option Argument :=
  if name = "--help" then some .help
  else (flags.lookup name).map fun (flag, on) => .flag flag on

/-- The meaning of the arguments of the command, if they have one. -/
def scan? : List String → Option (List Argument)
  | [] => some []
  | argument :: rest =>
    if argument = "--" then some (rest.map .operand)
    else if !looksLikeOption argument then (scan? rest).map (.operand argument :: ·)
    else
      let (name, given) := splitValue argument
      match valueOptions.lookup name, given, rest with
      | some option, some value, rest => (scan? rest).map (.value option value :: ·)
      | some option, none, value :: rest => (scan? rest).map (.value option value :: ·)
      | some _, none, [] => none
      | none, some _, _ => none
      | none, none, rest =>
        match switch? name with
        | some argument => (scan? rest).map (argument :: ·)
        | none => none

def isOperand : Argument → Bool
  | .operand _ => true
  | _ => false

def isHelp : Argument → Bool
  | .help => true
  | _ => false

def valuesOf (arguments : List Argument) (option : ValueOption) : List String :=
  arguments.filterMap fun argument =>
    match argument with
    | .value other text => if other = option then some text else none
    | _ => none

def flagOf (arguments : List Argument) (flag : Flag) : Option Bool :=
  (arguments.filterMap fun argument =>
    match argument with
    | .flag other on => if other = flag then some on else none
    | _ => none).getLast?

def lastValue (arguments : List Argument) (option : ValueOption) : Option String :=
  (valuesOf arguments option).getLast?

/-- Whether an option can have a value: a place has no NUL character, a timeout is a number. -/
def isSensible (option : ValueOption) (text : String) : Bool :=
  match option with
  | .directory | .config => !text.contains '\x00'
  | .timeout => (Binary64.readArgument? text).isSome
  | _ => true

/-- Whether all options that are given can have their last values. -/
def areSensible (arguments : List Argument) : Bool :=
  arguments.all fun argument =>
    match argument with
    | .value option _ => (lastValue arguments option).all (isSensible option)
    | _ => true

def given (values : List String) : Option (List String) :=
  if values.isEmpty then none else some values

def overridesOf (arguments : List Argument) : Overrides where
  directory := (lastValue arguments .directory).map Path.ofString
  included := given (valuesOf arguments .included)
  excluded := given (valuesOf arguments .excluded)
  failOnWarnings := flagOf arguments .failOnWarnings
  supportDuplicatedNames := flagOf arguments .supportDuplicatedNames
  debug := flagOf arguments .debug
  php := lastValue arguments .php
  timeout := (lastValue arguments .timeout).bind Binary64.readArgument?
  config := (lastValue arguments .config).map Path.ofString

def parseCheck? (arguments : List String) : Option Request := do
  let arguments ← scan? arguments
  if arguments.any isHelp then return .help
  if !areSensible arguments || arguments.any isOperand then none
  return .check (overridesOf arguments)

/-- Whether arguments that come before a command ask for help at most. -/
def askAtMostHelp : List String → Bool
  | [] => true
  | argument :: rest =>
    argument = "--" || !looksLikeOption argument || (argument = "--help" && askAtMostHelp rest)

/-- The request of the program's arguments, if they make sense. Before the command only help can be
asked for, even after a double dash. -/
def parse? (arguments : List String) : Option Request :=
  match if arguments.head? = some "--" then arguments.drop 1 else arguments with
  | "check" :: rest => parseCheck? rest
  | "--help" :: rest => if askAtMostHelp rest then some .help else none
  | _ => none

end LintRun.Cli
