import LintRun.Machine.Session
import LintRun.Shell.Words

/-!
# The options of the shell

An option is on or off and has a letter, most also have a name. Arguments that start with a dash
turn options on, those that start with a plus sign turn them off.
-/

namespace LintRun.Machine

namespace Exec

/-- The names of options in the order in which they are listed. Two have no letter and no effect. -/
def optionNames : List (String × Option Char) := [
  ("errexit", some 'e'), ("noglob", some 'f'), ("ignoreeof", some 'I'), ("interactive", some 'i'),
  ("monitor", some 'm'), ("noexec", some 'n'), ("stdin", some 's'), ("xtrace", some 'x'),
  ("verbose", some 'v'), ("vi", some 'V'), ("emacs", some 'E'), ("noclobber", some 'C'),
  ("allexport", some 'a'), ("notify", some 'b'), ("nounset", some 'u'), ("nolog", none),
  ("debug", none)]

def optionLetters : List Char :=
  optionNames.filterMap Prod.snd

/-- The two ways of editing a line, of which one can be on. -/
def editingLetters : List Char := ['E', 'V']

def turn (on : Bool) (letter : Char) : Exec Unit :=
  let isOff (other : Char) : Bool :=
    other == letter || (on && [letter, other].all editingLetters.contains)
  modifyProcess fun p => { p with
    options := (if on then [letter] else []) ++ p.options.filter fun other => !isOff other }

def turnLetter (on : Bool) (letter : Char) : Exec Unit := do
  if !optionLetters.contains letter then blame ("Illegal option -" ++ letter.toString)
  else if on && letter = 'm' then report "can't access tty; job control turned off"
  else turn on letter

def turnNamed (on : Bool) (name : String) : Exec Unit := do
  match optionNames.lookup name with
  | some letter => if let some letter := letter then turn on letter
  | none => blame ("Illegal option -o " ++ name)

def listOptions (asCommands : Bool) : Exec Unit := do
  let on := (← process).options
  let lines := optionNames.map fun (name, letter) =>
    let isOn := letter.any on.contains
    if asCommands then "set " ++ (if isOn then "-o " else "+o ") ++ name ++ "\n"
    else name ++ String.ofList (List.replicate (16 - name.length) ' ') ++
      (if isOn then "on" else "off") ++ "\n"
  writeText 1 ((if asCommands then "" else "Current option settings\n") ++ String.join lines)

inductive OptionWord
  | letters (on : Bool) (letters : List Char)
  | ended
  | plain

def optionWord (argument : String) : OptionWord :=
  match argument.toList with
  | ['-', '-'] => .ended
  | '-' :: letters => .letters true letters
  | '+' :: letters => .letters false letters
  | _ => .plain

/-- Turns options as the first arguments say; `own` deals with letters that are no options of `set`.
Gives the other arguments, and whether there was something to end the options. -/
def takeOptions (own : Char → Exec Bool) : List String → Exec (List String × Bool)
  | [] => return ([], false)
  | argument :: rest => do
    match optionWord argument with
    | .ended => return (rest, true)
    | .plain => return (argument :: rest, false)
    | .letters on [] =>
      if on then
        turn false 'x'
        turn false 'v'
        return (rest, !rest.isEmpty)
      else takeOptions own rest
    | .letters on letters =>
      for letter in letters do
        if letter != 'o' && !(← own letter) then turnLetter on letter
      if !letters.contains 'o' then takeOptions own rest
      else
        match rest with
        | name :: others =>
          turnNamed on name
          takeOptions own others
        | [] =>
          listOptions (!on)
          return ([], false)

def setOptions (arguments : List String) : Exec Unit := do
  let (rest, isEnded) ← takeOptions (fun _ => return false) arguments
  if isEnded || !rest.isEmpty then modifyProcess fun p => { p with arguments := rest }

end Exec

end LintRun.Machine
