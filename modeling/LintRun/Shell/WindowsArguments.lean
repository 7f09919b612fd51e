/-!
# How a Windows program reads its arguments

Blanks outside quotes separate the arguments after the program's name. Before a double quote, two
backslashes stand for one, and a backslash that is left over makes the quote an ordinary character;
otherwise the quote starts or ends a quoted part. Backslashes elsewhere are ordinary.
-/

namespace LintRun.Shell.WindowsArguments

def addBackslashes (argument : Option (List Char)) (count : Nat) : Option (List Char) :=
  if count = 0 then argument else some (argument.getD [] ++ List.replicate count '\\')

/-- The arguments of a text that stands after the start `argument` of an argument and `slashes`
backslashes. -/
def after : Bool → Nat → Option (List Char) → List Char → List (List Char)
  | _, slashes, argument, [] => (addBackslashes argument slashes).toList
  | inQuotes, slashes, argument, c :: rest =>
    if c = '\\' then after inQuotes (slashes + 1) argument rest
    else if c = '"' then
      let argument := some ((addBackslashes argument (slashes / 2)).getD [])
      if slashes % 2 = 0 then after (!inQuotes) 0 argument rest
      else after inQuotes 0 (argument.map (· ++ ['"'])) rest
    else
      let argument := addBackslashes argument slashes
      if !inQuotes && (c = ' ' || c = '\t') then argument.toList ++ after false 0 none rest
      else after inQuotes 0 (some (argument.getD [] ++ [c])) rest

def read (line : List Char) : List (List Char) :=
  after false 0 none line

end LintRun.Shell.WindowsArguments
