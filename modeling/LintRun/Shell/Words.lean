/-!
# How a command line is read

Blanks outside quotes separate words. Single quotes keep what is between them. Double quotes keep
all but backslashes before a character that would be special there. A backslash outside quotes
keeps the next character. `words?` refuses a line whose quotes do not end, or that has a character
outside single quotes which makes the shell do more than split words.
-/

namespace LintRun.Shell

/-- A character of a word, and whether a quote or a backslash keeps it from being special. -/
structure Marked where
  char : Char
  kept : Bool
  deriving DecidableEq

abbrev Word := List Marked

namespace Word

def text (word : Word) : String :=
  String.ofList (word.map Marked.char)

end Word

def isSeparator (c : Char) : Bool :=
  c == ' ' || c == '\t'

/-- Characters with which an operator, a redirection, an expansion, a pattern, a home directory or
a comment can start. -/
def isSpecial (c : Char) : Bool :=
  "|&;<>()$`*?[#~\n".toList.contains c

def isKeptInDouble (c : Char) : Bool :=
  c == '$' || c == '`' || c == '"' || c == '\\'

inductive Quoting
  | none
  | single
  | double
  deriving DecidableEq

def appendTo (word : Option Word) (c : Char) (kept : Bool) : Option Word :=
  some (word.getD [] ++ [⟨c, kept⟩])

/-- The words of a text that stands after the start `word` of a word, if there is one. -/
def wordsAfter? : Quoting → Option Word → List Char → Option (List Word)
  | .none, word, [] => some word.toList
  | .single, _, [] | .double, _, [] => none
  | .none, _, ['\\'] => none
  | .none, word, '\\' :: c :: rest =>
    if c = '\n' then wordsAfter? .none word rest
    else wordsAfter? .none (appendTo word c true) rest
  | .none, word, c :: rest =>
    if isSeparator c then (wordsAfter? .none none rest).map (word.toList ++ ·)
    else if c = '\'' then wordsAfter? .single (some (word.getD [])) rest
    else if c = '"' then wordsAfter? .double (some (word.getD [])) rest
    else if isSpecial c then none
    else wordsAfter? .none (appendTo word c false) rest
  | .single, word, c :: rest =>
    if c = '\'' then wordsAfter? .none word rest
    else wordsAfter? .single (appendTo word c true) rest
  | .double, word, '\\' :: c :: rest =>
    if isKeptInDouble c then wordsAfter? .double (appendTo word c true) rest
    else if c = '\n' then wordsAfter? .double word rest
    else wordsAfter? .double (appendTo (appendTo word '\\' true) c true) rest
  | .double, word, c :: rest =>
    if c = '"' then wordsAfter? .none word rest
    else if c = '$' ∨ c = '`' ∨ c = '\\' then none
    else wordsAfter? .double (appendTo word c true) rest

def words? (line : String) : Option (List Word) :=
  wordsAfter? .none none line.toList

def openBrace : String := "\x7b"

def closeBrace : String := "\x7d"

/-- Words that are no command names unless they are quoted. -/
def reservedWords : List String := [
  "!", openBrace, closeBrace, "case", "do", "done", "elif", "else", "esac", "fi", "for", "if", "in",
  "then", "until", "while"]

/-- Reserved words that end the commands before them. -/
def endingWords : List String := [closeBrace, "do", "done", "elif", "else", "esac", "fi", "then"]

/-- Commands of the shell whose failure ends a script, and whose assignments stay. -/
def specialCommands : List String := [
  ":", ".", "break", "continue", "eval", "exec", "exit", "export", "local", "readonly", "return",
  "set", "shift", "times", "trap", "unset"]

def isNameStart (c : Char) : Bool :=
  c.isAlpha || c == '_'

def isNamePart (c : Char) : Bool :=
  c.isAlphanum || c == '_'

def isName (cs : List Char) : Bool :=
  match cs with
  | [] => false
  | c :: rest => isNameStart c && rest.all isNamePart

end LintRun.Shell
