import LintRun.Platform

/-!
# Words of a command line

`quote` writes a text as one word that the host's shell reads back as that text. Texts made of
harmless characters stay as they are. Elsewhere a POSIX shell gets single quotes, with every single
quote of the text inside double quotes, and Windows gets double quotes, with the backslashes at the
end doubled so that they do not take the closing quote with them.
-/

namespace LintRun.Shell

def isNameChar (c : Char) : Bool :=
  c.isAlphanum || c == '_' || c == '/' || c == '.' || c == '-'

/-- Characters that mean nothing to a POSIX shell inside a word. -/
def isPlain (c : Char) : Bool :=
  isNameChar c || c == '@' || c == '%' || c == '+' || c == '=' || c == ':' || c == ','

def quotedQuote : List Char := ['\'', '"', '\'', '"', '\'']

def singleQuoted (cs : List Char) : List Char :=
  '\'' :: cs.flatMap (fun c => if c = '\'' then quotedQuote else [c]) ++ ['\'']

def quotePosix (cs : List Char) : List Char :=
  if !cs.isEmpty && cs.all isPlain then cs else singleQuoted cs

/-- The number of backslashes at the end. -/
def trailingBackslashes (cs : List Char) : Nat :=
  (cs.reverse.takeWhile (· == '\\')).length

def quoteWindows (cs : List Char) : List Char :=
  if !cs.isEmpty && cs.all (fun c => isNameChar c || c == '\\') then cs
  else '"' :: cs ++ List.replicate (trailingBackslashes cs) '\\' ++ ['"']

def quoteChars : Platform → List Char → List Char
  | .posix => quotePosix
  | .windows => quoteWindows

def quote (platform : Platform) (s : String) : String :=
  String.ofList (quoteChars platform s.toList)

end LintRun.Shell
