/-!
# Shell scripts

The commands of a POSIX shell as far as the machine knows them. A word is a sequence of pieces,
each with its quoting; an expansion between double quotes is quoted.
-/

namespace LintRun.Shell

/-- What an expansion does when the parameter is unset, or empty where that counts too. -/
inductive Fallback
  | value
  | assign
  | complain
  /-- The word stands for a parameter that is set. -/
  | alternative
  deriving DecidableEq

/-- The end from which a pattern is taken off a value. -/
inductive Trimming
  | start (longest : Bool)
  | stop (longest : Bool)
  deriving DecidableEq

inductive RedirectionKind
  | input
  | output
  | append
  /-- Empties a file even where files are kept. -/
  | overwrite
  | duplicate
  /-- The text is in the script itself. -/
  | here
  deriving DecidableEq

mutual

inductive Piece
  | plain (text : String)
  | quoted (text : String)
  | parameter (name : String) (quoted : Bool)
  | length (name : String)
  /-- The home directory of a user, of the one who runs the shell without a name. -/
  | home (user : String)
  | fallback (name : String) (kind : Fallback) (emptyCounts : Bool) (word : List Piece)
      (quoted : Bool)
  | trimmed (name : String) (trimming : Trimming) (pattern : List Piece) (quoted : Bool)
  | output (body : Script) (quoted : Bool)
  | arithmetic (expression : List Piece) (quoted : Bool)
  /-- Braces after a dollar sign around what is no parameter. -/
  | badSubstitution
  /-- An argument that assigns a value, which is not split. -/
  | assigned (name : String) (value : List Piece)

inductive Redirection
  | mk (descriptor : Nat) (kind : RedirectionKind) (target : List Piece)

inductive Script
  | simple (line : Nat) (assignments : List (String × List Piece)) (words : List (List Piece))
      (redirections : List Redirection)
  | negated (body : Script)
  | pipeline (parts : List Script)
  | both (first second : Script)
  | either (first second : Script)
  | sequence (parts : List Script)
  | background (body : Script)
  | subshell (body : Script)
  | redirected (body : Script) (redirections : List Redirection)
  | conditional (test consequent alternative : Script)
  /-- Repeats the body while the test succeeds, or until it does. -/
  | loop (untilSuccess : Bool) (test body : Script)
  | each (name : String) (words : Option (List (List Piece))) (body : Script)
  | choose (subject : List Piece) (cases : List (List (List Piece) × Script))
  | define (name : String) (body : Script)

end

end LintRun.Shell
