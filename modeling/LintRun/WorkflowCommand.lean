/-!
# Workflow commands

A run on a build server reports a failure in one line, in which a percent sign and line breaks of
the message are written by their codes. `decodeData` undoes this the way the server does, one code
after the other.
-/

namespace LintRun.WorkflowCommand

def encodeChar (c : Char) : List Char :=
  if c = '%' then ['%', '2', '5']
  else if c = '\r' then ['%', '0', 'D']
  else if c = '\n' then ['%', '0', 'A']
  else [c]

def encodeData (message : List Char) : List Char :=
  message.flatMap encodeChar

/-- The command that reports an error. -/
def error (message : String) : String :=
  "::error::" ++ String.ofList (encodeData message.toList)

/-- Replaces every `%xy` by `char`, from left to right. -/
def replaceCode (x y : Char) (char : Char) : List Char → List Char
  | '%' :: a :: b :: rest =>
    if a = x ∧ b = y then char :: replaceCode x y char rest
    else '%' :: replaceCode x y char (a :: b :: rest)
  | c :: rest => c :: replaceCode x y char rest
  | [] => []

def decodeData (data : List Char) : List Char :=
  replaceCode '2' '5' '%' (replaceCode '0' 'A' '\n' (replaceCode '0' 'D' '\r' data))

end LintRun.WorkflowCommand
