/-!
# Lines

A line ends with a newline, a carriage return, or a carriage return and a newline.
-/

namespace LintRun.Text

/-- Line breaks of every kind as newlines. -/
def unifyNewlines : List Char → List Char
  | '\r' :: '\n' :: rest => '\n' :: unifyNewlines rest
  | '\r' :: rest => '\n' :: unifyNewlines rest
  | c :: rest => c :: unifyNewlines rest
  | [] => []

def lines (cs : List Char) : List (List Char) :=
  (unifyNewlines cs).splitOn '\n'

end LintRun.Text
