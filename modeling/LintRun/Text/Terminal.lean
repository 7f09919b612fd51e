/-!
# Control sequences of terminals

A terminal takes an escape character, an opening bracket, parameters and a letter as a command, such
as one that changes the colour. `withoutControls` leaves such sequences out, for a stream that leads
to no terminal. Other uses of the escape character stay.
-/

namespace LintRun.Text

def isParameter (c : Char) : Bool :=
  c.isDigit || c == ';' || c == '?'

/-- What follows the parameters and the letter of a sequence, if the text starts with them. -/
def afterControl? (cs : List Char) : Option (List Char) :=
  match cs.dropWhile isParameter with
  | c :: rest => if c.isAlpha then some rest else none
  | [] => none

theorem afterControl?_length_lt {cs rest : List Char} (h : afterControl? cs = some rest) :
    rest.length < cs.length := by
  have hle := (List.dropWhile_sublist (l := cs) isParameter).length_le
  unfold afterControl? at h
  split at h
  · next c tail heq =>
    rw [heq] at hle
    split at h
    · cases h
      exact hle
    · simp at h
  · simp at h

def withoutControls : List Char → List Char
  | '\x1b' :: '[' :: inside =>
    match _h : afterControl? inside with
    | some after => withoutControls after
    | none => '\x1b' :: withoutControls ('[' :: inside)
  | c :: rest => c :: withoutControls rest
  | [] => []
termination_by cs => cs.length
decreasing_by
  · have := afterControl?_length_lt _h
    simp only [List.length_cons]
    omega
  · simp
  · simp

end LintRun.Text
