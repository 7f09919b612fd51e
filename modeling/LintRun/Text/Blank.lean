/-!
# Blank characters and trimming

A character is blank when Unicode calls it a space or when it is one of the ASCII separators
`0x1c` to `0x1f`. The zero width characters are not blank. `trim` removes blanks at both ends and
nothing else.
-/

namespace LintRun.Text

def isBlank (c : Char) : Bool :=
  let n := c.toNat
  (9 ≤ n && n ≤ 13) || (28 ≤ n && n ≤ 32) || n == 0x85 || n == 0xa0 || n == 0x1680 ||
    (0x2000 ≤ n && n ≤ 0x200a) || n == 0x2028 || n == 0x2029 || n == 0x202f || n == 0x205f ||
    n == 0x3000

/-- Removes the longest run of characters in `p` at the end. -/
def dropEndWhile (p : Char → Bool) (cs : List Char) : List Char :=
  (cs.reverse.dropWhile p).reverse

/-- Removes the longest runs of characters in `p` at both ends. -/
def trimWhile (p : Char → Bool) (cs : List Char) : List Char :=
  dropEndWhile p (cs.dropWhile p)

def trim (s : String) : String :=
  String.ofList (trimWhile isBlank s.toList)

/-- Whether nothing but blanks is there. -/
def allBlank (s : String) : Bool :=
  s.toList.all isBlank

@[simp]
theorem dropEndWhile_nil (p : Char → Bool) : dropEndWhile p [] = [] := rfl

end LintRun.Text
