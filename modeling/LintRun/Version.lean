import LintRun.Text.Blank
import LintRun.Text.Digit
import LintRun.Text.Quoted

/-!
# Interpreter versions

The interpreter prints its version as one number: the last two digits are the patch, the two before
them the minor and the rest the major version, which has no leading zero.
-/

namespace LintRun

structure Version where
  major : Int
  minor : Int
  patch : Int
  deriving DecidableEq

namespace Version

def text (v : Version) : String :=
  s!"{v.major}.{v.minor}.{v.patch}"

/-- The order of versions: by major, then minor, then patch. -/
def le (a b : Version) : Bool :=
  a.major < b.major || (a.major == b.major &&
    (a.minor < b.minor || (a.minor == b.minor && a.patch ≤ b.patch)))

def atLeast (v : Version) (major minor : Int) : Bool :=
  major < v.major || (major == v.major && minor ≤ v.minor)

/-- The version that the digits of an identifier write. -/
def ofDigits? (digits : List Char) : Option Version :=
  let major := digits.take (digits.length - 4)
  let rest := digits.drop (digits.length - 4)
  if digits.length < 5 || !digits.all Char.isDigit || major.head? == some '0' then none
  else some {
    major := Text.natOfDigits major
    minor := Text.natOfDigits (rest.take 2)
    patch := Text.natOfDigits (rest.drop 2) }

/-- Reads an identifier with blanks around it. -/
def read? (output : String) : Option Version :=
  ofDigits? (Text.trim output).toList

end Version

end LintRun
