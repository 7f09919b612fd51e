import LintRun.Number.Decimal
import LintRun.Text.Digit
import LintRun.Text.Quoted
import LintRun.Value.Moment

/-!
# Option values

What an option may hold before it is understood: the values of a configuration file, and `null` for
an option that is not given. `shown` is how a message shows a value; within a list or a table texts
are quoted and dates name their parts. A value cannot be shown if an integer in it is overlong.
-/

namespace LintRun

inductive Value
  | null
  | bool (b : Bool)
  | int (i : Int)
  | float (x : Binary64)
  | text (s : String)
  | date (d : Date)
  | time (t : TimeOfDay)
  | moment (d : Date) (t : TimeOfDay) (offset : Option Offset)
  | list (items : List Value)
  | table (entries : List (String × Value))

instance : Inhabited Value := ⟨.null⟩

/-- Keys and values in the order of their first appearance. -/
abbrev Table := List (String × Value)

namespace Value

def call (name : String) (arguments : List String) : String :=
  "datetime." ++ name ++ "(" ++ ", ".intercalate arguments ++ ")"

def enclose (opening closing : Char) (parts : List String) : String :=
  opening.toString ++ ", ".intercalate parts ++ closing.toString

mutual
/-- A value within another one. -/
def nested : Value → String
  | .null => "None"
  | .bool b => if b then "True" else "False"
  | .int i => toString i
  | .float x => x.text
  | .text s => Text.quoted s
  | .date d => call "date" d.parts
  | .time t => call "time" t.parts
  | .moment d t offset => call "datetime" (d.parts ++ t.parts ++
      (offset.map fun o => "tzinfo=" ++ o.shown).toList)
  | .list items => enclose '[' ']' (nestedItems items)
  | .table entries => enclose '\x7b' '\x7d' (nestedEntries entries)

def nestedItems : List Value → List String
  | [] => []
  | v :: rest => nested v :: nestedItems rest

def nestedEntries : List (String × Value) → List String
  | [] => []
  | (key, v) :: rest => (Text.quoted key ++ ": " ++ nested v) :: nestedEntries rest
end

def momentText (d : Date) (t : TimeOfDay) (offset : Option Offset) : String :=
  d.text ++ " " ++ t.text ++ (offset.map Offset.text).getD ""

/-- A value on its own. -/
def shown : Value → String
  | .text s => s
  | .date d => d.text
  | .time t => t.text
  | .moment d t offset => momentText d t offset
  | v => nested v

mutual
/-- Whether there is an integer in a value that has too many digits to be written. -/
def isOverlong : Value → Bool
  | .int i => Nat.pow 10 Text.digitLimit ≤ i.natAbs
  | .list items => anyOverlong items
  | .table entries => anyEntryOverlong entries
  | _ => false

def anyOverlong : List Value → Bool
  | [] => false
  | v :: rest => isOverlong v || anyOverlong rest

def anyEntryOverlong : List (String × Value) → Bool
  | [] => false
  | (_, v) :: rest => isOverlong v || anyEntryOverlong rest
end

end Value

end LintRun
