import LintRun.Shell.Integer

/-!
# Arithmetic

Integer expressions of the shell and their values. The numbers have 64 bits and wrap. An expression
may assign to variables: a value comes with what was assigned, the latest first, and a variable has
the value that was assigned to it last.
-/

namespace LintRun.Shell.Arithmetic

inductive Sign
  | minus
  | not
  | complement
  deriving DecidableEq

inductive Operator
  | times
  | over
  | modulo
  | plus
  | minus
  | shiftLeft
  | shiftRight
  | less
  | lessEqual
  | greater
  | greaterEqual
  | equal
  | unequal
  | bitAnd
  | bitXor
  | bitOr
  deriving DecidableEq

inductive Expression
  | number (value : Int64)
  | variable_ (name : String)
  | signed (sign : Sign) (operand : Expression)
  | binary (operator : Operator) (left right : Expression)
  /-- The second operand counts only if the first is not zero. -/
  | both (left right : Expression)
  /-- The second operand counts only if the first is zero. -/
  | either (left right : Expression)
  | conditional (test consequent alternative : Expression)
  | assign (name : String) (value : Expression)

inductive Fault
  | expecting (what : String)
  | divisionByZero
  /-- The quotient of the least number and minus one is no number. -/
  | overflow
  | illegalNumber (text : String)
  deriving DecidableEq

namespace Expression

def ofBool (b : Bool) : Int64 := if b then 1 else 0

def withSign (n : Int64) : Sign → Int64
  | .minus => -n
  | .not => ofBool (n == 0)
  | .complement => ~~~n

def quotient (divide : Int64 → Int64 → Int64) (a b : Int64) : Except Fault Int64 :=
  if b = 0 then .error .divisionByZero
  else if a = Int64.minValue ∧ b = -1 then .error .overflow
  else .ok (divide a b)

/-- The value of an operation. A shift goes by its count modulo 64. -/
def operate (a b : Int64) : Operator → Except Fault Int64
  | .times => .ok (a * b)
  | .over => quotient (· / ·) a b
  | .modulo => quotient (· % ·) a b
  | .plus => .ok (a + b)
  | .minus => .ok (a - b)
  | .shiftLeft => .ok (a <<< b)
  | .shiftRight => .ok (a >>> b)
  | .less => .ok (ofBool (a < b))
  | .lessEqual => .ok (ofBool (a ≤ b))
  | .greater => .ok (ofBool (b < a))
  | .greaterEqual => .ok (ofBool (b ≤ a))
  | .equal => .ok (ofBool (a == b))
  | .unequal => .ok (ofBool (a != b))
  | .bitAnd => .ok (a &&& b)
  | .bitXor => .ok (a ^^^ b)
  | .bitOr => .ok (a ||| b)

/-- What was assigned, the latest first. -/
abbrev Assigned := List (String × Int64)

/-- The value of an expression after what was assigned before; `value?` gives the texts of the other
variables. -/
def evaluate (value? : String → Option String) :
    Expression → Assigned → Except Fault (Int64 × Assigned)
  | number n, assigned => .ok (n, assigned)
  | variable_ name, assigned =>
    match assigned.lookup name with
    | some n => .ok (n, assigned)
    | none =>
      let text := (value? name).getD ""
      match Integer.ofValue? text with
      | some n => .ok (n, assigned)
      | none => .error (.illegalNumber text)
  | signed sign operand, assigned => do
    let (n, assigned) ← operand.evaluate value? assigned
    return (withSign n sign, assigned)
  | binary operator left right, assigned => do
    let (a, assigned) ← left.evaluate value? assigned
    let (b, assigned) ← right.evaluate value? assigned
    return (← operate a b operator, assigned)
  | both left right, assigned => do
    let (a, assigned) ← left.evaluate value? assigned
    if a = 0 then return (0, assigned)
    let (b, assigned) ← right.evaluate value? assigned
    return (ofBool (b != 0), assigned)
  | either left right, assigned => do
    let (a, assigned) ← left.evaluate value? assigned
    if a ≠ 0 then return (1, assigned)
    let (b, assigned) ← right.evaluate value? assigned
    return (ofBool (b != 0), assigned)
  | conditional test consequent alternative, assigned => do
    let (n, assigned) ← test.evaluate value? assigned
    if n = 0 then alternative.evaluate value? assigned
    else consequent.evaluate value? assigned
  | assign name value, assigned => do
    let (n, assigned) ← value.evaluate value? assigned
    return (n, (name, n) :: assigned)

end Expression

end LintRun.Shell.Arithmetic
