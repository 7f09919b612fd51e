import LintRun.Shell.Arithmetic
import LintRun.Shell.Words

/-!
# Reading arithmetic

An expression is an assignment, a choice between two values, or operands joined by operators, of
which `levels` lists those that bind weakest first; operators of one level are read from the left.
An assignment may combine what it assigns with the variable's value by an operator in front of its
equals sign.
-/

namespace LintRun.Shell.Arithmetic

inductive Token
  | number (value : Int64)
  | name (text : String)
  | operator (operator : Operator)
  /-- An assignment, which may have an operator. -/
  | assign (operator : Option Operator)
  | mark (text : String)
  /-- A character that starts no token. -/
  | unknown
  deriving DecidableEq

def assigning : List (String × Operator) := [
  ("<<", .shiftLeft), (">>", .shiftRight), ("|", .bitOr), ("^", .bitXor), ("&", .bitAnd),
  ("+", .plus), ("-", .minus), ("*", .times), ("/", .over), ("%", .modulo)]

/-- The spellings of tokens, such that none comes after another that it starts with. -/
def spellings : List (String × Token) :=
  [("||", .mark "||"), ("&&", .mark "&&"), ("==", .operator .equal), ("!=", .operator .unequal),
    ("<=", .operator .lessEqual), (">=", .operator .greaterEqual)] ++
  assigning.map (fun (text, operator) => (text ++ "=", .assign (some operator))) ++
  assigning.map (fun (text, operator) => (text, .operator operator)) ++
  [("<", .operator .less), (">", .operator .greater), ("=", .assign none)] ++
  ["(", ")", "!", "~", "?", ":"].map fun text => (text, .mark text)

def tokenAt (cs : List Char) : Token × Nat :=
  match cs with
  | [] => (.unknown, 0)
  | c :: _ =>
    if c.isDigit then
      match Integer.magnitude? none cs with
      | some (n, rest) => (.number (Integer.nearest n), cs.length - rest.length)
      | none => (.unknown, 1)
    else if isNameStart c then
      let name := cs.takeWhile isNamePart
      (.name (String.ofList name), name.length)
    else
      match spellings.find? fun (text, _) => text.toList.isPrefixOf cs with
      | some (text, token) => (token, text.length)
      | none => (.unknown, 1)

/-- The tokens of a text whose length is at most the fuel. -/
def tokens : Nat → List Char → List Token
  | 0, _ | _, [] => []
  | fuel + 1, c :: rest =>
    if c = ' ' || c = '\t' || c = '\n' then tokens fuel rest
    else
      let (token, length) := tokenAt (c :: rest)
      token :: tokens fuel ((c :: rest).drop length)

def levels : List (List Operator) := [
  [.bitOr], [.bitXor], [.bitAnd], [.equal, .unequal], [.less, .lessEqual, .greater, .greaterEqual],
  [.shiftLeft, .shiftRight], [.plus, .minus], [.times, .over, .modulo]]

abbrev Result := Except Fault (Expression × List Token)

/-- The sign that a token is in front of an operand; none is for one that changes nothing. -/
def sign? : Token → Option (Option Sign)
  | .operator .minus => some (some .minus)
  | .operator .plus => some none
  | .mark "!" => some (some .not)
  | .mark "~" => some (some .complement)
  | _ => none

mutual

def assignment : Nat → List Token → Result
  | 0, _ => .error (.expecting "primary")
  | fuel + 1, tokens =>
    match tokens with
    | .name name :: .assign operator :: rest => do
      let (value, rest) ← assignment fuel rest
      let value := match operator with
        | some operator => Expression.binary operator (.variable_ name) value
        | none => value
      return (.assign name value, rest)
    | _ => conditional fuel tokens

def conditional : Nat → List Token → Result
  | 0, _ => .error (.expecting "primary")
  | fuel + 1, tokens => do
    match ← either fuel tokens with
    | (test, .mark "?" :: rest) =>
      match ← assignment fuel rest with
      | (consequent, .mark ":" :: rest) =>
        let (alternative, rest) ← conditional fuel rest
        return (.conditional test consequent alternative, rest)
      | _ => .error (.expecting "':'")
    | result => return result

def either : Nat → List Token → Result
  | 0, _ => .error (.expecting "primary")
  | fuel + 1, tokens => do
    match ← both fuel tokens with
    | (left, .mark "||" :: rest) =>
      let (right, rest) ← either fuel rest
      return (.either left right, rest)
    | result => return result

def both : Nat → List Token → Result
  | 0, _ => .error (.expecting "primary")
  | fuel + 1, tokens => do
    match ← binary levels fuel tokens with
    | (left, .mark "&&" :: rest) =>
      let (right, rest) ← both fuel rest
      return (.both left right, rest)
    | result => return result

def binary (levels : List (List Operator)) : Nat → List Token → Result
  | 0, _ => .error (.expecting "primary")
  | fuel + 1, tokens =>
    match levels with
    | [] => operand fuel tokens
    | level :: tighter => do
      let (left, rest) ← binary tighter fuel tokens
      binaryRest level tighter left fuel rest

/-- Goes on after the left operand of operators of a level. -/
def binaryRest (level : List Operator) (tighter : List (List Operator)) (left : Expression) :
    Nat → List Token → Result
  | 0, _ => .error (.expecting "primary")
  | fuel + 1, tokens =>
    match tokens with
    | .operator operator :: rest =>
      if level.contains operator then do
        let (right, rest) ← binary tighter fuel rest
        binaryRest level tighter (.binary operator left right) fuel rest
      else .ok (left, tokens)
    | _ => .ok (left, tokens)

def operand : Nat → List Token → Result
  | 0, _ => .error (.expecting "primary")
  | fuel + 1, tokens =>
    match tokens with
    | .number n :: rest => .ok (.number n, rest)
    | .name name :: rest => .ok (.variable_ name, rest)
    | .mark "(" :: rest => do
      match ← assignment fuel rest with
      | (inside, .mark ")" :: rest) => return (inside, rest)
      | _ => .error (.expecting "')'")
    | token :: rest =>
      match sign? token with
      | some sign => do
        let (inside, rest) ← operand fuel rest
        return (match sign with
          | some sign => .signed sign inside
          | none => inside, rest)
      | none => .error (.expecting "primary")
    | [] => .error (.expecting "primary")

end

def read (text : String) : Except Fault Expression := do
  let tokens := tokens text.length text.toList
  match ← assignment (16 * tokens.length + 16) tokens with
  | (expression, []) => return expression
  | _ => .error (.expecting "EOF")

def value (value? : String → Option String) (text : String) :
    Except Fault (Int64 × Expression.Assigned) := do
  (← read text).evaluate value? []

/-- What is said of a text that has no value, unless that ends the shell by a signal. -/
def Fault.message? (text : String) : Fault → Option String
  | .expecting what => some ("arithmetic expression: expecting " ++ what ++ ": \"" ++ text ++ "\"")
  | .divisionByZero => some ("arithmetic expression: division by zero: \"" ++ text ++ "\"")
  | .illegalNumber number => some ("Illegal number: " ++ number)
  | .overflow => none

end LintRun.Shell.Arithmetic
