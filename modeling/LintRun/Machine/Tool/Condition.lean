import LintRun.Machine.Source
import LintRun.Shell.Integer

/-!
# Conditions

The tests of scripts: of texts, of numbers and of what is at a path. A test is read from the left.
What an operand means depends on the two after it, so that every text can be compared.
-/

namespace LintRun.Machine.Tool

open Exec

inductive Relation
  | texts (holds : String → String → Bool)
  | numbers (holds : Int64 → Int64 → Bool)
  | sameFile
  /-- The machine keeps no times of files, so none is older than another. -/
  | byAge

inductive Symbol
  | relation (relation : Relation)
  | property (letter : Char)
  | not
  | and
  | or
  | opening
  | closing

def Symbol.isRelation : Symbol → Bool
  | .relation _ => true
  | _ => false

def relations : List (String × Relation) := [
  ("=", .texts fun a b => a == b), ("!=", .texts fun a b => a != b),
  ("<", .texts fun a b => a < b), (">", .texts fun a b => b < a),
  ("-eq", .numbers fun a b => a == b), ("-ne", .numbers fun a b => a != b),
  ("-gt", .numbers fun a b => b < a), ("-ge", .numbers fun a b => b ≤ a),
  ("-lt", .numbers fun a b => a < b), ("-le", .numbers fun a b => a ≤ b),
  ("-ef", .sameFile), ("-nt", .byAge), ("-ot", .byAge)]

def properties : List Char := "rwxefdcbpugkstznhOGLS".toList

def symbol? (text : String) : Option Symbol :=
  match text with
  | "!" => some .not
  | "-a" => some .and
  | "-o" => some .or
  | "(" => some .opening
  | ")" => some .closing
  | _ =>
    match relations.lookup text, text.toList with
    | some relation, _ => some (.relation relation)
    | none, ['-', letter] => if properties.contains letter then some (.property letter) else none
    | none, _ => none

def isRelation (text : String) : Bool :=
  (symbol? text).any Symbol.isRelation

/-- What the first operand stands for in front of the others; none if it is just a text. -/
def leading? : List String → Option Symbol
  | [] => none
  | text :: rest =>
    match symbol? text, rest with
    | some (.property _), [] => none
    | some (.property letter), second :: _ :: _ =>
      if isRelation second then none else some (.property letter)
    | some .opening, [] => none
    | symbol, _ => symbol

inductive TestFault
  | unexpected (operand : String)
  | missingArgument (operator : String)
  | unclosed
  | illegalNumber (text : String)
  | missingBracket
  deriving DecidableEq

def TestFault.message : TestFault → String
  | .unexpected operand => operand ++ ": unexpected operator"
  | .missingArgument operator => operator ++ ": argument expected"
  | .unclosed => "closing paren expected"
  | .illegalNumber text => "Illegal number: " ++ text
  | .missingBracket => "missing ]"

/-- A number of a test has no base of its own, and must be in the range of 64 bits. -/
def number (text : String) : Except TestFault Int64 :=
  match Shell.Integer.start? (some 10) text.toList with
  | some (n, rest) =>
    if rest.all Shell.Integer.isGap && (Shell.Integer.nearest n).toInt = n then
      .ok (Shell.Integer.nearest n)
    else .error (.illegalNumber text)
  | none => .error (.illegalNumber text)

/-- The names from the root to what is at a path, if something is. -/
def place? (tree : Tree) (path : String) : Option (List String) :=
  if path == "" then none else (tree.locate (.followed path) .node).toOption

def relate (tree : Tree) (left right : String) : Relation → Except TestFault Bool
  | .texts holds => .ok (holds left right)
  | .numbers holds => do return holds (← number left) (← number right)
  | .sameFile => .ok ((place? tree left).isSome && place? tree left == place? tree right)
  | .byAge => .ok false

def nodeHas (letter : Char) : Node → Bool
  | .file content executable =>
    match letter with
    | 'd' => false
    | 's' => !content.isEmpty
    | 'x' => executable
    | _ => "efrwOG".toList.contains letter
  | .directory _ => "edsxrwOG".toList.contains letter
  | .link _ => false

def examine (tree : Tree) (letter : Char) (operand : String) : Except TestFault Bool :=
  match letter with
  | 'n' => .ok (operand != "")
  | 'z' => .ok (operand == "")
  | 't' => do
    let _ ← number operand
    return false
  | 'h' | 'L' => .ok (match (tree.locate (.followed operand) .entry).map fun names =>
      tree.root.get? names with
    | .ok (some (.link _)) => operand != ""
    | _ => false)
  | letter =>
    if (Device.at? tree operand).isSome then .ok ("cerwOG".toList.contains letter)
    else .ok (((place? tree operand).bind tree.root.get?).any (nodeHas letter))

/-- The value of a part of a test, and the operands from the last one of the part on. -/
abbrev PartialTest := Except TestFault (Bool × List String)

mutual

def anyOf (tree : Tree) (symbol : Option Symbol) (operands : List String) : Nat → PartialTest
  | 0 => .ok (false, operands)
  | fuel + 1 => do
    let (value, rest) ← allOf tree symbol operands fuel
    match leading? (rest.drop 1) with
    | some .or =>
      let rest := rest.drop 2
      let (other, rest) ← anyOf tree (leading? rest) rest fuel
      return (value || other, rest)
    | _ => return (value, rest)

def allOf (tree : Tree) (symbol : Option Symbol) (operands : List String) : Nat → PartialTest
  | 0 => .ok (false, operands)
  | fuel + 1 => do
    let (value, rest) ← negated tree symbol operands fuel
    match leading? (rest.drop 1) with
    | some .and =>
      let rest := rest.drop 2
      let (other, rest) ← allOf tree (leading? rest) rest fuel
      return (value && other, rest)
    | _ => return (value, rest)

def negated (tree : Tree) (symbol : Option Symbol) (operands : List String) : Nat → PartialTest
  | 0 => .ok (false, operands)
  | fuel + 1 =>
    match symbol with
    | some .not =>
      match operands.drop 1 with
      | [] => .ok (true, operands)
      | rest => do
        let (value, rest) ← negated tree (leading? rest) rest fuel
        return (!value, rest)
    | _ => single tree symbol operands fuel

def single (tree : Tree) (symbol : Option Symbol) (operands : List String) : Nat → PartialTest
  | 0 => .ok (false, operands)
  | fuel + 1 =>
    match symbol, operands with
    | _, [] => .ok (false, [])
    | some .opening, _ :: inside =>
      match leading? inside with
      | some .closing => .ok (false, inside)
      | symbol => do
        let (value, rest) ← anyOf tree symbol inside fuel
        match leading? (rest.drop 1) with
        | some .closing => return (value, rest.drop 1)
        | _ => .error .unclosed
    | some (.property letter), operator :: rest =>
      match rest with
      | [] => .error (.missingArgument operator)
      | operand :: _ => do return (← examine tree letter operand, rest)
    | _, left :: rest =>
      match rest, leading? rest with
      | operator :: after, some (.relation relation) =>
        match after with
        | [] => .error (.missingArgument operator)
        | right :: _ => do return (← relate tree left right relation, after)
      | _, _ => .ok (left != "", operands)

end

def evaluateFrom (tree : Tree) (symbol : Option Symbol) (operands : List String) :
    Except TestFault Bool := do
  match ← anyOf tree symbol operands (8 * operands.length + 8) with
  | (_, operand :: _ :: _) => .error (.unexpected operand)
  | (value, _) => return value

/-- Whether a test of three or four operands starts with a negation of all the others. -/
def isNegated (operands : List String) : Bool :=
  let count := operands.length
  (count = 3 || count = 4) && operands.head? == some "!" &&
    !(count = 3 && operands[1]?.any isRelation)

def unwrapped? (operands : List String) : Option (List String) :=
  let count := operands.length
  if (count = 3 || count = 4) && operands.head? == some "(" && operands.getLast? == some ")" then
    some (operands.drop 1).dropLast
  else none

/-- The value of a test without the negations in front of it. Between three operands a relation
comes first. -/
def evaluatePlain (tree : Tree) : List String → Except TestFault Bool
  | [] => .ok false
  | first :: rest =>
    let operands := first :: rest
    if operands.length = 3 && operands[1]?.any isRelation then evaluateFrom tree none operands
    else
      match unwrapped? operands with
      | some inside => evaluateFrom tree (leading? inside) inside
      | none =>
        if isNegated operands then evaluatePlain tree rest
        else evaluateFrom tree (leading? operands) operands

/-- The value of a test; negations in front of it count as one. -/
def evaluate (tree : Tree) (operands : List String) : Except TestFault Bool :=
  if isNegated operands then (evaluatePlain tree operands).map not
  else evaluatePlain tree operands

def testOperands (name : String) (arguments : List String) : Except TestFault (List String) :=
  if name != "[" then .ok arguments
  else if arguments.getLast? == some "]" then .ok arguments.dropLast
  else .error .missingBracket

def test (name : String) (arguments : List String) : Exec (Except TestFault Bool) := do
  let tree ← tree
  return (testOperands name arguments).bind (evaluate tree)

end LintRun.Machine.Tool
