import LintRun.Shell.Words

/-!
# Patterns

A star matches any text, a question mark one character, and brackets one of a set of characters.
What a quotation keeps stands for itself.
-/

namespace LintRun.Shell.Pattern

inductive Member
  | range (low high : Char)
  | named (name : String)
  deriving DecidableEq

def isBlank (c : Char) : Bool := c == ' ' || c == '\t'

def isSpace (c : Char) : Bool := c == ' ' || (9 ≤ c.toNat && c.toNat ≤ 13)

def isPunctuation (c : Char) : Bool := 32 < c.toNat && c.toNat < 127 && !c.isAlphanum

/-- Whether a character is in a class; none is in a class that does not exist. -/
def isIn (c : Char) (name : String) : Bool :=
  match name with
  | "alnum" => c.isAlphanum
  | "alpha" => c.isAlpha
  | "blank" => isBlank c
  | "cntrl" => c.toNat < 32 || c.toNat = 127
  | "digit" => c.isDigit
  | "graph" => 32 < c.toNat && c.toNat < 127
  | "lower" => c.isLower
  | "print" => 32 ≤ c.toNat && c.toNat < 127
  | "punct" => isPunctuation c
  | "space" => isSpace c
  | "upper" => c.isUpper
  | "xdigit" => c.isDigit || ('a' ≤ c.toLower && c.toLower ≤ 'f')
  | _ => false

def Member.has (c : Char) : Member → Bool
  | .range low high => low ≤ c && c ≤ high
  | .named name => isIn c name

/-- The member that a character and what follows it start with, and what comes after that. -/
def memberAt (first : Marked) (rest : Word) : Member × Word :=
  match rest with
  | ⟨'-', false⟩ :: last :: more =>
    if last = ⟨']', false⟩ then (.range first.char first.char, rest)
    else (.range first.char last.char, more)
  | _ => (.range first.char first.char, rest)

def class? (rest : Word) : Option (Member × Word) :=
  match rest with
  | ⟨':', false⟩ :: inside =>
    let name := inside.takeWhile fun marked => marked.char.isAlpha
    match inside.drop name.length with
    | ⟨':', false⟩ :: ⟨']', false⟩ :: after => some (.named (Word.text name), after)
    | _ => none
  | _ => none

/-- The members up to a closing bracket, and the pattern after it; the fuel bounds their number. -/
def members? : Nat → Word → Option (List Member × Word)
  | 0, _ | _, [] => none
  | fuel + 1, marked :: rest =>
    if marked = ⟨']', false⟩ then some ([], rest)
    else
      let (member, rest) :=
        ((if marked = ⟨'[', false⟩ then class? rest else none)).getD (memberAt marked rest)
      (members? fuel rest).map fun (members, after) => (member :: members, after)

/-- Whether brackets that were just opened list what does not match, their members, and the pattern
after them. A closing bracket in front is a member. -/
def bracket? (pattern : Word) : Option (Bool × List Member × Word) :=
  let (isNegated, inside) := match pattern with
    | ⟨'!', false⟩ :: rest => (true, rest)
    | _ => (false, pattern)
  match inside with
  | ⟨']', false⟩ :: rest =>
    let (member, rest) := memberAt ⟨']', false⟩ rest
    (members? pattern.length rest).map fun (members, after) => (isNegated, member :: members, after)
  | _ => (members? pattern.length inside).map fun (members, after) => (isNegated, members, after)

def isMatch : Word → List Char → Bool
  | [], cs => cs.isEmpty
  | marked :: rest, cs =>
    if marked = ⟨'*', false⟩ then
      isMatch rest cs ||
        match cs with
        | [] => false
        | _ :: tail => isMatch (marked :: rest) tail
    else
      match cs with
      | [] => false
      | c :: tail =>
        if marked = ⟨'?', false⟩ then isMatch rest tail
        else
          match if marked = ⟨'[', false⟩ then bracket? rest else none with
          | some (isNegated, members, after) =>
            members.any (Member.has c) != isNegated && isMatch after tail
          | none => marked.char == c && isMatch rest tail
termination_by pattern cs => (cs.length, pattern.length)

def isActive (pattern : Word) : Bool :=
  pattern.any fun marked => !marked.kept && "*?[".toList.contains marked.char

end LintRun.Shell.Pattern
