import LintRun.Text.Digit

/-!
# Keys, texts and comments of a configuration document

Each reader takes its lexeme off the front of the document and gives what follows it, or nothing
if the document does not start with such a lexeme. A reader with fuel never uses more of it than
there are characters.
-/

namespace LintRun.Toml

abbrev Reader (α : Type) := List Char → Option (α × List Char)

def isSpace (c : Char) : Bool := c == ' ' || c == '\t'

def isSpaceOrNewline (c : Char) : Bool := isSpace c || c == '\n'

def skipSpace (cs : List Char) : List Char := cs.dropWhile isSpace

/-- Characters that may not stand in a text or a comment; texts of several lines have newlines. -/
def isControl (c : Char) : Bool := (c.toNat < 32 && c != '\t') || c.toNat == 127

def isKeyChar (c : Char) : Bool := c.isAlphanum || c == '-' || c == '_'

def skipComment? : List Char → Option (List Char)
  | '#' :: rest =>
    if (rest.takeWhile (· != '\n')).any isControl then none else some (rest.dropWhile (· != '\n'))
  | cs => some cs

def skipBlank? : Nat → List Char → Option (List Char)
  | 0, cs => some cs
  | fuel + 1, cs =>
    match cs.dropWhile isSpaceOrNewline with
    | '#' :: rest => (skipComment? ('#' :: rest)).bind (skipBlank? fuel)
    | rest => some rest

def codePoint? (width : Nat) : Reader Char := fun cs =>
  let digits := cs.take width
  let isHex (c : Char) : Bool := c.isDigit || ('a' ≤ c.toLower && c.toLower ≤ 'f')
  if digits.length = width ∧ digits.all isHex then
    let value := digits.foldl (fun value c =>
      16 * value + if c.isDigit then c.toNat - 48 else c.toLower.toNat - 87) 0
    if value < 0xd800 || (0xe000 ≤ value && value < 0x110000) then
      some (Char.ofNat value, cs.drop width)
    else none
  else none

/-- What a backslash and the characters after it stand for. -/
def escape? : Reader Char
  | 'b' :: rest => some ('\x08', rest)
  | 't' :: rest => some ('\t', rest)
  | 'n' :: rest => some ('\n', rest)
  | 'f' :: rest => some ('\x0c', rest)
  | 'r' :: rest => some ('\r', rest)
  | '"' :: rest => some ('"', rest)
  | '\\' :: rest => some ('\\', rest)
  | 'u' :: rest => codePoint? 4 rest
  | 'U' :: rest => codePoint? 8 rest
  | _ => none

def andThen (c : Char) (rest : Option (List Char × List Char)) : Option (List Char × List Char) :=
  rest.map fun (cs, rest) => (c :: cs, rest)

def basic? : Nat → Reader (List Char)
  | 0, _ => none
  | _, [] => none
  | _, '"' :: rest => some ([], rest)
  | fuel + 1, '\\' :: rest => (escape? rest).bind fun (c, rest) => andThen c (basic? fuel rest)
  | fuel + 1, c :: rest => if isControl c then none else andThen c (basic? fuel rest)

/-- What follows a backslash at the end of a line: the next character that is no space. -/
def continueLine? (cs : List Char) : Option (List Char) :=
  match skipSpace cs with
  | '\n' :: rest => some (rest.dropWhile isSpaceOrNewline)
  | _ => none

/-- The rest of a text in three double quotes, up to the first three of them. -/
def basicLines? : Nat → Reader (List Char)
  | 0, _ => none
  | _, [] => none
  | _, '"' :: '"' :: '"' :: rest => some ([], rest)
  | fuel + 1, '\\' :: c :: rest =>
    if isSpaceOrNewline c then (continueLine? (c :: rest)).bind (basicLines? fuel)
    else (escape? (c :: rest)).bind fun (c, rest) => andThen c (basicLines? fuel rest)
  | fuel + 1, c :: rest =>
    if c = '\\' || (isControl c && c != '\n') then none else andThen c (basicLines? fuel rest)

def literal? : Reader (List Char)
  | [] => none
  | '\'' :: rest => some ([], rest)
  | c :: rest => if isControl c then none else andThen c (literal? rest)

def literalLines? : Reader (List Char)
  | [] => none
  | '\'' :: '\'' :: '\'' :: rest => some ([], rest)
  | c :: rest => if isControl c && c != '\n' then none else andThen c (literalLines? rest)

/-- Up to two more quotes after the closing ones belong to the text. -/
def moreQuotes (quote : Char) (cs : List Char) : Reader (List Char) := fun rest =>
  let count := ((rest.take 2).takeWhile (· == quote)).length
  some (cs ++ List.replicate count quote, rest.drop count)

/-- A newline right after three opening quotes is no part of the text. -/
def dropFirstNewline : List Char → List Char
  | '\n' :: rest => rest
  | cs => cs

def text? : Reader (List Char)
  | '"' :: '"' :: '"' :: rest =>
    (basicLines? rest.length (dropFirstNewline rest)).bind fun (cs, rest) => moreQuotes '"' cs rest
  | '"' :: rest => basic? rest.length rest
  | '\'' :: '\'' :: '\'' :: rest =>
    (literalLines? (dropFirstNewline rest)).bind fun (cs, rest) => moreQuotes '\'' cs rest
  | '\'' :: rest => literal? rest
  | _ => none

def name? : Reader String
  | '"' :: rest => (basic? rest.length rest).map fun (cs, rest) => (String.ofList cs, rest)
  | '\'' :: rest => (literal? rest).map fun (cs, rest) => (String.ofList cs, rest)
  | cs =>
    let name := cs.takeWhile isKeyChar
    if name.isEmpty then none else some (String.ofList name, cs.dropWhile isKeyChar)

/-- The names of a key, with dots between them, and the spaces after it. -/
def key? : Nat → Reader (List String)
  | 0, _ => none
  | fuel + 1, cs =>
    (name? cs).bind fun (name, rest) =>
      match skipSpace rest with
      | '.' :: rest => (key? fuel (skipSpace rest)).map fun (names, rest) => (name :: names, rest)
      | rest => some ([name], rest)

end LintRun.Toml
