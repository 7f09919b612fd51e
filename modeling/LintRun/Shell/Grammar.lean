import LintRun.Shell.Script
import LintRun.Shell.Words

/-!
# The grammar of the shell

`nextScript` reads the commands up to the end of a line, which the shell runs before it reads on.
The readers take characters off the text in front of them and fail where it is no script. Their fuel
bounds how deep they call each other and is never used up by a text that it was made for.
-/

namespace LintRun.Shell

structure SyntaxFault where
  message : String
  line : Nat

/-- The whole text that is read, and how much of it follows the part that is being read. -/
structure Setting where
  source : List Char
  after : Nat := 0

def Setting.line (setting : Setting) (left : Nat) : Nat :=
  (setting.source.take (setting.source.length - setting.after - left)).count '\n' + 1

abbrev Reader := ReaderT Setting (StateT (List Char) (Except SyntaxFault))

namespace Reader

def endsWord (c : Char) : Bool :=
  isSeparator c || "\n;&|<>()".toList.contains c

def startsQuote (c : Char) : Bool :=
  "\\'\"$`".toList.contains c

def look : Reader (List Char) := get

def line : Reader Nat :=
  return (← read).line (← look).length

def drop (count : Nat) : Reader Unit := modify (List.drop count)

def accept (text : String) : Reader Bool := do
  let cs ← get
  if text.toList.isPrefixOf cs then
    drop text.length
    return true
  else return false

def fail {α : Type} (message : String) : Reader α := do
  throw ⟨message, ← line⟩

def failAtEnd {α : Type} (message : String) : Reader α := do
  set ([] : List Char)
  fail message

/-- Reads another text, before which the reader goes on with `rest`. -/
def within {α : Type} (text rest : List Char) (reader : Reader α) : Reader α := do
  set text
  let result ← withReader (fun setting => { setting with after := setting.after + rest.length })
    reader
  set rest
  return result

def outOfFuel {α : Type} : Reader α := fail "Too deep"

def takeRun (p : Char → Bool) : Reader String := do
  let cs ← get
  set (cs.dropWhile p)
  return String.ofList (cs.takeWhile p)

/-- Skips separators, escaped newlines and a comment. -/
def skipSeparators : List Char → List Char
  | '\\' :: '\n' :: rest => skipSeparators rest
  | c :: rest =>
    if isSeparator c then skipSeparators rest
    else if c = '#' then rest.dropWhile (· != '\n')
    else c :: rest
  | [] => []

/-- Skips separators, comments and ends of lines. -/
def skipLines : List Char → List Char
  | '\\' :: '\n' :: rest => skipLines rest
  | c :: rest =>
    if isSeparator c || c = '\n' then skipLines rest
    else if c = '#' then skipComment rest
    else c :: rest
  | [] => []
where
  skipComment : List Char → List Char
    | '\n' :: rest => skipLines rest
    | _ :: rest => skipComment rest
    | [] => []

def separators : Reader Unit := modify skipSeparators

def newlines : Reader Unit := modify skipLines

/-- The bare word that comes next, if what comes next is one. -/
def bareWord? (cs : List Char) : Option String :=
  let run := cs.takeWhile fun c => !endsWord c && !startsQuote c
  match cs.drop run.length with
  | [] => some (String.ofList run)
  | c :: _ => if endsWord c then some (String.ofList run) else none

def acceptWord (word : String) : Reader Bool := do
  separators
  let cs ← get
  if bareWord? cs = some word then
    drop word.length
    return true
  else return false

def operators : List String := ["&&", "||", ";;", ";", "&", "|", "(", ")"]

def dropOperator : Reader Unit := do
  let cs ← look
  drop (((operators.find? fun text => text.toList.isPrefixOf cs).map String.length).getD 1)

def endsCommands (cs : List Char) : Bool :=
  match cs with
  | ')' :: _ | ';' :: ';' :: _ => true
  | _ => (bareWord? cs).any endingWords.contains

/-- What the text goes on with, as it is called in a message. Not everywhere is a word looked at for
being reserved. -/
def nextToken (findsReserved : Bool) (cs : List Char) : String :=
  match cs with
  | [] => "end of file"
  | '\n' :: _ => "newline"
  | '<' :: _ | '>' :: _ => "redirection"
  | _ =>
    match operators.find? fun text => text.toList.isPrefixOf cs with
    | some text => "\"" ++ text ++ "\""
    | none =>
      match bareWord? cs with
      | some word =>
        if findsReserved && reservedWords.contains word then "\"" ++ word ++ "\"" else "word"
      | none => "word"

/-- Fails because of what the text goes on with; `wanted` is what should have come instead. -/
def unexpectedToken {α : Type} (findsReserved : Bool) (wanted : Option String) : Reader α := do
  separators
  fail ("Syntax error: " ++ nextToken findsReserved (← look) ++ " unexpected" ++
    wanted.elim "" fun wanted => " (expecting " ++ wanted ++ ")")

def tokenName (text : String) : String := "\"" ++ text ++ "\""

def unexpected {α : Type} (wanted : Option String) : Reader α :=
  unexpectedToken true (wanted.map tokenName)

def badFunction {α : Type} : Reader α := fail "Syntax error: Bad function name"

def require (text : String) : Reader Unit := do
  if ← accept text then return else unexpected (some text)

def requireClosing : Reader Unit := do
  separators
  if ← accept ")" then return else unexpectedToken false (some (tokenName ")"))

def requireWord (word : String) : Reader Unit := do
  newlines
  if ← acceptWord word then return else unexpected (some word)

def closeQuote (quote : String) : Reader Unit := do
  if ← accept quote then return else fail "Syntax error: Unterminated quoted string"

def closeParameter (quoted : Bool) : Reader Unit := do
  if ← accept closeBrace then return
  else if quoted then fail "Syntax error: Unterminated quoted string"
  else fail "Syntax error: Missing '\x7d'"

/-- The text of an arithmetic expression in which so many parentheses are open, and what follows the
two that close it. -/
def arithmeticText? : Nat → List Char → Option (List Char × List Char)
  | _, [] => none
  | 0, ')' :: ')' :: rest => some ([], rest)
  | depth, c :: rest =>
    let depth := if c = '(' then depth + 1 else if c = ')' then depth - 1 else depth
    (arithmeticText? depth rest).map fun (inside, after) => (c :: inside, after)

def isSpecialParameter (c : Char) : Bool :=
  "@*#?$!-".toList.contains c

/-- A variable's name, a digit of a parameter's number or a special parameter. -/
def parameterName? : List Char → Option String
  | [] => none
  | c :: rest =>
    if isNameStart c then some (String.ofList (c :: rest.takeWhile isNamePart))
    else if c.isDigit || isSpecialParameter c then some c.toString
    else none

/-- The same between braces, where a number may have several digits. -/
def bracedName? (cs : List Char) : Option String :=
  let digits := cs.takeWhile Char.isDigit
  if digits.isEmpty then parameterName? cs else some (String.ofList digits)

/-- The parameter whose length is asked for, if what follows its sign is all that is between the
braces. -/
def measured? (cs : List Char) : Option String :=
  (bracedName? cs).bind fun name =>
    if (cs.drop name.length).head? = some '}' then some name else none

def fallback? : List Char → Option (Bool × Fallback × Nat)
  | ':' :: '-' :: _ => some (true, .value, 2)
  | ':' :: '=' :: _ => some (true, .assign, 2)
  | ':' :: '?' :: _ => some (true, .complain, 2)
  | ':' :: '+' :: _ => some (true, .alternative, 2)
  | '-' :: _ => some (false, .value, 1)
  | '=' :: _ => some (false, .assign, 1)
  | '?' :: _ => some (false, .complain, 1)
  | '+' :: _ => some (false, .alternative, 1)
  | _ => none

def trimming? : List Char → Option (Trimming × Nat)
  | '#' :: '#' :: _ => some (.start true, 2)
  | '#' :: _ => some (.start false, 1)
  | '%' :: '%' :: _ => some (.stop true, 2)
  | '%' :: _ => some (.stop false, 1)
  | _ => none

def toBackquote? : List Char → Option (List Char × List Char)
  | [] => none
  | '`' :: rest => some ([], rest)
  | '\\' :: c :: rest =>
    (toBackquote? rest).map fun (body, after) =>
      (if c = '`' || c = '\\' || c = '$' then (c :: body, after) else ('\\' :: c :: body, after))
  | c :: rest => (toBackquote? rest).map fun (body, after) => (c :: body, after)

def descriptorOf (usual : Nat) (digits : List Char) : Nat :=
  if digits.isEmpty then usual else digits.foldl (fun n c => 10 * n + (c.toNat - 48)) 0

/-- The redirection operator that comes next, with the descriptor it is for. -/
def operator? (cs : List Char) : Option (Nat × RedirectionKind × Nat) :=
  let digits := cs.takeWhile Char.isDigit
  let make (usual : Nat) (kind : RedirectionKind) (width : Nat) :=
    some (descriptorOf usual digits, kind, digits.length + width)
  match cs.drop digits.length with
  | '>' :: '>' :: _ => make 1 .append 2
  | '>' :: '&' :: _ => make 1 .duplicate 2
  | '>' :: '|' :: _ => make 1 .overwrite 2
  | '>' :: _ => make 1 .output 1
  | '<' :: '<' :: _ => none
  | '<' :: '&' :: _ => make 0 .duplicate 2
  | '<' :: _ => make 0 .input 1
  | _ => none

/-- The descriptor of a text in the script whose operator comes next, and how long that is. -/
def here? (cs : List Char) : Option (Nat × Nat) :=
  let digits := cs.takeWhile Char.isDigit
  match cs.drop digits.length with
  | '<' :: '<' :: _ => some (descriptorOf 0 digits, digits.length + 2)
  | _ => none

/-- The lines up to one that is the delimiter, and what follows that. -/
def hereLines (isIndented : Bool) (delimiter : List Char) :
    Nat → List Char → List Char × List Char
  | 0, cs => (cs, [])
  | _ + 1, [] => ([], [])
  | fuel + 1, cs =>
    let cs := if isIndented then cs.dropWhile (· == '\t') else cs
    let line := cs.takeWhile (· != '\n')
    let after := cs.drop (line.length + 1)
    if line = delimiter then ([], after)
    else if line.length = cs.length then (line, [])
    else
      let (more, rest) := hereLines isIndented delimiter fuel after
      (line ++ '\n' :: more, rest)

/-- The word that ends a text in the script without its quotes, whether it has some, and what
follows it. -/
def hereDelimiter : Option Char → List Char → List Char × Bool × List Char
  | _, [] => ([], false, [])
  | some quote, c :: rest =>
    let (word, isKept, rest) := hereDelimiter (if c = quote then none else some quote) rest
    (if c = quote then word else c :: word, isKept, rest)
  | none, c :: rest =>
    if endsWord c then ([], false, c :: rest)
    else if c = '\'' || c = '"' then
      let (word, _, rest) := hereDelimiter (some c) rest
      (word, true, rest)
    else
      let (word, isKept, rest) := hereDelimiter none rest
      if c = '\\' then (word, true, rest) else (c :: word, isKept, rest)

/-- Takes the text that a redirection has after its line, and gives it with whether it is to be
taken as it stands. -/
def takeHere : Reader (List Char × Bool) := do
  let isIndented ← accept "-"
  separators
  let cs ← look
  if (cs.head?.map endsWord).getD true then unexpected none
  let (delimiter, isKept, cs) := hereDelimiter none cs
  let line := cs.takeWhile (· != '\n')
  let after := cs.drop (line.length + 1)
  let (text, rest) := hereLines isIndented delimiter after.length after
  set (if line.length < cs.length then line ++ '\n' :: rest else line)
  return (text, isKept)

def assigned? (cs : List Char) : Option String :=
  let name := cs.takeWhile isNamePart
  match name, cs.drop name.length with
  | c :: _, '=' :: _ => if isNameStart c then some (String.ofList name) else none
  | _, _ => none

/-- The user whose home directory a text starts with, and what follows; the name may end a word. -/
def home? (isAssigned isAlone : Bool) (text : String) : Option (String × String) :=
  match text.toList with
  | '~' :: rest =>
    let user := rest.takeWhile fun c => c != '/' && !(isAssigned && c == ':')
    if isAlone || user.length < rest.length then
      some (String.ofList user, String.ofList (rest.drop user.length))
    else none
  | _ => none

/-- A part of a word without quotes, in which home directories are told apart. They stand at the
start of the word, in what is assigned also after a colon. -/
def homesIn (isAssigned isFirst isLast : Bool) (text : String) : List Piece :=
  let parts := if isAssigned then (text.toList.splitOn ':').map String.ofList else [text]
  parts.zipIdx.flatMap fun (part, i) =>
    let isAlone := isLast || i + 1 < parts.length
    let found := if isFirst || 0 < i then home? isAssigned isAlone part else none
    (if 0 < i then [.plain ":"] else []) ++
      match found with
      | some (user, "") => [.home user]
      | some (user, rest) => [.home user, .plain rest]
      | none => [.plain part]

def withHomes (isAssigned : Bool) (word : List Piece) : List Piece :=
  word.zipIdx.flatMap fun (piece, i) =>
    match piece with
    | .plain text => homesIn isAssigned (i == 0) (i + 1 == word.length) text
    | piece => [piece]

def assigningCommands : List String := ["export", "local", "readonly"]

def isAssigning : List Piece → Bool
  | [.plain name] => assigningCommands.contains name
  | _ => false

/-- The name of a function whose definition comes next, and the text after the parentheses. -/
def defined? (cs : List Char) : Option (String × List Char) :=
  let name := cs.takeWhile isNamePart
  match name, skipSeparators (cs.drop name.length) with
  | c :: _, '(' :: rest =>
    match skipSeparators rest with
    | ')' :: rest => if isNameStart c then some (String.ofList name, rest) else none
    | _ => none
  | _, _ => none

mutual

/-- Pieces up to a character in `stop` outside quotes, or to the end. -/
def pieces (stop : Char → Bool) : Nat → Reader (List Piece)
  | 0 => outOfFuel
  | fuel + 1 => do
    match ← look with
    | [] => return []
    | c :: rest =>
      if stop c then return []
      else if c = '\\' then
        match rest with
        | [] =>
          drop 1
          return [.quoted "\\"]
        | '\n' :: _ =>
          drop 2
          pieces stop fuel
        | kept :: _ =>
          drop 2
          return .quoted kept.toString :: (← pieces stop fuel)
      else if c = '\'' then
        drop 1
        let text ← takeRun (· != '\'')
        closeQuote "'"
        return .quoted text :: (← pieces stop fuel)
      else if c = '"' then
        drop 1
        let inside ← quotedPieces false (· == '"') fuel
        closeQuote "\""
        let inside := if inside.isEmpty then [.quoted ""] else inside
        return inside ++ (← pieces stop fuel)
      else if c = '$' then
        drop 1
        let piece ← expansion false fuel
        return piece :: (← pieces stop fuel)
      else if c = '`' then
        drop 1
        let piece ← backquoted false fuel
        return piece :: (← pieces stop fuel)
      else
        let text ← takeRun fun c => !stop c && !startsQuote c
        return .plain text :: (← pieces stop fuel)

/-- Pieces between double quotes, up to a character in `stop`. Further double quotes may be of no
account. -/
def quotedPieces (skipsQuotes : Bool) (stop : Char → Bool) : Nat → Reader (List Piece)
  | 0 => outOfFuel
  | fuel + 1 => do
    match ← look with
    | [] => return []
    | c :: rest =>
      if stop c then return []
      else if skipsQuotes && c = '"' then
        drop 1
        quotedPieces skipsQuotes stop fuel
      else if c = '\\' then
        match rest with
        | '\n' :: _ =>
          drop 2
          quotedPieces skipsQuotes stop fuel
        | kept :: _ =>
          if isKeptInDouble kept then
            drop 2
            return .quoted kept.toString :: (← quotedPieces skipsQuotes stop fuel)
          else
            drop 1
            return .quoted "\\" :: (← quotedPieces skipsQuotes stop fuel)
        | [] =>
          drop 1
          return [.quoted "\\"]
      else if c = '$' then
        drop 1
        let piece ← expansion true fuel
        return piece :: (← quotedPieces skipsQuotes stop fuel)
      else if c = '`' then
        drop 1
        let piece ← backquoted true fuel
        return piece :: (← quotedPieces skipsQuotes stop fuel)
      else
        let text ← takeRun fun c =>
          !stop c && c != '\\' && c != '$' && c != '`' && !(skipsQuotes && c == '"')
        return .quoted text :: (← quotedPieces skipsQuotes stop fuel)

def expansion (quoted : Bool) : Nat → Reader Piece
  | 0 => outOfFuel
  | fuel + 1 => do
    let cs ← look
    if ← accept "((" then
      let some (inside, rest) := arithmeticText? 0 (← look)
        | failAtEnd "Syntax error: Missing '))'"
      let expression ← within inside rest (quotedPieces false (fun _ => false) fuel)
      return .arithmetic expression quoted
    else if ← accept "(" then
      let body ← commands true fuel
      require ")"
      return .output (.sequence body) quoted
    else if ← accept openBrace then
      braced quoted fuel
    else
      match parameterName? cs with
      | some name =>
        drop name.length
        return .parameter name quoted
      | none => return if quoted then .quoted "$" else .plain "$"

def braced (quoted : Bool) : Nat → Reader Piece
  | 0 => outOfFuel
  | fuel + 1 => do
    let isEnd (c : Char) : Bool := c == '}'
    let word : Reader (List Piece) :=
      if quoted then quotedPieces true isEnd fuel else pieces isEnd fuel
    let bad : Reader Piece := do
      let _ ← word
      closeParameter quoted
      return .badSubstitution
    let cs ← look
    match cs, measured? (cs.drop 1), bracedName? cs with
    | '#' :: _, some name, _ =>
      drop (name.length + 2)
      return .length name
    | _, _, none => bad
    | _, _, some name =>
      drop name.length
      let rest ← look
      match fallback? rest, trimming? rest, rest with
      | some (emptyCounts, kind, width), _, _ =>
        drop width
        let word ← word
        closeParameter quoted
        return .fallback name kind emptyCounts word quoted
      | none, some (trimming, width), _ =>
        drop width
        let pattern ← pieces isEnd fuel
        closeParameter quoted
        return .trimmed name trimming pattern quoted
      | _, _, '}' :: _ =>
        drop 1
        return .parameter name quoted
      | _, _, ':' :: '}' :: _ =>
        drop 2
        bad
      | _, _, _ => bad

def backquoted (quoted : Bool) : Nat → Reader Piece
  | 0 => outOfFuel
  | fuel + 1 => do
    let some (body, rest) := toBackquote? (← look)
      | failAtEnd "Syntax error: EOF in backquote substitution"
    let body ← within body rest (commands true fuel)
    return .output (.sequence body) quoted

/-- Commands up to what cannot go on with them, or the end of the text. -/
def commands (mayBeEmpty : Bool) : Nat → Reader (List Script)
  | 0 => outOfFuel
  | fuel + 1 => do
    newlines
    let cs ← look
    if cs.isEmpty || (mayBeEmpty && endsCommands cs) then return []
    let first ← andOr fuel
    separators
    match ← look with
    | ';' :: ';' :: _ => return [first]
    | ';' :: _ | '\n' :: _ =>
      drop 1
      return first :: (← commands true fuel)
    | '&' :: _ =>
      drop 1
      return .background first :: (← commands true fuel)
    | _ => return [first]

def andOr : Nat → Reader Script
  | 0 => outOfFuel
  | fuel + 1 => do
    andOrAfter (← pipeline fuel) fuel

def andOrAfter (first : Script) : Nat → Reader Script
  | 0 => outOfFuel
  | fuel + 1 => do
    separators
    if ← accept "&&" then
      newlines
      andOrAfter (.both first (← pipeline fuel)) fuel
    else if ← accept "||" then
      newlines
      andOrAfter (.either first (← pipeline fuel)) fuel
    else return first

def pipeline : Nat → Reader Script
  | 0 => outOfFuel
  | fuel + 1 => do
    let negated ← acceptWord "!"
    let first ← command fuel
    let rest ← pipelineRest fuel
    let whole := if rest.isEmpty then first else .pipeline (first :: rest)
    return if negated then .negated whole else whole

def pipelineRest : Nat → Reader (List Script)
  | 0 => outOfFuel
  | fuel + 1 => do
    separators
    match ← look with
    | '|' :: '|' :: _ => return []
    | '|' :: _ =>
      drop 1
      newlines
      let next ← command fuel
      return next :: (← pipelineRest fuel)
    | _ => return []

def command : Nat → Reader Script
  | 0 => outOfFuel
  | fuel + 1 => do
    separators
    if ← accept "(" then
      let body ← commands false fuel
      require ")"
      withRedirections (.subshell (.sequence body)) fuel
    else if ← acceptWord openBrace then
      let body ← commands false fuel
      requireWord closeBrace
      withRedirections (.sequence body) fuel
    else if ← acceptWord "if" then
      let script ← conditional fuel
      withRedirections script fuel
    else if ← acceptWord "while" then
      let script ← loop false fuel
      withRedirections script fuel
    else if ← acceptWord "until" then
      let script ← loop true fuel
      withRedirections script fuel
    else if ← acceptWord "for" then
      let script ← each fuel
      withRedirections script fuel
    else if ← acceptWord "case" then
      separators
      let subject ← pieces endsWord fuel
      if subject.isEmpty then unexpectedToken true (some "word")
      requireWord "in"
      let cases ← caseItems fuel
      requireWord "esac"
      withRedirections (.choose (withHomes false subject) cases) fuel
    else
      let cs ← look
      match defined? cs with
      | some (name, rest) =>
        if specialCommands.contains name then badFunction
        set rest
        newlines
        return .define name (← command fuel)
      | none =>
        if ((bareWord? cs).any reservedWords.contains) then unexpected none
        simple (← line) [] [] [] fuel

def conditional : Nat → Reader Script
  | 0 => outOfFuel
  | fuel + 1 => do
    let test ← commands false fuel
    requireWord "then"
    let consequent ← commands false fuel
    newlines
    if ← acceptWord "elif" then
      return .conditional (.sequence test) (.sequence consequent) (← conditional fuel)
    else if ← acceptWord "else" then
      let alternative ← commands false fuel
      requireWord "fi"
      return .conditional (.sequence test) (.sequence consequent) (.sequence alternative)
    else
      requireWord "fi"
      return .conditional (.sequence test) (.sequence consequent) (.sequence [])

def loop (untilSuccess : Bool) : Nat → Reader Script
  | 0 => outOfFuel
  | fuel + 1 => do
    let test ← commands false fuel
    requireWord "do"
    let body ← commands false fuel
    requireWord "done"
    return .loop untilSuccess (.sequence test) (.sequence body)

def each : Nat → Reader Script
  | 0 => outOfFuel
  | fuel + 1 => do
    separators
    let name ← takeRun isNamePart
    if !isName name.toList then fail "Syntax error: Bad for loop variable"
    newlines
    let words ← if ← acceptWord "in" then some <$> wordList fuel else pure none
    separators
    if !(← accept ";") && words.isSome && (← look).head? != some '\n' then unexpected none
    requireWord "do"
    let body ← commands false fuel
    requireWord "done"
    return .each name words (.sequence body)

def wordList : Nat → Reader (List (List Piece))
  | 0 => outOfFuel
  | fuel + 1 => do
    separators
    match ← look with
    | [] => return []
    | c :: _ =>
      if endsWord c then return []
      else
        let word ← pieces endsWord fuel
        return withHomes false word :: (← wordList fuel)

def caseItems : Nat → Reader (List (List (List Piece) × Script))
  | 0 => outOfFuel
  | fuel + 1 => do
    newlines
    let cs ← look
    if bareWord? cs = some "esac" then return []
    let _ ← accept "("
    let patterns ← casePatterns fuel
    requireClosing
    let body ← commands true fuel
    newlines
    if ← accept ";;" then
      return (patterns, .sequence body) :: (← caseItems fuel)
    else if bareWord? (← look) = some "esac" then return [(patterns, .sequence body)]
    else unexpected (some ";;")

def casePatterns : Nat → Reader (List (List Piece))
  | 0 => outOfFuel
  | fuel + 1 => do
    separators
    let pattern ← pieces endsWord fuel
    if pattern.isEmpty then dropOperator
    separators
    if ← accept "|" then return pattern :: (← casePatterns fuel) else return [pattern]

def redirection? : Nat → Reader (Option Redirection)
  | 0 => outOfFuel
  | fuel + 1 => do
    separators
    if let some (descriptor, width) := here? (← look) then
      drop width
      let (text, isKept) ← takeHere
      if isKept then return some (.mk descriptor .here [.quoted (String.ofList text)])
      let target ← within text (← look) (quotedPieces false (fun _ => false) fuel)
      return some (.mk descriptor .here target)
    match operator? (← look) with
    | none => return none
    | some (descriptor, kind, width) =>
      drop width
      separators
      let target ← pieces endsWord fuel
      if target.isEmpty then unexpected none
      return some (.mk descriptor kind (withHomes false target))

def redirections : Nat → Reader (List Redirection)
  | 0 => outOfFuel
  | fuel + 1 => do
    match ← redirection? fuel with
    | none => return []
    | some redirection => return redirection :: (← redirections fuel)

def withRedirections (body : Script) : Nat → Reader Script
  | 0 => outOfFuel
  | fuel + 1 => do
    let redirections ← redirections fuel
    return if redirections.isEmpty then body else .redirected body redirections

/-- A simple command that starts in a line; what was read of it is given backwards. -/
def simple (line : Nat) (assignments : List (String × List Piece)) (words : List (List Piece))
    (redirections : List Redirection) : Nat → Reader Script
  | 0 => outOfFuel
  | fuel + 1 => do
    match ← redirection? fuel with
    | some redirection => simple line assignments words (redirection :: redirections) fuel
    | none =>
      let cs ← look
      match cs with
      | [] => finish
      | c :: _ =>
        if endsWord c then
          if c = '(' && words.length = 1 && assignments.isEmpty && redirections.isEmpty then
            drop 1
            requireClosing
            badFunction
          else finish
        else
          match assigned? cs, words.getLast? with
          | some name, none =>
            drop (name.length + 1)
            let value ← pieces endsWord fuel
            simple line ((name, withHomes true value) :: assignments) words redirections fuel
          | some name, some command =>
            if isAssigning command then
              drop (name.length + 1)
              let value ← pieces endsWord fuel
              simple line assignments ([.assigned name (withHomes true value)] :: words)
                redirections fuel
            else
              let word ← pieces endsWord fuel
              simple line assignments (withHomes false word :: words) redirections fuel
          | none, _ =>
            let word ← pieces endsWord fuel
            simple line assignments (withHomes false word :: words) redirections fuel
where
  finish : Reader Script :=
    if assignments.isEmpty && words.isEmpty && redirections.isEmpty then unexpected none
    else return .simple line assignments.reverse words.reverse redirections.reverse

end

end Reader

def lineCommands (fuel : Nat) : Nat → Reader (List Script)
  | 0 => Reader.outOfFuel
  | count + 1 => do
    Reader.separators
    match ← get with
    | [] => return []
    | '\n' :: _ =>
      Reader.drop 1
      return []
    | _ =>
      let first ← Reader.andOr fuel
      Reader.separators
      match ← get with
      | ';' :: ';' :: _ => Reader.unexpected none
      | ';' :: _ =>
        Reader.drop 1
        return first :: (← lineCommands fuel count)
      | '&' :: _ =>
        Reader.drop 1
        return .background first :: (← lineCommands fuel count)
      | '\n' :: _ =>
        Reader.drop 1
        return [first]
      | [] => return [first]
      | _ => Reader.unexpected none

/-- The commands on the next line that has some of a part at the end of a source, and the text after
them. -/
def nextScript (source text : List Char) : Except SyntaxFault (Script × List Char) :=
  let text := Reader.skipLines text
  let fuel := 8 * text.length + 16
  (((lineCommands fuel fuel).run { source }).run text).map fun (parts, rest) =>
    (.sequence parts, rest)

end LintRun.Shell
