/-!
# Paths

A path is a sequence of names, either from the root or from some other directory. Empty names and
single dots between slashes mean nothing and are dropped; double dots stay, as they may lead
through a link, until `normalize` removes them with the name before. A path that starts with
exactly two slashes keeps both.
-/

namespace LintRun

inductive Anchor
  | relative
  | root
  | doubleSlash
  deriving DecidableEq

structure Path where
  anchor : Anchor
  names : List String
  deriving DecidableEq

namespace Path

def splitNames (s : String) : List String :=
  ((s.toList.splitOn '/').map String.ofList).filter fun name => name != "" && name != "."

def anchorOf : List Char → Anchor
  | '/' :: '/' :: '/' :: _ => .root
  | '/' :: '/' :: _ => .doubleSlash
  | '/' :: _ => .root
  | _ => .relative

def ofString (s : String) : Path :=
  ⟨anchorOf s.toList, splitNames s⟩

/-- Whether a text can only lead to a directory: it ends in a slash, or in a dot after one. -/
def asksDirectory (s : String) : Bool :=
  ["", "."].contains (String.ofList ((s.toList.splitOn '/').getLastD []))

/-- The path that a file system follows for a text. A dot is its last name if the text can only lead
to a directory. -/
def followed (s : String) : Path :=
  ⟨anchorOf s.toList, splitNames s ++ if asksDirectory s then ["."] else []⟩

def isAbsolute (p : Path) : Bool :=
  p.anchor != .relative

def text (p : Path) : String :=
  match p.anchor, p.names with
  | .relative, [] => "."
  | .relative, names => "/".intercalate names
  | .root, names => "/" ++ "/".intercalate names
  | .doubleSlash, names => "//" ++ "/".intercalate names

def join (p q : Path) : Path :=
  if q.isAbsolute then q else ⟨p.anchor, p.names ++ q.names⟩

def child (p : Path) (name : String) : Path :=
  p.join (.ofString name)

/-- Adds a name to names that have no double dots but at their start; `done` is backwards. -/
def pushName (absolute : Bool) (done : List String) (name : String) : List String :=
  if name != ".." then name :: done
  else
    match done with
    | [] => if absolute then [] else [".."]
    | last :: before => if last == ".." then ".." :: done else before

/-- The path without double dots, as far as the text alone tells. -/
def normalize (p : Path) : Path :=
  ⟨p.anchor, (p.names.foldl (pushName p.isAbsolute) []).reverse⟩

end Path

end LintRun
