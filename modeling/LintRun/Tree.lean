import LintRun.OsError
import LintRun.Path
import LintRun.Text.Utf8

/-!
# File trees

A tree of directories with files and symbolic links. Links are followed on the way to a node, and
at its end unless the link itself is asked for. A path that ends in a slash, be it that of a link,
leads to a directory or nowhere. Failures are those of a POSIX file system. Paths are walked from the
root, so that no path leads through a directory that may not be searched.
-/

namespace LintRun

open Text (Bytes)

inductive Node
  | file (content : Bytes) (executable : Bool)
  | link (target : String)
  | directory (entries : List (String × Node))

inductive Errno
  | noEntry
  | tooBig
  | noExecutable
  | denied
  | exists_
  | notDirectory
  | isDirectory
  | nameTooLong
  | tooManyLinks
  deriving DecidableEq

namespace Errno

def number : Errno → Nat
  | .noEntry => 2
  | .tooBig => 7
  | .noExecutable => 8
  | .denied => 13
  | .exists_ => 17
  | .notDirectory => 20
  | .isDirectory => 21
  | .nameTooLong => 36
  | .tooManyLinks => 40

def text : Errno → String
  | .noEntry => "No such file or directory"
  | .tooBig => "Argument list too long"
  | .noExecutable => "Exec format error"
  | .denied => "Permission denied"
  | .exists_ => "File exists"
  | .notDirectory => "Not a directory"
  | .isDirectory => "Is a directory"
  | .nameTooLong => "File name too long"
  | .tooManyLinks => "Too many levels of symbolic links"

def isMissing (e : Errno) : Bool :=
  e == .noEntry || e == .notDirectory

def error (e : Errno) (subject : OsError.Subject) : OsError :=
  .numbered e.number (some e.text) (some subject)

end Errno

/-- An entry of a directory as a listing shows it; a link is no directory wherever it leads. -/
structure Entry where
  name : String
  isDirectory : Bool
  deriving DecidableEq

namespace Node

def isDirectory : Node → Bool
  | .directory _ => true
  | _ => false

/-- The node that the names lead to from here, through directories only. -/
def get? (node : Node) : List String → Option Node
  | [] => some node
  | name :: rest =>
    match node with
    | .directory entries => (entries.lookup name).bind (get? · rest)
    | _ => none

def alterEntry (f : Option Node → Option Node) (name : String) :
    List (String × Node) → List (String × Node)
  | [] => ((f none).map fun node => (name, node)).toList
  | (key, node) :: rest =>
    if key = name then ((f (some node)).map fun node => (name, node)).toList ++ rest
    else (key, node) :: alterEntry f name rest

def alter (f : Option Node → Option Node) (node : Node) : List String → Node
  | [] => node
  | [name] =>
    match node with
    | .directory entries => .directory (alterEntry f name entries)
    | node => node
  | name :: rest =>
    match node with
    | .directory entries =>
      .directory (alterEntry (fun child => child.map fun node => alter f node rest) name entries)
    | node => node

end Node

/-- The root directory, the directory that relative paths start from, and the names of what may not
be used: directories that may not be searched, and what may not be read or listed. -/
structure Tree where
  root : Node := .directory []
  home : Path := ⟨.root, []⟩
  unsearchable : List (List String) := []
  unreadable : List (List String) := []

namespace Tree

def linkLimit : Nat := 40

inductive Goal
  /-- The entry of the last name, even if it is a link. -/
  | entry
  /-- What the entry leads to. -/
  | node
  /-- What the entry leads to, or where that would be if it is missing in its directory. -/
  | place
  deriving DecidableEq

/-- The names from the root to the goal that `names` lead to from the directory `here`, which is
given backwards. A dot as a name stays in the directory. -/
def follow (tree : Tree) (goal : Goal) (links : Nat) (here : List String) :
    List String → Except Errno (List String)
  | [] => .ok here
  | name :: rest =>
    match tree.root.get? here.reverse with
    | some (.directory entries) =>
      if tree.unsearchable.contains here.reverse then .error .denied
      else if name = "." then follow tree goal links here rest
      else if name = ".." then follow tree goal links here.tail rest
      else if 255 < Text.Utf8.size name then .error .nameTooLong
      else
        match entries.lookup name with
        | none => if rest.isEmpty && goal == .place then .ok (name :: here) else .error .noEntry
        | some (.link target) =>
          if rest.isEmpty && goal == .entry then .ok (name :: here)
          else
            match links with
            | 0 => .error .tooManyLinks
            | links + 1 =>
              let path := Path.followed target
              follow tree goal links (if path.isAbsolute then [] else here) (path.names ++ rest)
        | some _ => follow tree goal links (name :: here) rest
    | _ => .error .notDirectory
termination_by names => (links, names.length)

def locate (tree : Tree) (path : Path) (goal : Goal) : Except Errno (List String) :=
  if 4096 ≤ Text.Utf8.size path.text then .error .nameTooLong
  else (follow tree goal linkLimit [] (tree.home.join path).names).map List.reverse

def find (tree : Tree) (path : Path) : Except Errno Node :=
  (tree.locate path .node).bind fun names => (tree.root.get? names).elim (.error .noEntry) .ok

/-- The tree as seen from a directory, under the path that has no links. -/
def enter (tree : Tree) (path : Path) : Except Errno Tree :=
  (tree.locate path .node).bind fun names =>
    match tree.root.get? names with
    | some (.directory _) =>
      if tree.unsearchable.contains names then .error .denied
      else .ok { tree with home := ⟨.root, names⟩ }
    | _ => .error .notDirectory

/-- Whether something is at the path. Only failures that say it is not there count as an answer. -/
def test (tree : Tree) (path : Path) (p : Node → Bool) : Except OsError Bool :=
  if path.text.contains '\x00' then .ok false
  else
    match tree.find path with
    | .ok node => .ok (p node)
    | .error e =>
      if e = .noEntry ∨ e = .notDirectory ∨ e = .tooManyLinks then .ok false
      else .error (e.error (.name path.text))

def hasNode (tree : Tree) (path : Path) : Except OsError Bool :=
  tree.test path fun _ => true

def hasDirectory (tree : Tree) (path : Path) : Except OsError Bool :=
  tree.test path Node.isDirectory

def read (tree : Tree) (path : Path) : Except Errno Bytes :=
  (tree.locate path .node).bind fun names =>
    match tree.root.get? names with
    | none => .error .noEntry
    | some node =>
      if tree.unreadable.contains names then .error .denied
      else
        match node with
        | .file content _ => .ok content
        | _ => .error .isDirectory

def list (tree : Tree) (path : Path) : Except Errno (List Entry) :=
  (tree.locate path .node).bind fun names =>
    match tree.root.get? names with
    | none => .error .noEntry
    | some (.directory entries) =>
      if tree.unreadable.contains names then .error .denied
      else .ok (entries.map fun (name, node) => ⟨name, node.isDirectory⟩)
    | some _ => .error .notDirectory

def holder (tree : Tree) (path : Path) : Except Errno (List String × String) :=
  let path := tree.home.join path
  match path.names.getLast? with
  | none => .error .isDirectory
  | some name =>
    (tree.locate { path with names := path.names.dropLast } .node).map fun parent => (parent, name)

def alterAt (tree : Tree) (names : List String) (f : Option Node → Option Node) : Tree :=
  { tree with root := tree.root.alter f names }

/-- Where a file is, or would be, that a program wants to write under a name. A name that ends in a
slash, like that of a directory, cannot be that of a file. -/
def creation (tree : Tree) (file : String) : Except Errno (List String) :=
  if file.endsWith "/" then
    (tree.holder (.ofString file)).bind fun _ => .error .isDirectory
  else tree.locate (.followed file) .place

/-- Puts a node at a path whose directory exists; what is there is replaced, and links are
followed. -/
def put (tree : Tree) (path : Path) (node : Node) : Except Errno Tree :=
  (tree.locate path .place).map fun names => tree.alterAt names fun _ => some node

def makeDirectories (tree : Tree) (path : Path) : Tree :=
  let path := tree.home.join path
  (List.range path.names.length).foldl
    (fun tree count =>
      let path := { path with names := path.names.take (count + 1) }
      match tree.locate path .node, tree.holder path with
      | .error .noEntry, .ok (parent, name) =>
        tree.alterAt (parent ++ [name]) fun old => some (old.getD (.directory []))
      | _, _ => tree)
    tree

def remove (tree : Tree) (path : Path) : Except Errno Tree :=
  (tree.locate path .entry).map fun names => tree.alterAt names fun _ => none

/-- Adds a link unless the name is taken. A link leads somewhere, if only to what is not there. -/
def putLink (tree : Tree) (path : Path) (target : String) : Except Errno Tree :=
  if target = "" then .error .noEntry
  else (tree.holder path).bind fun (parent, name) =>
    match tree.root.get? (parent ++ [name]) with
    | some _ => .error .exists_
    | none => .ok (tree.alterAt (parent ++ [name]) fun _ => some (.link target))

end Tree

end LintRun
