import LintRun.Tree

/-!
# Changes of a file tree

A change that cannot be made leaves the tree as it is.
-/

namespace LintRun

inductive Tree.Change
  | file (path : Path) (content : Text.Bytes) (executable : Bool)
  | directory (path : Path)
  | link (path : Path) (target : String)
  | remove (path : Path)

namespace Tree

def parentOf (path : Path) : Path :=
  { path with names := path.names.dropLast }

/-- Makes a change, and first the directories that it needs. -/
def apply (tree : Tree) : Change → Tree
  | .file path content executable =>
    let tree := tree.makeDirectories (parentOf path)
    ((tree.put path (.file content executable)).toOption).getD tree
  | .directory path => tree.makeDirectories path
  | .link path target =>
    let tree := tree.makeDirectories (parentOf path)
    ((tree.putLink path target).toOption).getD tree
  | .remove path => ((tree.remove path).toOption).getD tree

def applyAll (tree : Tree) (changes : List Change) : Tree :=
  changes.foldl apply tree

end Tree

mutual
/-- What puts a copy of a node at a path. -/
def Node.changesAt (path : Path) : Node → List Tree.Change
  | .file content executable => [.file path content executable]
  | .link target => [.link path target]
  | .directory entries => .directory path :: changesIn path entries

def Node.changesIn (path : Path) : List (String × Node) → List Tree.Change
  | [] => []
  | (name, node) :: rest =>
    node.changesAt { path with names := path.names ++ [name] } ++ changesIn path rest
end

mutual
def Node.count : Node → Nat
  | .directory entries => countEntries entries + 1
  | _ => 1

def Node.countEntries : List (String × Node) → Nat
  | [] => 0
  | (_, node) :: rest => node.count + countEntries rest
end

end LintRun
