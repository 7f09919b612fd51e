import LintRun.Host
import LintRun.Tree.Change

/-!
# Scripted hosts

A host whose probes, listings and launches answer as a script says. Launched commands may change
the file tree before they end.
-/

namespace LintRun

structure Script where
  tree : Tree
  results : List (Except OsError InvocationResult) := []
  effects : List (List Tree.Change) := []

namespace Script

/-- The number of nodes that the tree can ever have. -/
def bound (script : Script) : Nat :=
  let added : Tree.Change → Nat
    | .file path .. | .directory path | .link path _ => path.names.length
    | .remove _ => 0
  script.tree.root.count + (script.effects.flatten.map added).foldl (· + ·) 0

/-- Changes the tree, then gives the next result; without one the command succeeds. -/
def launch (script : Script) : Launched × Script :=
  let changes := script.effects.headD []
  let result : Except LaunchFailure InvocationResult := match script.results with
    | [] => .ok {}
    | .ok result :: _ => .ok result
    | .error e :: _ => .error (.system e)
  ({ result }, {
    tree := script.tree.applyAll changes
    results := script.results.drop 1
    effects := script.effects.drop 1 })

end Script

structure Setting where
  platform : Platform
  environment : Environment
  helper : String
  probe : List String → Except ProbeFailure Completed
  /-- Directories that cannot be listed. -/
  unlistable : List (Path × OsError)

namespace Setting

def list (setting : Setting) (tree : Tree) (path : Path) : Except OsError (List Entry) :=
  match setting.unlistable.lookup path.normalize with
  | some e => .error e
  | none => (tree.list path).mapError (·.error (.name path.text))

def host (setting : Setting) : Host Script where
  platform := setting.platform
  environment := setting.environment
  helper := setting.helper
  tree := Script.tree
  probe command script := (setting.probe command, script)
  list path script := (setting.list script.tree path, script)
  launch _ script := script.launch

end Setting

end LintRun
