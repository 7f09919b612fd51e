import LintRun.OsError
import LintRun.Selection
import LintRun.Tree

/-!
# The walk through a directory

The files to check, one at a time: first those included by name, then those found below the
directory, where the files of each directory come before its subdirectories and both in the order
of their names. Excluded entries are skipped and counted, and a directory is listed only when the
walk reaches it. Links are never followed.

A `Provider` runs any number of iterations over the same walk. They share two counters, which the
first step of an iteration sets back to zero.
-/

namespace LintRun

structure Walk where
  directory : Path
  included : List String
  excluded : List String
  separator : String

/-- What an iteration has still to do: give a file, or list a directory. -/
inductive Walk.Task
  | file (path : String)
  | directory (path : String)
  deriving DecidableEq

structure Counters where
  provided : Nat := 0
  skipped : Nat := 0
  deriving DecidableEq

structure ListingFailure where
  path : Path
  error : OsError

def ListingFailure.message (failure : ListingFailure) : String :=
  "Failed to list contents of directory " ++ failure.path.text ++ ": " ++ failure.error.reason

namespace Walk

def tasks (walk : Walk) : List Task :=
  walk.included.map .file ++ [.directory ""]

def isSkipped (walk : Walk) (path : String) : Bool :=
  isExcluded walk.separator walk.excluded path

/-- Where a directory of the walk is; the walk's own directory has the empty path. -/
def pathOf (walk : Walk) (path : String) : Path :=
  if path = "" then walk.directory else walk.directory.join (.ofString path)

def itemPath (walk : Walk) (path name : String) : String :=
  if path = "" then name else path ++ walk.separator ++ name

def sorted (entries : List Entry) : List Entry :=
  entries.mergeSort fun a b => decide (a.name ≤ b.name)

/-- The entries of a directory that are not excluded, with their paths, in order. -/
def kept (walk : Walk) (path : String) (entries : List Entry) : List (String × Entry) :=
  ((sorted entries).map fun entry => (walk.itemPath path entry.name, entry)).filter
    fun (item, _) => !walk.isSkipped item

def expand (walk : Walk) (path : String) (entries : List Entry) : List Task :=
  let kept := walk.kept path entries
  let files := kept.filter fun (_, entry) => !entry.isDirectory && isPhpFile entry.name
  let directories := kept.filter fun (_, entry) => entry.isDirectory
  files.map (fun (item, _) => .file item) ++ directories.map fun (item, _) => .directory item

def skippedIn (walk : Walk) (path : String) (entries : List Entry) : Nat :=
  entries.countP fun entry => walk.isSkipped (walk.itemPath path entry.name)

inductive Pull
  | file (path : String) (rest : List Task)
  | finished
  | failed (failure : ListingFailure)
  /-- The directories to list outnumber the fuel. -/
  | exhausted

variable {m : Type → Type} [Monad m]

/-- Works on tasks up to the next file, with at most `fuel` listings. -/
def next (walk : Walk) (list : Path → m (Except OsError (List Entry))) :
    Nat → List Task → Counters → m (Pull × Counters)
  | _, [], counters => pure (.finished, counters)
  | _, .file path :: rest, counters =>
    pure (.file path rest, { counters with provided := counters.provided + 1 })
  | 0, .directory _ :: _, counters => pure (.exhausted, counters)
  | fuel + 1, .directory path :: rest, counters => do
    match ← list (walk.pathOf path) with
    | .error e => pure (.failed ⟨walk.pathOf path, e⟩, counters)
    | .ok entries =>
      next walk list fuel (walk.expand path entries ++ rest)
        { counters with skipped := counters.skipped + walk.skippedIn path entries }

end Walk

inductive Progress
  | fresh
  | running (tasks : List Walk.Task)
  | over

/-- Iterations by name, and the counters that they share. -/
structure Provider where
  iterations : List (String × Progress) := []
  counters : Counters := {}

namespace Provider

def progress (provider : Provider) (name : String) : Progress :=
  (provider.iterations.lookup name).getD .over

def setProgress (provider : Provider) (name : String) (progress : Progress) : Provider :=
  { provider with
    iterations := (name, progress) :: provider.iterations.filter fun (other, _) => other != name }

/-- Begins an iteration, which replaces one of the same name. Nothing is counted yet. -/
def start (provider : Provider) (name : String) : Provider :=
  provider.setProgress name .fresh

/-- The tasks and counters that the next step of an iteration begins with, unless it is over. -/
def begun? (provider : Provider) (walk : Walk) (name : String) :
    Option (List Walk.Task × Counters) :=
  match provider.progress name with
  | .fresh => some (walk.tasks, ⟨0, 0⟩)
  | .running tasks => some (tasks, provider.counters)
  | .over => none

/-- An iteration goes on only after a file. -/
def progressAfter : Walk.Pull → Progress
  | .file _ rest => .running rest
  | _ => .over

variable {m : Type → Type} [Monad m]

def advance (walk : Walk) (list : Path → m (Except OsError (List Entry))) (fuel : Nat)
    (provider : Provider) (name : String) : m (Walk.Pull × Provider) := do
  match provider.begun? walk name with
  | none => return (.finished, provider)
  | some (tasks, counters) =>
    let (pull, counters) ← walk.next list fuel tasks counters
    return (pull, { provider.setProgress name (progressAfter pull) with counters })

end Provider

end LintRun
