import LintRun.Ceiling
import LintRun.Host
import LintRun.Machine.Child

/-!
# Machines

A small POSIX system on which the program can run: a file tree with a shell and a few tools, the
variables that processes are given, and a clock. Its processes are started as such a system starts
them, from a directory, a program and its arguments.
-/

namespace LintRun

open Text (Bytes)
open Machine (Time Image Child)

structure Machine where
  /-- The file tree before the changes that are still to come. -/
  tree : Tree
  pending : List (Time × Tree.Change) := []
  environment : Environment
  clock : Time := 0

namespace Machine

def directories : List String := [
  "/bin", "/boot", "/dev", "/etc", "/home", "/lib", "/media", "/mnt", "/opt", "/proc", "/root",
  "/run", "/sbin", "/srv", "/sys", "/tmp", "/usr/bin", "/usr/lib", "/usr/local/bin",
  "/usr/local/sbin", "/usr/sbin", "/usr/share", "/var/tmp"]

/-- Files that nobody can run. -/
def files : List (String × String) := [
  ("/dev/null", ""), ("/dev/zero", ""), ("/etc/passwd", "root:x:0:0:root:/root:/bin/bash\n")]

def fileSystem : Tree :=
  let places := directories.map fun path => Tree.Change.directory (.ofString path)
  let tools := ["/bin/", "/usr/bin/"].flatMap fun place => Tool.names.map fun name =>
    Tree.Change.file (.ofString (place ++ name)) (mark ++ Text.Utf8.encode name) true
  let files := files.map fun (path, text) =>
    Tree.Change.file (.ofString path) (Text.Utf8.encode text) false
  Tree.applyAll {} (places ++ tools ++ files)

def ownEnvironment : Environment := [
  ("PATH", "/usr/local/sbin:/usr/local/bin:/usr/sbin:/usr/bin:/sbin:/bin"), ("LC_ALL", "C.UTF-8")]

/-- The file tree as it is now. -/
def treeNow (machine : Machine) : Tree :=
  machine.tree.applyAll ((machine.pending.filter fun change => change.1 ≤ machine.clock).mergeSort
    (fun a b => a.1 ≤ b.1) |>.map Prod.snd)

def advanceTo (machine : Machine) (time : Time) : Machine :=
  let machine := { machine with clock := max machine.clock time }
  { machine with
    tree := machine.treeNow
    pending := machine.pending.filter fun change => decide (machine.clock < change.1) }

inductive Refusal
  | system (error : OsError)
  | nulByte

def hasNul (text : String) : Bool :=
  text.contains '\x00'

def wordsOf : Command → List String
  | .shell line => ["/bin/sh", "-c", line]
  | .exec arguments => arguments

/-- Starts a process in a directory, from which relative paths start. -/
def start (machine : Machine) (directory : Option Path) (captureStdout : Bool)
    (words : List String) : Except Refusal Child :=
  let place := directory.getD machine.tree.home
  let name := words.headD ""
  if words.any hasNul || hasNul place.text then .error .nulByte
  else
    match machine.treeNow.enter place with
    | .error e => .error (.system (e.error (.path place.text)))
    | .ok tree =>
      let searched := ((machine.environment.lookup "PATH").getD "").splitOn ":"
      let image :=
        if Image.fits words machine.environment then Image.search tree searched name words
        else .error .tooBig
      match image with
      | .error e => .error (.system (e.error (.name name)))
      | .ok image => .ok (Child.run tree machine.environment captureStdout image)

def record (machine : Machine) (child : Child) : Machine :=
  { machine with
    pending := machine.pending ++
      child.changes.map fun (time, change) => (machine.clock + time, change) }

/-- Launches a command, which is cancelled after the given time if there is one. -/
def launch (machine : Machine) (invocation : Invocation) (cancelAfter : Option Binary64) :
    Launched × Machine :=
  let words := wordsOf invocation.command
  if words.isEmpty then ({ result := .error .noProgram }, machine)
  else
    match machine.start (some invocation.directory) invocation.captureStdout words with
    | .error .nulByte => ({ result := .error .nulByte }, machine)
    | .error (.system e) =>
      let forwarded := [(Launch.refusalLine e, .stderr)]
      ({ forwarded, result := .ok (Launch.refused e) }, machine)
    | .ok child =>
      let start := Launch.start invocation
      let events := child.interrupted invocation.timeout cancelAfter
      let (state, actions) := Launch.run invocation start (events.map Prod.snd)
      let forwarded := actions.filterMap fun action =>
        match action with
        | .forward channel bytes => some (bytes, channel)
        | .kill => none
      match state.ending, Child.endTime? invocation start events with
      | some ending, some time =>
        let child := (Child.killTime? invocation start events).elim child child.killedAt
        ({ forwarded, result := Launch.result invocation state ending },
          (machine.record child).advanceTo (machine.clock + time))
      | _, _ => ({ forwarded, result := .error .unfinished }, machine)

def textOf (bytes : Bytes) : Option String :=
  (Text.Utf8.decode? bytes).map fun cs => String.ofList (Text.unifyNewlines cs)

def probe (machine : Machine) (words : List String) :
    Except ProbeFailure Completed × Machine :=
  match machine.start none true words with
  | .error .nulByte => (.error .nulByte, machine)
  | .error (.system e) => (.error (.system e), machine)
  | .ok child =>
    let bytes (channel : Channel) : Bytes := ((child.writtenTo channel).map Prod.snd).flatten
    let after := (machine.record child).advanceTo (machine.clock + child.streamsEnd.getD 0)
    match child.ending, textOf (bytes .stdout), textOf (bytes .stderr) with
    | some (time, status), some stdout, some stderr =>
      (.ok { stdout, stderr, exitCode := status.code },
        after.advanceTo (machine.clock + time))
    | _, _, _ => (.error .undecodable, after)

/-- The machine after a shell script, whose output goes nowhere. -/
def prepare (machine : Machine) (script : String) : Machine :=
  (machine.probe ["/bin/sh", "-c", script]).2

def host (machine : Machine) (helper : String) : Host Machine where
  platform := .posix
  environment := machine.environment
  helper
  tree := treeNow
  probe words machine := machine.probe words
  list path machine := ((machine.treeNow.list path).mapError (·.error (.name path.text)), machine)
  launch invocation machine := machine.launch invocation none

end Machine

end LintRun
