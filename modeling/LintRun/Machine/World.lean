import LintRun.Channel
import LintRun.Shell.Script
import LintRun.Tree.Change

/-!
# The world of the machine

A machine runs processes on a clock of its own. What a process does is recorded with the time at
which it is done, so processes that run at the same time are followed one after the other, each from
its own start, and a process sees of the others what was done before. Only sleeping and the start
of a program take time.
-/

namespace LintRun.Machine

open Text (Bytes)

abbrev Time := Nat

/-- What the start of a program takes. -/
def startTime : Time := 1000000

inductive Output
  | channel (channel : Channel)
  | pipe (number : Nat)
  | file (path : Path)
  | nowhere
  deriving DecidableEq

/-- What is left to read: pieces, each with the time from which it can be read, then something
that is repeated for ever, if it is not empty, or an end that is seen at some time or never. -/
structure Input where
  pieces : List (Time × Bytes) := []
  repeated : Bytes := []
  ends : Option Time := some 0
  /-- The size of the file, if it is one. -/
  size : Option Nat := none
  /-- Why reading fails, if it does. -/
  fault : Option Errno := none

/-- When something was done and by whom. The actor is a process that was started in the background,
or the first one, together with the processes that it waits for. -/
structure Stamp where
  time : Time
  actor : Nat

structure World where
  /-- The file tree in the beginning. -/
  tree : Tree
  /-- What changes in the tree, the latest record first. -/
  changes : List (Stamp × Tree.Change) := []
  /-- What is written to channels and pipes, the latest record first. -/
  writes : List (Stamp × Output × Bytes) := []
  /-- The pipes into which something is written for ever. -/
  floods : List (Nat × Bytes) := []
  /-- Until when a process holds an output open, which may be for ever. -/
  holds : List (Nat × Output × Option Time) := []
  /-- Processes that were killed by others. -/
  deaths : List (Nat × Time × Nat) := []
  /-- Actors that have left the group of the first process, and since when. -/
  detached : List (Nat × Time) := []
  inputs : List Input := []
  pipes : Nat := 0
  processes : Nat := 1
  clock : Time := 0
  actor : Nat := 1

namespace World

def stamp (world : World) : Stamp :=
  ⟨world.clock, world.actor⟩

/-- The changes of a tree in the order of time; of two at one time the one recorded first comes
first. -/
def changesUpTo (world : World) (time : Time) : List Tree.Change :=
  ((world.changes.filter fun change => change.1.time ≤ time).reverse.mergeSort
    fun a b => a.1.time ≤ b.1.time).map Prod.snd

def treeAt (world : World) (time : Time) : Tree :=
  world.tree.applyAll (world.changesUpTo time)

def treeNow (world : World) : Tree :=
  world.treeAt world.clock

def change (world : World) (change : Tree.Change) : World :=
  { world with changes := (world.stamp, change) :: world.changes }

def write (world : World) (bytes : Bytes) : Output → World
  | .nowhere => world
  | .file path =>
    match world.treeNow.find path with
    | .ok (.file content executable) => world.change (.file path (content ++ bytes) executable)
    | _ => world.change (.file path bytes false)
  | output => { world with writes := (world.stamp, output, bytes) :: world.writes }

def written (world : World) (output : Output) : List (Time × Bytes) :=
  ((world.writes.filter fun write => write.2.1 == output).reverse.map fun (stamp, _, bytes) =>
    (stamp.time, bytes)).mergeSort fun a b => a.1 ≤ b.1

/-- When the last process lets go of an output; never, if one holds it for ever. -/
def closeTime (world : World) (output : Output) : Option Time :=
  (world.holds.filter fun hold => hold.2.1 == output).foldl
    (fun latest hold => latest.bind fun latest => hold.2.2.map (max latest)) (some 0)

def isDetached (world : World) (time : Time) (actor : Nat) : Bool :=
  world.detached.any fun (other, since) => other = actor && since ≤ time

def turnTo (world : World) (actor : Nat) : World :=
  { world with
    actor
    detached := (if world.isDetached world.clock world.actor then [(actor, world.clock)] else []) ++
      world.detached }

/-- Takes back what the actors do that are stopped at a time. -/
def stop (world : World) (isStopped : Nat → Bool) (time : Time) : World :=
  let isKept (stamp : Stamp) : Bool := !isStopped stamp.actor || stamp.time ≤ time
  { world with
    changes := world.changes.filter fun change => isKept change.1
    writes := world.writes.filter fun write => isKept write.1
    holds := world.holds.map fun (holder, output, until_) =>
      (holder, output, if isStopped holder then some (until_.elim time (min time)) else until_) }

def cut (world : World) (actor : Nat) (time : Time) : World :=
  world.stop (· = actor) time

/-- Takes back what the group of the first process does after a time. -/
def killGroup (world : World) (time : Time) : World :=
  world.stop (fun actor => !world.isDetached time actor) time

def pipeInput (world : World) (number : Nat) : Input where
  pieces := world.written (.pipe number)
  repeated := (world.floods.lookup number).getD []
  ends := world.closeTime (.pipe number)

def addInput (world : World) (input : Input) : World × Nat :=
  ({ world with inputs := world.inputs ++ [input] }, world.inputs.length)

def setInput (world : World) (number : Nat) (input : Input) : World :=
  { world with inputs := world.inputs.set number input }

end World

end LintRun.Machine
