import LintRun.Launch
import LintRun.Machine.Interpreter

/-!
# Children

A child process is run to its end before anything is told of it: what it writes and changes is known
with the time of each, and so are its end and the ends of its streams. A launcher then follows it
along the clock, up to the timer or a cancellation, and what a killed child did later is taken back.
Whoever waits for a killed child hears of its exit when the streams have ended too, which processes
that have left its group can delay.
-/

namespace LintRun.Machine

open Text (Bytes)

/-- How deep the parts of a child's run may call each other. -/
def childFuel : Nat := 8000

structure Child where
  world : World
  ending : Option (Time × Status)

/-- The exit code as a launcher sees it: the number of a signal is negative. -/
def Status.code : Status → Int
  | .exited code => code
  | .killed signal => -signal

namespace Child

def noInput : Nat := 0

def descriptors (captureStdout : Bool) : List (Nat × Descriptor) := [
  (0, .input noInput),
  (1, .output (if captureStdout then .channel .stdout else .nowhere)),
  (2, .output (.channel .stderr))]

def writtenTo (child : Child) (channel : Channel) : List (Time × Bytes) :=
  child.world.written (.channel channel)

/-- When a stream ends, if it does; what is written to it comes before. -/
def streamEnd (child : Child) (channel : Channel) : Option Time :=
  (child.world.closeTime (.channel channel)).map fun time =>
    ((child.writtenTo channel).map Prod.fst).foldl max time

def latest (times : List (Option Time)) : Option Time :=
  times.foldl (fun latest time => latest.bind fun latest => time.map (max latest)) (some 0)

def streamsEnd (child : Child) : Option Time :=
  latest [child.streamEnd .stdout, child.streamEnd .stderr]

def changes (child : Child) : List (Time × Tree.Change) :=
  child.world.changes.reverse.map fun (stamp, change) => (stamp.time, change)

def run (tree : Tree) (environment : Environment) (captureStdout : Bool) (image : Image) : Child :=
  let process : Process := {
    name := ""
    values := environment
    exported := environment.map Prod.fst
    directory := tree.home
    descriptors := descriptors captureStdout }
  let start : World := { tree, inputs := [{}], clock := startTime }
  let (result, after) :=
    (Exec.fork (Interpreter.start image childFuel)).run { process, world := start }
  let world := after.world
  let ending := match result with
    | .ok status => status.map fun status => (world.clock, status)
    | .error _ => none
  match world.deaths.find? fun death => death.1 = firstNumber with
  | some (_, time, signal) =>
    if ending.all fun (ended, _) => decide (time < ended) then
      { world := world.cut start.actor time, ending := some (time, .killed signal) }
    else { world, ending }
  | none => { world, ending }

/-- The child if its group is killed at a time. -/
def killedAt (child : Child) (time : Time) : Child where
  world := child.world.killGroup time
  ending := match child.ending with
    | some (ended, status) =>
      if ended < time then some (ended, status) else some (time, .killed 9)
    | none => some (time, .killed 9)

def events (child : Child) : List (Time × Launch.Event) :=
  let streams := [Channel.stdout, Channel.stderr].flatMap fun channel =>
    (child.writtenTo channel).map fun (time, bytes) => (time, Launch.Event.chunk channel bytes)
  let ends := [Channel.stdout, Channel.stderr].filterMap fun channel =>
    (child.streamEnd channel).map fun time => (time, Launch.Event.closed channel)
  let exit := child.ending.map fun (time, status) => (time, Launch.Event.exited status.code)
  (streams ++ ends ++ exit.toList).mergeSort fun a b => a.1 ≤ b.1

/-- The time after which a timer fires, if it ever does; at once if it is no number. -/
def delay : Binary64 → Option Time
  | .nan => some 0
  | .infinite negative => if negative then some 0 else none
  | .finite negative significand exponent =>
    if negative then some 0
    else
      let (num, den) := Binary64.ratio significand exponent
      some (num * 1000000000 / den)

/-- What a launcher sees of a child that it kills at a time: what was there before, and the exit
once the wait for it is over. -/
def eventsAfterKill (child : Child) (time : Time) : List (Time × Launch.Event) :=
  let killed := child.killedAt time
  let before := child.events.filter fun event => decide (event.1 < time)
  let exit := (latest [some time, killed.streamsEnd]).bind fun reaped =>
    killed.ending.map fun (_, status) => (reaped, Launch.Event.exited status.code)
  before ++ (time, .timer) :: exit.toList

def interrupted (child : Child) (timeout cancelAfter : Option Binary64) :
    List (Time × Launch.Event) :=
  let events := match timeout.bind delay with
    | none => child.events
    | some time => child.eventsAfterKill time
  let cancel := ((cancelAfter.bind delay).map fun time => (time, Launch.Event.cancel)).toList
  (cancel ++ events).mergeSort fun a b => a.1 ≤ b.1

def timeOf? (invocation : Invocation) (isSought : Launch.State × List Launch.Action → Bool) :
    Launch.State → List (Time × Launch.Event) → Option Time
  | _, [] => none
  | s, (time, event) :: rest =>
    let stepped := Launch.step invocation s event
    if isSought stepped then some time else timeOf? invocation isSought stepped.1 rest

def endTime? (invocation : Invocation) : Launch.State → List (Time × Launch.Event) → Option Time :=
  timeOf? invocation fun stepped => stepped.1.ending.isSome

def killTime? (invocation : Invocation) : Launch.State → List (Time × Launch.Event) → Option Time :=
  timeOf? invocation fun stepped => stepped.2.contains .kill

end Child

end LintRun.Machine
