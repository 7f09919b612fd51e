import LintRun.Environment
import LintRun.Machine.World

/-!
# Sessions

A process that runs on the machine, with what belongs to it alone and the world around it. `Exec`
is a part of its run, which may stop the process.
-/

namespace LintRun.Machine

open Text (Bytes)

inductive Descriptor
  | input (number : Nat)
  | output (output : Output)

inductive Status
  | exited (code : Nat)
  | killed (signal : Nat)
  deriving DecidableEq

/-- A process that was started in the background: when and how it ends, if it ever does. -/
structure Job where
  process : Nat
  ending : Option (Time × Status)

/-- A variable as it was before a function made it its own. -/
structure Kept where
  name : String
  value : Option String
  isExported : Bool
  isReadOnly : Bool

structure Process where
  number : Nat := 1
  /-- The number that the process calls its own; a copy of a shell keeps that of the shell. -/
  calledNumber : Nat := 1
  name : String
  arguments : List String := []
  values : List (String × String) := []
  exported : List String := []
  readOnly : List String := []
  /-- What the functions that are running have made their own, for each of them, the last first. -/
  kept : List (List Kept) := []
  functions : List (String × Shell.Script) := []
  directory : Path
  descriptors : List (Nat × Descriptor) := []
  /-- The outputs that the process holds open to its end. -/
  held : List Output := []
  /-- The exit code of the last command. -/
  status : Nat := 0
  /-- The exit code of the last command whose output a word of this command took. -/
  substituted : Nat := 0
  /-- The letters of the options that are on. -/
  options : List Char := []
  /-- How many loops are running in the function, or in the script outside functions. -/
  loops : Nat := 0
  /-- How far `getopts` is in an argument, zero if it has not started on one. -/
  optionOffset : Nat := 0
  /-- The rights that new files do not get. -/
  mask : Nat := 18
  jobs : List Job := []
  /-- What to do on a signal, and under zero what to do in the end. -/
  traps : List (Nat × String) := []
  /-- The line of the script at which the process is. -/
  line : Nat := 1
  /-- The command of the shell that is running, as messages call it. -/
  command : Option String := none

def Process.keep (process : Process) (name : String) : Kept where
  name
  value := process.values.lookup name
  isExported := process.exported.contains name
  isReadOnly := process.readOnly.contains name

structure Session where
  process : Process
  world : World

inductive Stop
  | ended (status : Status)
  /-- The process neither ends nor does anything any more. -/
  | stuck
  | leaveLoop (levels : Nat)
  | nextRound (levels : Nat)
  | leaveFunction (code : Nat)
  /-- Something that was reported ends a command of the shell, or else the script. -/
  | fault

abbrev Exec := ExceptT Stop (StateM Session)

namespace Exec

def process : Exec Process := return (← get).process

def world : Exec World := return (← get).world

def modifyProcess (f : Process → Process) : Exec Unit :=
  modify fun s => { s with process := f s.process }

def modifyWorld (f : World → World) : Exec Unit :=
  modify fun s => { s with world := f s.world }

def now : Exec Time := return (← world).clock

def spend (time : Time) : Exec Unit :=
  modifyWorld fun w => { w with clock := w.clock + time }

def waitUntil (time : Time) : Exec Unit :=
  modifyWorld fun w => { w with clock := max w.clock time }

/-- The file tree as it is now, with relative paths from the process's directory. -/
def tree : Exec Tree :=
  return { (← world).treeNow with home := (← process).directory }

/-- A path from the root for a path that the process uses. -/
def absolute (path : String) : Exec Path :=
  return (← process).directory.join (.ofString path)

/-- The path of a directory that leads through no links. -/
def ownPlace (directory : Path) : Exec Path :=
  return ((← tree).enter directory).toOption.elim directory Tree.home

def change (change : Tree.Change) : Exec Unit :=
  modifyWorld fun w => w.change change

def output? (descriptor : Nat) : Exec (Option Output) := do
  match (← process).descriptors.lookup descriptor with
  | some (.output output) => return some output
  | _ => return none

def write (descriptor : Nat) (bytes : Bytes) : Exec Unit := do
  if bytes.isEmpty then return
  if let some output ← output? descriptor then modifyWorld fun w => w.write bytes output

def writeText (descriptor : Nat) (text : String) : Exec Unit :=
  write descriptor (Text.Utf8.encode text)

def complain (text : String) : Exec Unit :=
  writeText 2 (text ++ "\n")

def label : Exec String := do
  let p ← process
  return p.name ++ ": " ++ toString p.line ++ ": " ++ (p.command.elim "" (· ++ ": "))

def report (text : String) : Exec Unit := do
  complain ((← label) ++ text)

/-- Ends what is running because of a failure. -/
def blame {α : Type} (text : String) : Exec α := do
  report text
  throw .fault

/-- Writes something for ever. Whoever reads it from a pipe may stop the writer. -/
def flood (bytes : Bytes) : Exec Nat := do
  match ← output? 1 with
  | some (.pipe number) =>
    modifyWorld fun w => { w with floods := (number, bytes) :: w.floods }
    return 0
  | _ => throw .stuck

def input (descriptor : Nat) : Exec (Option (Nat × Input)) := do
  match (← process).descriptors.lookup descriptor with
  | some (.input number) => return (← world).inputs[number]?.map fun input => (number, input)
  | _ => return none

def finish (input : Input) : Exec Unit := do
  match input.ends with
  | some time => if input.repeated.isEmpty then waitUntil time else throw .stuck
  | none => throw .stuck

def readAll (descriptor : Nat) : Exec Bytes := do
  let some (number, input) ← input descriptor | return []
  finish input
  modifyWorld fun w => w.setInput number { input with pieces := [] }
  return (input.pieces.map Prod.snd).flatten

/-- So many bytes of something that is repeated for ever. -/
def repetition (bytes : Bytes) (count : Nat) : Bytes :=
  (List.replicate (count / bytes.length + 1) bytes).flatten.take count

/-- Takes pieces until `count` bytes are there, and gives the time of the last one. -/
def takePieces (count : Nat) : List (Time × Bytes) → Bytes × Time × List (Time × Bytes)
  | [] => ([], 0, [])
  | (time, bytes) :: rest =>
    if count = 0 then ([], 0, (time, bytes) :: rest)
    else if bytes.length ≤ count then
      let (more, last, rest) := takePieces (count - bytes.length) rest
      (bytes ++ more, max time last, rest)
    else (bytes.take count, time, (time, bytes.drop count) :: rest)

def readBytes (descriptor count : Nat) : Exec Bytes := do
  let some (number, input) ← input descriptor | return []
  let (bytes, time, rest) := takePieces count input.pieces
  waitUntil time
  modifyWorld fun w => w.setInput number { input with pieces := rest }
  if bytes.length = count then return bytes
  else if input.repeated.isEmpty then
    finish input
    return bytes
  else return bytes ++ repetition input.repeated (count - bytes.length)

def readLine (descriptor : Nat) : Exec (Bytes × Bool) := do
  let some (_, input) ← input descriptor | return ([], false)
  let there := (input.pieces.map Prod.snd).flatten
  let line := there.takeWhile (· != 10)
  if line.length < there.length then
    let _ ← readBytes descriptor (line.length + 1)
    return (line, true)
  else if input.repeated.isEmpty then return (← readAll descriptor, false)
  else
    let more := input.repeated.takeWhile (· != 10)
    if more.length < input.repeated.length then
      return ((← readBytes descriptor (line.length + more.length + 1)).dropLast, true)
    else throw .stuck

def valueOf? (name : String) : Exec (Option String) :=
  return (← process).values.lookup name

def isOn (option : Char) : Exec Bool :=
  return (← process).options.contains option

/-- Gives a variable a value in its place, or a new one at the end. -/
def putVariable (name value : String) : Exec Unit :=
  modifyProcess fun p =>
    let values := if (p.values.lookup name).isSome then
        p.values.map fun entry => if entry.1 = name then (name, value) else entry
      else p.values ++ [(name, value)]
    { p with values }

def export_ (name : String) : Exec Unit :=
  modifyProcess fun p => { p with exported := name :: p.exported.filter (· != name) }

def requireWritable (name : String) : Exec Unit := do
  if (← process).readOnly.contains name then blame (name ++ ": is read only")

def setVariable (name value : String) : Exec Unit := do
  requireWritable name
  putVariable name value
  if ← isOn 'a' then export_ name

def dropVariable (name : String) : Exec Unit :=
  modifyProcess fun p => { p with
    values := p.values.filter fun entry => entry.1 != name
    exported := p.exported.filter (· != name) }

def unsetVariable (name : String) : Exec Unit := do
  requireWritable name
  dropVariable name

def restore (kept : Kept) : Exec Unit := do
  dropVariable kept.name
  if let some value := kept.value then putVariable kept.name value
  if kept.isExported then export_ kept.name
  modifyProcess fun p => { p with
    readOnly := (if kept.isReadOnly then [kept.name] else []) ++
      p.readOnly.filter (· != kept.name) }

/-- What a program that the process starts gets of its values. -/
def environment : Exec Environment := do
  let p ← process
  return p.values.filter fun entry => p.exported.contains entry.1

def setDescriptor (descriptor : Nat) (target : Descriptor) : Exec Unit :=
  modifyProcess fun p => { p with
    descriptors := (descriptor, target) :: p.descriptors.filter fun entry => entry.1 != descriptor }

def setInput (descriptor : Nat) (input : Input) : Exec Unit := do
  let (world, number) := (← world).addInput input
  modifyWorld fun _ => world
  setDescriptor descriptor (.input number)

end Exec

def Process.openOutputs (process : Process) : List Output :=
  process.descriptors.filterMap fun entry =>
    match entry.2 with
    | .output output => some output
    | .input _ => none

/-- Lets go of the outputs that no descriptor leads to any more. -/
def Exec.release : Exec Unit :=
  Exec.modifyProcess fun p => { p with held := p.openOutputs }

/-- Runs a part of a script as a process of its own, a copy of this one, and gives its end, at which
the clock stands then. A process that never ends gives none, and holds its outputs for ever. -/
def Exec.fork (body : Exec Nat) : Exec (Option Status) := fun session =>
  let number := session.world.processes + 1
  let world := { session.world with processes := number }
  let child := { session.process with number, jobs := [], held := session.process.openOutputs }
  let (result, after) := body.run { process := child, world }
  let status : Option Status := match result with
    | .ok code => some (.exited code)
    | .error (.ended status) => some status
    | .error .stuck => none
    | .error (.leaveFunction code) => some (.exited code)
    | .error .fault => some (.exited 2)
    | .error (.leaveLoop _) | .error (.nextRound _) => some (.exited 0)
  let holds := after.process.held.map fun output =>
    (after.world.actor, output, status.map fun _ => after.world.clock)
  (.ok status, { session with
    world := { after.world with actor := world.actor, holds := holds ++ after.world.holds } })

/-- Runs a part of a script as a process of its own that nobody waits for. -/
def Exec.forkAside (body : Exec Nat) : Exec Job := do
  let before ← world
  let number := before.processes + 1
  modifyWorld fun w => w.turnTo number
  let status ← fork body
  let finish ← now
  modifyWorld fun w => { w with clock := before.clock, actor := before.actor }
  return ⟨number, status.map fun status => (finish, status)⟩

def firstNumber : Nat := 2

/-- Leaves the group of the first process. -/
def Exec.detach : Exec Unit := do
  let number := (← process).number
  modifyWorld fun w => { w with actor := number, detached := (number, w.clock) :: w.detached }

end LintRun.Machine
