import LintRun.Machine.Session
import LintRun.Shell.Integer

/-!
# Signals

The names of signals, what they do to other processes, and how a process waits for those that it
started.
-/

namespace LintRun.Machine

namespace Exec

def signals : List (String × Nat) := [
  ("EXIT", 0), ("HUP", 1), ("INT", 2), ("QUIT", 3), ("ILL", 4), ("TRAP", 5), ("ABRT", 6),
  ("BUS", 7), ("FPE", 8), ("KILL", 9), ("USR1", 10), ("SEGV", 11), ("USR2", 12), ("PIPE", 13),
  ("ALRM", 14), ("TERM", 15), ("CHLD", 17), ("CONT", 18), ("STOP", 19), ("TSTP", 20),
  ("TTIN", 21), ("TTOU", 22), ("URG", 23), ("XCPU", 24), ("XFSZ", 25), ("VTALRM", 26),
  ("PROF", 27), ("WINCH", 28), ("IO", 29), ("PWR", 30), ("SYS", 31)]

/-- The name of a signal that has no meaning of its own. They count from both ends. -/
def realTimeName (signal : Nat) : String :=
  if signal = 34 then "RTMIN"
  else if signal = 64 then "RTMAX"
  else if signal < 50 then "RTMIN+" ++ toString (signal - 34)
  else "RTMAX-" ++ toString (64 - signal)

def namedSignals : List (String × Nat) :=
  signals ++ (List.range' 34 31).map fun signal => (realTimeName signal, signal)

def signal? (text : String) : Option Nat :=
  match Shell.Integer.natural? text with
  | some n => if n ≤ 64 then some n else none
  | none =>
    let text := text.map Char.toUpper
    namedSignals.lookup (if text.startsWith "SIG" then (text.drop 3).toString else text)

def signalName (signal : Nat) : String :=
  ((namedSignals.find? fun entry => entry.2 = signal).map Prod.fst).getD (toString signal)

def signalText (signal : Nat) : String :=
  match signal with
  | 1 => "Hangup"
  | 3 => "Quit"
  | 4 => "Illegal instruction"
  | 5 => "Trace/breakpoint trap"
  | 6 => "Aborted"
  | 7 => "Bus error"
  | 8 => "Floating point exception"
  | 9 => "Killed"
  | 10 => "User defined signal 1"
  | 11 => "Segmentation fault"
  | 12 => "User defined signal 2"
  | 14 => "Alarm clock"
  | 15 => "Terminated"
  | 16 => "Stack fault"
  | _ => if 34 ≤ signal then "Real-time signal " ++ toString (signal - 34)
    else "Unknown signal " ++ toString signal

def exitCode : Status → Nat
  | .exited code => code
  | .killed signal => 128 + signal

/-- The signal that another process has sent to this one by now, if there is one, which is then no
longer on its way. -/
def takeSignal? : Exec (Option Nat) := do
  let number := (← process).number
  let time ← now
  let isMine (death : Nat × Time × Nat) : Bool := death.1 = number && death.2.1 ≤ time
  match (← world).deaths.find? isMine with
  | some death =>
    modifyWorld fun w => { w with deaths := w.deaths.eraseP isMine }
    return some death.2.2
  | none => return none

def finishCommand (status : Option Status) : Exec Nat := do
  match status with
  | none => throw .stuck
  | some (.killed signal) =>
    if signal != 2 && signal != 13 then complain (signalText signal)
    return 128 + signal
  | some (.exited code) => return code

inductive KillRequest
  | send (signal : Nat) (targets : List String)
  /-- The names of signals, or of the one that an exit code tells. -/
  | list (codes : List String)
  | illegalOption (letter : Char)
  | unknownSignal (name : String)
  | unnamedSignal
  | help

def killRequest : List String → KillRequest
  | ["-s"] => .unnamedSignal
  | "-s" :: name :: targets => withSignal name targets
  | "-l" :: codes => .list codes
  | "--" :: targets => if targets.isEmpty then .help else .send 15 targets
  | argument :: targets =>
    match argument.toList with
    | '-' :: letter :: name =>
      match signal? (String.ofList (letter :: name)) with
      | some signal => if targets.isEmpty then .help else .send signal targets
      | none => .illegalOption letter
    | _ => .send 15 (argument :: targets)
  | [] => .help
where
  withSignal (name : String) (targets : List String) : KillRequest :=
    match signal? name with
    | some signal => if targets.isEmpty then .help else .send signal targets
    | none => .unknownSignal name

def killUsage : String :=
  "Usage: kill [-s sigspec | -signum | -sigspec] [pid | job]... or\nkill -l [exitstatus]"

def killOther (number signal : Nat) : Exec Bool := do
  let time ← now
  let p ← process
  match p.jobs.find? fun job => job.process = number with
  | some job =>
    let runs := match job.ending with
      | some (ending, _) => decide (time < ending)
      | none => true
    if runs && signal != 0 then
      modifyWorld fun w => w.cut number time
      let job := { job with ending := some (time, .killed signal) }
      modifyProcess fun p => { p with
        jobs := p.jobs.map fun other => if other.process = number then job else other }
    return true
  | none =>
    if number = p.calledNumber then
      modifyWorld fun w => { w with deaths := w.deaths ++ [(number, time, signal)] }
      return true
    else return false

def waitFor (job : Job) : Exec Nat := do
  match job.ending with
  | none => throw .stuck
  | some (time, status) =>
    waitUntil time
    return exitCode status

/-- The process in the background that a number, or a place in the order of starts, stands for. -/
def job? (target : String) : Exec (Option Job) := do
  let jobs := (← process).jobs
  match target.toList with
  | '%' :: digits =>
    let place := (Shell.Integer.digitsIn? 10 digits).getD 0
    if place = 0 then blame ("No such job: " ++ target)
    match jobs.reverse[place - 1]? with
    | some job => return some job
    | none => blame ("No such job: " ++ target)
  | _ =>
    match Shell.Integer.natural? target with
    | some number => return jobs.find? fun job => job.process = number
    | none => blame ("Illegal number: " ++ target)

/-- The end of the processes that are waited for; none if one of them never ends. -/
def endOfWait (targets : List String) : Exec (Option Time) := do
  let named ← targets.mapM job?
  let own := (← process).jobs
  let jobs := if targets.isEmpty then own else named.filterMap id
  return jobs.foldl (fun time job => time.bind fun time =>
    job.ending.map fun ending => max time ending.1) (some 0)

/-- The first signal for which this process has an action and that another one sends before the
given time, with the time of it. -/
def interruption? (limit : Option Time) : Exec (Option (Time × Nat)) := do
  let p ← process
  let interrupts (death : Nat × Time × Nat) : Bool :=
    death.1 = p.number && (p.traps.lookup death.2.2).any (· != "") &&
      limit.all fun limit => decide (death.2.1 < limit)
  let first := ((← world).deaths.filter interrupts).mergeSort fun a b => a.2.1 ≤ b.2.1
  return first.head?.map Prod.snd

def wait (targets : List String) : Exec Nat := do
  if targets.isEmpty then
    for job in (← process).jobs do
      let _ ← waitFor job
    return 0
  else
    let mut code := 0
    for target in targets do
      match ← job? target with
      | some job =>
        code := ← waitFor job
        if let some (_, .killed signal) := job.ending then complain (signalText signal)
      | none => code := 127
    return code

end Exec

end LintRun.Machine
