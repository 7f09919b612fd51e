import LintRun.Machine.Command
import LintRun.Shell.Arithmetic.Reading

/-!
# The shell of the machine

Runs scripts. The fuel bounds how deep the parts of a run call each other, so also how often a loop
goes round; a run that uses it up counts as one that never ends.
-/

namespace LintRun.Machine

open Shell (Script Piece Redirection)

/-- Where a command stands: whether it is all that a copy of the shell has still to do, so that a
program takes the place of the copy, and whether its failure is looked at. -/
structure Standing where
  isLast : Bool := false
  isTested : Bool := false

namespace Interpreter

open Exec

def setStatus (status : Nat) : Exec Unit :=
  modifyProcess fun p => { p with status }

/-- Notes the exit code of a command; a script may end on a failure. -/
def settle (standing : Standing) (code : Nat) : Exec Nat := do
  setStatus code
  if code != 0 && !standing.isTested && (← isOn 'e') then throw (.ended (.exited code))
  return code

/-- Leaves of what is to be done on signals only that some are ignored. -/
def dropTraps : Exec Unit :=
  modifyProcess fun p => { p with traps := p.traps.filter fun entry => entry.2 == "" }

def endOf (body : Exec Nat) : Exec Status := do
  try
    return .exited (← body)
  catch stop =>
    match stop with
    | .ended status => return status
    | .leaveFunction code => return .exited code
    | .leaveLoop _ | .nextRound _ => return .exited (← process).status
    | .fault => return .exited 2
    | .stuck => throw .stuck

mutual

def expandPiece (piece : Piece) : Nat → Exec (List Fragment)
  | 0 => throw .stuck
  | fuel + 1 => do
    match piece with
    | .plain text => return [.text text.toList false]
    | .quoted text => return [.text text.toList true]
    | .home user => return [.text (← homeOf user).toList true]
    | .assigned name value => return [.text (name ++ "=" ++ (← expandText value fuel)).toList true]
    | .badSubstitution => blame "Bad substitution"
    | .parameter name quoted =>
      if name == "@" || name == "*" then argumentFragments name quoted
      else return valueFragments quoted (← requiredValue name)
    | .length name =>
      return [.text (toString (Text.Utf8.size (← requiredValue name))).toList true]
    | .fallback name kind emptyCounts word quoted =>
      let value ← parameter? name
      let counts := match value with
        | none => false
        | some text => !(emptyCounts && text == "")
      let standIn : Exec (List Fragment) := do
        if quoted then return [.text (← expandText word fuel).toList true]
        else return (← expandPieces word fuel).map Fragment.asValue
      match kind, counts with
      | .alternative, true => standIn
      | .alternative, false => return valueFragments quoted ""
      | _, true => return valueFragments quoted (value.getD "")
      | .value, false => standIn
      | .assign, false =>
        let text ← expandText word fuel
        requireName name
        setVariable name text
        return valueFragments quoted text
      | .complain, false =>
        let text ← expandText word fuel
        blame (name ++ ": " ++ if text != "" then text
          else if emptyCounts then "parameter not set or null" else "parameter not set")
    | .trimmed name trimming pattern quoted =>
      let pattern := Fragment.word (← expandPieces pattern fuel)
      let value := (← requiredValue name).toList
      return valueFragments quoted (String.ofList (trim trimming pattern value))
    | .output body quoted => return valueFragments quoted (← capture body fuel)
    | .arithmetic expression quoted =>
      let text ← expandText expression fuel
      let values := (← process).values
      match Shell.Arithmetic.value (fun name => values.lookup name) text with
      | .ok (n, assigned) =>
        for (name, n) in assigned.reverse do setVariable name (toString n.toInt)
        return valueFragments quoted (toString n.toInt)
      | .error fault =>
        match fault.message? text with
        | some message => blame message
        | none => throw (.ended (.killed 8))
termination_by structural fuel => fuel

def expandPieces (pieces : List Piece) : Nat → Exec (List Fragment)
  | 0 => throw .stuck
  | fuel + 1 => do
    match pieces with
    | [] => return []
    | piece :: rest =>
      let first ← expandPiece piece fuel
      return first ++ (← expandPieces rest fuel)
termination_by structural fuel => fuel

def expandText (pieces : List Piece) : Nat → Exec String
  | 0 => throw .stuck
  | fuel + 1 => do
    return (Fragment.word (← expandPieces pieces fuel)).text
termination_by structural fuel => fuel

def expandWords (words : List (List Piece)) : Nat → Exec (List String)
  | 0 => throw .stuck
  | fuel + 1 => do
    match words with
    | [] => return []
    | word :: rest =>
      let separators ← separators
      let texts ← textsOf (Fragment.fields separators (← expandPieces word fuel))
      return texts ++ (← expandWords rest fuel)
termination_by structural fuel => fuel

/-- Runs a part of a script as the whole of a copy of the shell, which has no actions on signals
from its start. -/
def runCopy (body : Exec Nat) : Nat → Exec Nat
  | 0 => throw .stuck
  | fuel + 1 => do
    dropTraps
    conclude body fuel
termination_by structural fuel => fuel

def capture (body : Script) : Nat → Exec String
  | 0 => throw .stuck
  | fuel + 1 => do
    let pipe := (← world).pipes
    modifyWorld fun w => { w with pipes := pipe + 1 }
    let status ← fork do
      setDescriptor 1 (.output (.pipe pipe))
      runCopy (run { isLast := true } body fuel) fuel
    let code ← finishCommand status
    modifyProcess fun p => { p with substituted := code }
    let input := (← world).pipeInput pipe
    finish input
    return outputValue (input.pieces.map Prod.snd).flatten
termination_by structural fuel => fuel

def redirect (redirections : List Redirection) : Nat → Exec Bool
  | 0 => throw .stuck
  | fuel + 1 => do
    match redirections with
    | [] => return true
    | .mk descriptor kind target :: rest =>
      let target ← expandText target fuel
      match ← redirectTo descriptor kind target with
      | .ok () => redirect rest fuel
      | .error text =>
        report text
        return false
termination_by structural fuel => fuel

def assignAll (exported : Bool) (assignments : List (String × List Piece)) :
    Nat → Exec (List (String × String))
  | 0 => throw .stuck
  | fuel + 1 => do
    match assignments with
    | [] => return []
    | (name, value) :: rest =>
      let value ← expandText value fuel
      setVariable name value
      if exported then export_ name
      return (name, value) :: (← assignAll exported rest fuel)
termination_by structural fuel => fuel

def run (standing : Standing) (script : Script) : Nat → Exec Nat
  | 0 => throw .stuck
  | fuel + 1 => do
    if ← isOn 'n' then return 0
    match script with
    | .simple line assignments words redirections =>
      modifyProcess fun p => { p with line, substituted := 0 }
      let fields ← expandWords words fuel
      let (isPlain, command) := plainCommand fields
      let name := command.headD ""
      let isFunction := !isPlain && ((← process).functions.lookup name).isSome
      let isSpecial := !isPlain && !isFunction && Shell.specialCommands.contains name
      let descriptors := (← process).descriptors
      let before ← process
      let restoreDescriptors := modifyProcess fun p => { p with descriptors }
      if !(← redirect redirections fuel) then
        restoreDescriptors
        if isSpecial then throw .fault
        settle standing 2
      else
        let given ← assignAll (!command.isEmpty && !isSpecial) assignments fuel
        trace descriptors given fields
        let code ← match command with
          | [] => pure (← process).substituted
          | name :: arguments =>
            if isFunction then runFunction standing name arguments fuel
            else if isOwn name then
              let own := asCommand name (runOwn name arguments fuel)
              if isPlain then survive own else own
            else runProgram standing name arguments fuel
        if name == "exec" then release else restoreDescriptors
        if !command.isEmpty && !isSpecial then
          for (name, _) in given.reverse do restore (before.keep name)
        attend fuel
        settle standing code
    | .negated body =>
      let code ← run { isTested := true } body fuel
      let code := if code = 0 then 1 else 0
      setStatus code
      return code
    | .pipeline parts =>
      let start ← now
      let code ← runPipeline start parts none fuel
      attend fuel
      settle standing code
    | .both first second =>
      let code ← run { isTested := true } first fuel
      if code = 0 then run standing second fuel else return code
    | .either first second =>
      let code ← run { isTested := true } first fuel
      if code = 0 then return 0 else run standing second fuel
    | .sequence parts => runAll standing parts fuel
    | .background body =>
      let job ← forkAside do
        setInput 0 {}
        runCopy (run { isLast := true } body fuel) fuel
      modifyProcess fun p => { p with jobs := job :: p.jobs }
      setStatus 0
      return 0
    | .subshell body =>
      let status ← fork (runCopy (run { isLast := true } body fuel) fuel)
      attend fuel
      settle standing (← finishCommand status)
    | .redirected body redirections =>
      let descriptors := (← process).descriptors
      let opened ← redirect redirections fuel
      if standing.isLast then release
      let code ← if opened then run { standing with isLast := false } body fuel else pure 2
      modifyProcess fun p => { p with descriptors }
      settle standing code
    | .conditional test consequent alternative =>
      let code ← run { isTested := true } test fuel
      if code = 0 then run standing consequent fuel
      else
        if let .sequence [] := alternative then setStatus 0
        run standing alternative fuel
    | .loop untilSuccess test body => runLoop standing untilSuccess test body 0 fuel
    | .each name words body =>
      let items ← match words with
        | some words => expandWords words fuel
        | none => pure (← process).arguments
      runEach standing name body items 0 fuel
    | .choose subject cases =>
      let subject ← expandText subject fuel
      runCase standing subject.toList cases fuel
    | .define name body =>
      modifyProcess fun p => { p with
        functions := (name, body) :: p.functions.filter fun entry => entry.1 != name }
      setStatus 0
      return 0
termination_by structural fuel => fuel

def runAll (standing : Standing) (parts : List Script) : Nat → Exec Nat
  | 0 => throw .stuck
  | fuel + 1 => do
    match parts with
    | [] => return (← process).status
    | [part] => run standing part fuel
    | part :: rest =>
      let _ ← run { standing with isLast := false } part fuel
      runAll standing rest fuel
termination_by structural fuel => fuel

def runPipeline (start : Time) (parts : List Script) (input : Option Nat) : Nat → Exec Nat
  | 0 => throw .stuck
  | fuel + 1 => do
    match parts with
    | [] => return 0
    | part :: rest =>
      let pipe := (← world).pipes
      modifyWorld fun w => { w with clock := start, pipes := pipe + 1 }
      let status ← fork do
        if let some number := input then setDescriptor 0 (.input number)
        if !rest.isEmpty then setDescriptor 1 (.output (.pipe pipe))
        runCopy (run { isLast := true } part fuel) fuel
      if rest.isEmpty then finishCommand status
      else
        let ended ← now
        let (w, number) := (← world).addInput ((← world).pipeInput pipe)
        modifyWorld fun _ => w
        let code ← runPipeline start rest (some number) fuel
        if status.isNone then throw .stuck
        waitUntil ended
        return code
termination_by structural fuel => fuel

/-- Repeats a body; `code` is the exit code of the round before. -/
def runLoop (standing : Standing) (untilSuccess : Bool) (test body : Script) (code : Nat) :
    Nat → Exec Nat
  | 0 => throw .stuck
  | fuel + 1 => do
    let found ← run { isTested := true } test fuel
    if (found = 0) = untilSuccess then
      setStatus code
      return code
    else
      match ← round { standing with isLast := false } body fuel with
      | some code => runLoop standing untilSuccess test body code fuel
      | none => return 0
termination_by structural fuel => fuel

def runEach (standing : Standing) (name : String) (body : Script) (items : List String)
    (code : Nat) : Nat → Exec Nat
  | 0 => throw .stuck
  | fuel + 1 => do
    match items with
    | [] =>
      setStatus code
      return code
    | item :: rest =>
      setVariable name item
      match ← round { standing with isLast := false } body fuel with
      | some code => runEach standing name body rest code fuel
      | none => return 0
termination_by structural fuel => fuel

def round (standing : Standing) (body : Script) : Nat → Exec (Option Nat)
  | 0 => throw .stuck
  | fuel + 1 => do
    let loops := (← process).loops
    modifyProcess fun p => { p with loops := loops + 1 }
    try
      let code ← run standing body fuel
      modifyProcess fun p => { p with loops }
      return some code
    catch stop =>
      modifyProcess fun p => { p with loops }
      match stop with
      | .leaveLoop levels =>
        setStatus 0
        if 1 < levels then throw (.leaveLoop (levels - 1)) else return none
      | .nextRound levels =>
        setStatus 0
        if 1 < levels then throw (.nextRound (levels - 1)) else return some 0
      | stop => throw stop
termination_by structural fuel => fuel

def runCase (standing : Standing) (subject : List Char)
    (cases : List (List (List Piece) × Script)) : Nat → Exec Nat
  | 0 => throw .stuck
  | fuel + 1 => do
    match cases with
    | [] =>
      setStatus 0
      return 0
    | (patterns, body) :: rest =>
      if ← matchesAny subject patterns fuel then
        if let .sequence [] := body then setStatus 0
        run standing body fuel
      else runCase standing subject rest fuel
termination_by structural fuel => fuel

def matchesAny (subject : List Char) (patterns : List (List Piece)) : Nat → Exec Bool
  | 0 => throw .stuck
  | fuel + 1 => do
    match patterns with
    | [] => return false
    | pattern :: rest =>
      let pattern := Fragment.word (← expandPieces pattern fuel)
      if Shell.Pattern.isMatch pattern subject then return true
      else matchesAny subject rest fuel
termination_by structural fuel => fuel

def runFunction (standing : Standing) (name : String) (arguments : List String) : Nat → Exec Nat
  | 0 => throw .stuck
  | fuel + 1 => do
    let before ← process
    match before.functions.lookup name with
    | none => return 0
    | some body =>
      modifyProcess fun p => { p with arguments, loops := 0 }
      let code ← withOwnVariables
        (returning (run { isTested := standing.isTested } body fuel))
      modifyProcess fun p => { p with arguments := before.arguments, loops := before.loops }
      return code
termination_by structural fuel => fuel

/-- Runs a program as another process, or in place of a copy of the shell that is done. -/
def runProgram (standing : Standing) (name : String) (arguments : List String) : Nat → Exec Nat
  | 0 => throw .stuck
  | fuel + 1 => do
    let body : Exec Nat := do
      release
      orderVariables
      execute (← searchPath) (startFailure name) name arguments fuel
    if standing.isLast && (← process).traps.isEmpty then throw (.ended (.exited (← body)))
    else finishCommand (← fork body)
termination_by structural fuel => fuel

/-- Makes the process a program in one of the directories; `refuse` deals with what prevents that.
A program does not know of the actions on signals, but ignores those that were ignored. -/
def execute (directories : List String) (refuse : Errno → Exec Nat) (name : String)
    (arguments : List String) : Nat → Exec Nat
  | 0 => throw .stuck
  | fuel + 1 => do
    spend startTime
    let tree ← tree
    let loaded := Image.search tree directories name (name :: arguments)
    let begin (image : Image) : Exec Nat := do
      dropTraps
      start image fuel
    if !Image.fits (name :: arguments) (← environment) then refuse .tooBig
    else
      match loaded with
      | .ok image => begin image
      | .error .noExecutable => begin ⟨"sh", ["sh", name] ++ arguments⟩
      | .error e => refuse e
termination_by structural fuel => fuel

def start (image : Image) : Nat → Exec Nat
  | 0 => throw .stuck
  | fuel + 1 => do
    let name := image.arguments.headD ""
    let arguments := image.arguments.drop 1
    match image.tool with
    | "sh" => runShell name arguments fuel
    | "env" => runEnvironment name arguments fuel
    | "kill" => runKill arguments fuel
    | "setsid" => runDetached name arguments fuel
    | tool => Tool.run tool name arguments
termination_by structural fuel => fuel

def runEnvironment (name : String) (arguments : List String) : Nat → Exec Nat
  | 0 => throw .stuck
  | fuel + 1 => do
    match arguments with
    | [] =>
      let lines := (← environment).map fun (name, value) => name ++ "=" ++ value ++ "\n"
      writeText 1 (String.join lines)
      return 0
    | "--" :: rest => runEnvironment name rest fuel
    | "-" :: rest | "-i" :: rest =>
      modifyProcess fun p => { p with values := [], exported := [] }
      runEnvironment name rest fuel
    | "-u" :: variable_ :: rest =>
      dropVariable variable_
      runEnvironment name rest fuel
    | argument :: rest =>
      match environmentEntry? argument with
      | some (key, value) =>
        putVariable key value
        export_ key
        runEnvironment name rest fuel
      | none =>
        if argument.startsWith "-" then
          complain (name ++ ": invalid option -- '" ++ (argument.drop 1).toString ++ "'\nTry '" ++
            name ++ " --help' for more information.")
          return 125
        else
          let refuse (e : Errno) : Exec Nat := do
            complain (name ++ ": ‘" ++ argument ++ "’: " ++ e.text)
            return if e = .noEntry then 127 else 126
          execute (← toolPath) refuse argument rest fuel
termination_by structural fuel => fuel

/-- Becomes another program in a group of its own. The first process cannot leave its group, and
starts the program without waiting for it. -/
def runDetached (name : String) (arguments : List String) : Nat → Exec Nat
  | 0 => throw .stuck
  | fuel + 1 => do
    match arguments with
    | [] =>
      complain (name ++ ": no command specified\nTry '" ++ name ++ " --help' for more information.")
      return 1
    | program :: rest =>
      if isOption program then return ← refuseOption name program
      let refuse (e : Errno) : Exec Nat := do
        complain (name ++ ": failed to execute " ++ program ++ ": " ++ e.text)
        return if e = .noEntry then 127 else 126
      let body : Exec Nat := do
        detach
        execute (← toolPath) refuse program rest fuel
      if (← process).number = firstNumber then
        let _ ← forkAside body
        return 0
      else body
termination_by structural fuel => fuel

def runShell (name : String) (arguments : List String) : Nat → Exec Nat
  | 0 => throw .stuck
  | fuel + 1 => do
    becomeShell name
    modifyProcess fun p => { p with line := 0 }
    let isCommand (letter : Char) : Exec Bool := do
      if letter = 'c' then turn true 'c'
      return letter = 'c'
    conclude (do
      let (operands, _) ← takeOptions isCommand arguments
      let isGiven ← isOn 'c'
      let isStream ← isOn 's'
      turn false 'c'
      match operands with
      | text :: rest =>
        if isGiven then
          modifyProcess fun p => { p with name := rest.headD name, arguments := rest.drop 1 }
          runText text.toList fuel
        else if isStream then
          modifyProcess fun p => { p with arguments := operands }
          runText (Text.Utf8.decodeLossy (← readAll 0)) fuel
        else
          match ← openFile text with
          | .ok input =>
            modifyProcess fun p => { p with name := text, arguments := rest }
            runText (Text.Utf8.decodeLossy (input.pieces.map Prod.snd).flatten) fuel
          | .error .isDirectory => return 0
          | .error e => blame (openFault text e)
      | [] =>
        if isGiven then blame "-c requires an argument"
        turn true 's'
        runText (Text.Utf8.decodeLossy (← readAll 0)) fuel) fuel
termination_by structural fuel => fuel

def conclude (body : Exec Nat) : Nat → Exec Nat
  | 0 => throw .stuck
  | fuel + 1 => do
    match ← endOf body with
    | .killed signal => throw (.ended (.killed signal))
    | .exited code =>
      match (← process).traps.lookup 0 with
      | none | some "" => return code
      | some action =>
        modifyProcess fun p => { p with
          traps := p.traps.filter fun entry => entry.1 != 0
          status := code }
        let _ ← runText action.toList fuel
        return code
termination_by structural fuel => fuel

def runText (text : List Char) : Nat → Exec Nat
  | 0 => throw .stuck
  | fuel + 1 => do
    modifyProcess fun p => { p with line := 1 }
    runLines text text 0 fuel
termination_by structural fuel => fuel

/-- Runs the commands of what is left of a text, line by line; `code` is the exit code so far. -/
def runLines (text rest : List Char) (code : Nat) : Nat → Exec Nat
  | 0 => throw .stuck
  | fuel + 1 => do
    let rest := Shell.Reader.skipLines rest
    if rest.isEmpty then return code
    match Shell.nextScript text rest with
    | .error fault =>
      modifyProcess fun p => { p with line := fault.line }
      blame fault.message
    | .ok (script, rest) =>
      let code ← run {} script fuel
      attend fuel
      runLines text rest code fuel
termination_by structural fuel => fuel

/-- Does what a signal asks for that another process has sent. -/
def attend : Nat → Exec Unit
  | 0 => throw .stuck
  | fuel + 1 => do
    match ← takeSignal? with
    | some signal => die signal fuel
    | none => return
termination_by structural fuel => fuel

def runKill (arguments : List String) : Nat → Exec Nat
  | 0 => throw .stuck
  | fuel + 1 => do
    match killRequest arguments with
    | .help => blame killUsage
    | .list codes => listSignals codes
    | .illegalOption letter => blame ("Illegal option -" ++ letter.toString)
    | .unnamedSignal => blame "No arg for -s option"
    | .unknownSignal name => blame ("invalid signal number or name: " ++ name)
    | .send signal targets =>
      let mut code := 0
      for target in targets do
        let p ← process
        let missing : Exec Unit := report "No such process\n"
        match Shell.Integer.natural? target with
        | some number =>
          if number = p.number || number = 0 then die signal fuel
          else if !(← killOther number signal) then
            missing
            code := 1
        | none =>
          if target.startsWith "%" then
            missing
            code := 1
          else blame ("Illegal number: " ++ target)
      return code
termination_by structural fuel => fuel

def die (signal : Nat) : Nat → Exec Unit
  | 0 => throw .stuck
  | fuel + 1 => do
    let p ← process
    match if signal = 9 || signal = 19 then none else p.traps.lookup signal with
    | some "" => return
    | some action =>
      let _ ← underName none (runText action.toList fuel)
      modifyProcess fun now => { now with status := p.status, line := p.line }
    | none =>
      if [0, 17, 18, 23, 28].contains signal then return
      else if 19 ≤ signal && signal ≤ 22 then throw .stuck
      else throw (.ended (.killed signal))
termination_by structural fuel => fuel

def runOwn (name : String) (arguments : List String) : Nat → Exec Nat
  | 0 => throw .stuck
  | fuel + 1 => do
    let p ← process
    match name with
    | "exit" => throw (.ended (.exited ((← countArgument p.status 0 arguments) % 256)))
    | "return" => throw (.leaveFunction (← countArgument p.status 0 arguments))
    | "break" =>
      let levels ← countArgument 1 1 arguments
      if 0 < p.loops then throw (.leaveLoop (min levels p.loops)) else return 0
    | "continue" =>
      let levels ← countArgument 1 1 arguments
      if 0 < p.loops then throw (.nextRound (min levels p.loops)) else return 0
    | "eval" => runText (" ".intercalate arguments).toList fuel
    | "." => runFile (arguments.headD "") fuel
    | "exec" =>
      match arguments with
      | [] => return 0
      | program :: rest =>
        let directories ← searchPath
        orderVariables
        throw (.ended (.exited (← execute directories (startFailure program) program rest fuel)))
    | "export" =>
      exportAll arguments
      return 0
    | "readonly" =>
      markReadOnly arguments
      return 0
    | "local" =>
      makeLocal arguments
      return 0
    | "unset" =>
      unsetAll arguments
      return 0
    | "set" =>
      setOptions arguments
      return 0
    | "shift" =>
      let count ← countArgument 1 0 arguments
      if p.arguments.length < count then blame "can't shift that many"
      modifyProcess fun p => { p with arguments := p.arguments.drop count }
      return 0
    | "trap" => setTraps arguments
    | "times" =>
      let line := "0m0.000000s 0m0.000000s\n"
      writeText 1 (line ++ line)
      return 0
    | "cd" | "chdir" => changeDirectory arguments
    | "read" => readVariables arguments
    | "getopts" => takeOption arguments
    | "umask" => changeMask arguments
    | "type" => describeAll arguments
    | "hash" => remember arguments
    | "wait" =>
      match ← interruption? (← endOfWait arguments) with
      | some (time, signal) =>
        waitUntil time
        attend fuel
        return 128 + signal
      | none => wait arguments
    | "kill" => runKill arguments fuel
    | "command" =>
      let (options, names) ← withoutOptions ['p', 'v', 'V'] arguments
      match names with
      | program :: _ =>
        if options.contains 'V' then describe program
        else if options.contains 'v' then locate program
        else return 0
      | [] => return 0
    | "echo" =>
      write 1 (Shell.Format.echo arguments)
      return 0
    | "printf" =>
      let (_, operands) ← withoutOptions [] arguments
      match operands with
      | [] => blame "usage: printf format [arg ...]"
      | text :: arguments =>
        let (bytes, faults) := Shell.Format.format text arguments
        for fault in faults do report fault
        write 1 bytes
        return if faults.isEmpty then 0 else if Shell.Format.isSound text then 1 else 2
    | "test" | "[" =>
      match ← Tool.test name arguments with
      | .ok value => return if value then 0 else 1
      | .error fault => blame fault.message
    | "pwd" =>
      let (options, _) ← withoutOptions ['L', 'P'] arguments
      if options.getLast? = some 'P' then Tool.run name name []
      else
        writeText 1 (p.directory.text ++ "\n")
        return 0
    | "false" => return 1
    | _ => return 0
termination_by structural fuel => fuel

def runFile (name : String) : Nat → Exec Nat
  | 0 => throw .stuck
  | fuel + 1 => do
    if name == "" then return 0
    let directories ← searchPath
    let candidates := if name.contains '/' then [name]
      else directories.map fun directory => Image.fileIn directory name
    let tree ← tree
    let isFile (file : String) : Bool := match tree.find (.followed file) with
      | .ok (.file ..) => true
      | _ => false
    match candidates.find? isFile with
    | none =>
      if name.contains '/' then blame (openFault name .noEntry) else blame (name ++ ": not found")
    | some file =>
      match ← openFile file with
      | .ok input =>
        let text := Text.Utf8.decodeLossy (input.pieces.map Prod.snd).flatten
        underName (some file) (returning (runText text fuel))
      | .error e => blame (openFault file e)
termination_by structural fuel => fuel

end

end Interpreter

end LintRun.Machine
