import LintRun.Machine.Source
import LintRun.Machine.Tool.Directory

/-!
# Redirections

Where a redirection leads a descriptor, and what is said if that cannot be opened.
-/

namespace LintRun.Machine

namespace Exec

def createFault (file : String) (e : Errno) : String :=
  "cannot create " ++ file ++ ": " ++ if e.isMissing then "Directory nonexistent" else e.text

def openFault (file : String) (e : Errno) : String :=
  "cannot open " ++ file ++ ": " ++ if e.isMissing then "No such file" else e.text

/-- Opens a file for writing. Without `append` it is emptied, which a shell may have to refuse. -/
def openOutput (append keeps : Bool) (file : String) : Exec (Except String Output) := do
  let path ← absolute file
  let tree ← tree
  let failure (e : Errno) : Exec (Except String Output) := return .error (createFault file e)
  match Device.at? tree file with
  | some (.stream descriptor) => return .ok ((← output? descriptor).getD .nowhere)
  | some _ => return .ok .nowhere
  | none =>
    if file == "" then failure .noEntry
    else
      match tree.creation file with
      | .error e => failure e
      | .ok names =>
        match tree.root.get? names with
        | none =>
          change (.file path [] false)
          return .ok (.file path)
        | some (.file _ executable) =>
          if keeps && !append then failure .exists_
          else
            if !append then change (.file path [] executable)
            return .ok (.file path)
        | some _ => failure .isDirectory

/-- Opens a file for reading on a descriptor. A directory can be opened, but not be read. -/
def openInput (descriptor : Nat) (file : String) : Exec (Except String Unit) := do
  match ← openFile file with
  | .ok input =>
    setInput descriptor input
    return .ok ()
  | .error .isDirectory =>
    setInput descriptor { fault := some .isDirectory }
    return .ok ()
  | .error e => return .error (openFault file e)

def redirectTo (descriptor : Nat) (kind : Shell.RedirectionKind) (target : String) :
    Exec (Except String Unit) := do
  match kind with
  | .input => openInput descriptor target
  | .here =>
    setInput descriptor { pieces := [(0, Text.Utf8.encode target)] }
    return .ok ()
  | .output | .append | .overwrite =>
    let keeps := kind == .output && (← isOn 'C')
    match ← openOutput (kind == .append) keeps target with
    | .ok output =>
      setDescriptor descriptor (.output output)
      return .ok ()
    | .error text => return .error text
  | .duplicate =>
    if target == "-" then
      modifyProcess fun p => { p with
        descriptors := p.descriptors.filter fun entry => entry.1 != descriptor }
      return .ok ()
    else
      let descriptors := (← process).descriptors
      match (Shell.Integer.natural? target).bind fun n => descriptors.lookup n with
      | some source =>
        setDescriptor descriptor source
        return .ok ()
      | none => return .error (target ++ ": Bad file descriptor")

end Exec

end LintRun.Machine
