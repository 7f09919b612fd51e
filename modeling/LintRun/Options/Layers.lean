import LintRun.Ceiling
import LintRun.Config
import LintRun.Options

/-!
# Layers of options

Each option comes from the first layer that gives it: the command line, a variable of the
environment, the configuration file. A blank variable gives nothing. `resolve` joins the layers and
fails before anything is run.
-/

namespace LintRun

structure Overrides where
  directory : Option Path := none
  included : Option (List String) := none
  excluded : Option (List String) := none
  failOnWarnings : Option Bool := none
  supportDuplicatedNames : Option Bool := none
  debug : Option Bool := none
  php : Option String := none
  timeout : Option Binary64 := none
  config : Option Path := none

def inputName (option : String) : String :=
  "INPUT_" ++ Text.upper (String.ofList (option.toList.map fun c => if c = ' ' then '_' else c))

def Environment.input? (environment : Environment) (option : String) : Option String :=
  (environment.lookup (inputName option)).bind fun raw =>
    let text := Text.trim raw
    if text = "" then none else some text

/-- Why the layers give no options. -/
inductive ResolveFailure
  | config (failure : ConfigFailure)
  | option (error : OptionError)
  | system (error : OsError)
  | overflow
  /-- The interpreter cannot be shown as a text. -/
  | overlong

namespace Options

/-- The value of an option from the first layer that has one. -/
def pick (environment : Environment) (defaults : Table) (option : String)
    (override : Option Value) : Value :=
  ((override.orElse fun _ => (environment.input? option).map .text).orElse fun _ =>
    defaults.lookup option).getD .null

def locateDirectory (cwd : Path) : Option Path → Path
  | none => cwd
  | some path => (cwd.join path).normalize

def requestedDirectory (overrides : Overrides) (environment : Environment) (cwd : Path) : Path :=
  locateDirectory cwd
    (overrides.directory.orElse fun _ => (environment.input? "directory").map Path.ofString)

def textList (items : List String) : Value :=
  .list (items.map .text)

def liftOption {α : Type} : Except OptionError α → Except ResolveFailure α
  | .ok a => .ok a
  | .error e => .error (.option e)

def liftTimeout {α : Type} : Except TimeoutFailure α → Except ResolveFailure α
  | .ok a => .ok a
  | .error (.invalid e) => .error (.option e)
  | .error .overflow => .error .overflow

def asPhp : Value → Except ResolveFailure String
  | .null => .ok defaultPhp
  | value =>
    match value.written with
    | .ok text => .ok text
    | .error _ => .error .overlong

/-- The options of the layers, before they are validated. -/
def propose (overrides : Overrides) (environment : Environment) (defaults : Table)
    (directory : Path) : Except ResolveFailure Proposed := do
  let pick := pick environment defaults
  let included ← liftOption ((pick "include" (overrides.included.map textList)).asPaths "include")
  let excluded ← liftOption ((pick "exclude" (overrides.excluded.map textList)).asPaths "exclude")
  let failOnWarnings ← liftOption
    ((pick "fail-on-warnings" (overrides.failOnWarnings.map .bool)).asFlag "fail-on-warnings")
  let supportDuplicatedNames ← liftOption
    ((pick "support-duplicated-names" (overrides.supportDuplicatedNames.map .bool)).asFlag
      "support-duplicated-names")
  let debug ← liftOption ((pick "debug" (overrides.debug.map .bool)).asFlag "debug")
  let timeout ← liftTimeout (pick "timeout" (overrides.timeout.map .float)).asTimeout
  let php ← asPhp (pick "php" (overrides.php.map .text))
  return {
    directory := some directory
    included, excluded, failOnWarnings, supportDuplicatedNames, debug, php, timeout }

/-- The options in the configuration file, which is only looked for in a directory. -/
def defaultsIn (tree : Tree) (directory : Path) (config : Option Path) :
    Except ResolveFailure Table :=
  match tree.hasDirectory directory with
  | .error e => .error (.system e)
  | .ok false => .ok []
  | .ok true =>
    match Config.defaults tree directory config with
    | .ok table => .ok table
    | .error e => .error (.config e)

def ofLayers (tree : Tree) (overrides : Overrides) (environment : Environment) (defaults : Table)
    (directory : Path) : Except ResolveFailure Options := do
  let proposed ← propose overrides environment defaults directory
  match validate tree proposed with
  | .ok options => .ok options
  | .error (.system e) => .error (.system e)
  | .error (.options first _) => .error (.option first)

def resolve (tree : Tree) (overrides : Overrides) (environment : Environment) (cwd : Path) :
    Except ResolveFailure Options := do
  let directory := requestedDirectory overrides environment cwd
  let defaults ← defaultsIn tree directory (overrides.config.map cwd.join)
  ofLayers tree overrides environment defaults directory

end Options

end LintRun
