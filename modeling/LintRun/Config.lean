import LintRun.Text.Line
import LintRun.Text.Utf8
import LintRun.Toml
import LintRun.Tree

/-!
# Configuration files

A directory may hold a configuration file. It is read leniently: what cannot be read or is
malformed counts as empty. A file that is named on the command line must be a document instead.
Neither way takes a file that is not text.
-/

namespace LintRun

namespace Config

def fileName : String := "phpsyntax.toml"

def sectionName : String := "phpsyntax"

inductive Failure
  | unreadable (error : OsError)
  | undecodable
  | malformed

def document (content : Text.Bytes) : Except Failure Table :=
  match Text.Utf8.decode? content with
  | none => .error .undecodable
  | some text =>
    match Toml.parse? (Text.unifyNewlines text) with
    | none => .error .malformed
    | some table => .ok table

def ofReading : Except OsError Text.Bytes → Except Failure Table
  | .error e => .error (.unreadable e)
  | .ok content => document content

end Config

/-- Why a configuration file stops a run. -/
inductive ConfigFailure
  | unreadable (path : Path) (error : OsError)
  | malformed (path : Path)
  | undecodable
  | nulByte

namespace Config

def implicit (reading : Except OsError Text.Bytes) : Except ConfigFailure Table :=
  match ofReading reading with
  | .ok table => .ok table
  | .error (.unreadable _) => .ok []
  | .error .malformed => .ok []
  | .error .undecodable => .error .undecodable

def explicit (path : Path) (reading : Except OsError Text.Bytes) : Except ConfigFailure Table :=
  match ofReading reading with
  | .ok table => .ok table
  | .error (.unreadable e) => .error (.unreadable path e)
  | .error .malformed => .error (.malformed path)
  | .error .undecodable => .error .undecodable

/-- The content of a file of the tree; a path with a NUL character is no path at all. -/
def reading (tree : Tree) (path : Path) : Except ConfigFailure (Except OsError Text.Bytes) :=
  if path.text.contains '\x00' then .error .nulByte
  else
    .ok <|
      match tree.read path with
      | .ok content => .ok content
      | .error e => .error (e.error (.name path.text))

/-- The document at `path` if one is given, and else that of the directory. -/
def load (tree : Tree) (directory : Path) (path : Option Path) : Except ConfigFailure Table :=
  match path with
  | some path => (reading tree path).bind (explicit path)
  | none => (reading tree (directory.child fileName)).bind implicit

/-- The section of a document that holds the options. -/
def optionsOf (table : Table) : Table :=
  match table.lookup sectionName with
  | some (.table entries) => entries
  | _ => []

def defaults (tree : Tree) (directory : Path) (path : Option Path) : Except ConfigFailure Table :=
  (load tree directory path).map optionsOf

end Config

namespace ConfigFailure

def message : ConfigFailure → String
  | .unreadable path e => "Failed to read config file " ++ path.text ++ ": " ++ e.reason
  | .malformed path => "Invalid config file " ++ path.text ++ ": malformed document"
  | .undecodable => "the configuration file is not text"
  | .nulByte => "embedded null byte"

end ConfigFailure

end LintRun
