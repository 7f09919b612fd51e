import LintRun.Text.Quoted

/-!
# Errors of the operating system

What a failed call reports: nothing, a text, or a number with a reason and the file it was about.
-/

namespace LintRun

/-- A file named in an error, as a text or as a path. -/
inductive OsError.Subject
  | name (text : String)
  | path (text : String)
  deriving DecidableEq

inductive OsError
  | bare
  | described (text : String)
  | numbered (number : Int) (reason : Option String) (subject : Option OsError.Subject)
  deriving DecidableEq

namespace OsError

def Subject.shown : Subject → String
  | .name text => Text.quoted text
  | .path text => "PosixPath(" ++ Text.quoted text ++ ")"

def message : OsError → String
  | .bare => ""
  | .described text => text
  | .numbered number reason subject =>
    "[Errno " ++ toString number ++ "] " ++ reason.getD "None" ++
      match subject with
      | none => ""
      | some subject => ": " ++ subject.shown

/-- The reason alone, or the whole message where there is none. -/
def reason : OsError → String
  | .numbered number (some reason) subject =>
    if reason = "" then (OsError.numbered number (some reason) subject).message else reason
  | e => e.message

end OsError

end LintRun
