import LintRun.Shell.Quote

/-!
# The interpreter's part of a command line

What stands before the files: the interpreter, no configuration file, diagnostics on the error
stream, all of them, no compiler cache, and the request to check the syntax only.
-/

namespace LintRun.Shell

/-- The options of the interpreter, none of which needs quoting. -/
def lintOptions : List String := [
  "-n", "-d", "display_errors=stderr", "-d", "error_reporting=-1", "-d", "opcache.enable_cli=0",
  "-l"]

def lintOpening (platform : Platform) (php : String) : String :=
  " ".intercalate (quote platform php :: lintOptions)

end LintRun.Shell
