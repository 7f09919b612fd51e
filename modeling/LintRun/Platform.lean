/-!
# Platforms

Windows differs from every other platform in how a command line is quoted and how long it may be.
-/

namespace LintRun

inductive Platform
  | posix
  | windows
  deriving DecidableEq

/-- Only the name `win32` stands for Windows. -/
def Platform.ofName (name : String) : Platform :=
  if name = "win32" then .windows else .posix

end LintRun
