import LintRun.Version

/-!
# Strategies

How the files reach the interpreter. From version 8.3 on it takes many files at once. Before that
each file is a run of its own, if the files may declare the same names, and otherwise one run of a
helper script compiles all of them.
-/

namespace LintRun

inductive Strategy
  | batch (php : String) (manyFiles : Bool)
  | aggregate (php : String) (flags : List String)
  deriving DecidableEq

namespace Strategy

def describe : Strategy → String
  | .batch _ true => "Using php -l to check the files (many at once)"
  | .batch _ false => "Using php -l to check the files (one by one)"
  | .aggregate .. => "Using opcache to check the files"

/-- The compiler cache works on the command line and for new files; the just-in-time compiler,
which came with version 8.0, is switched off. -/
def aggregateFlags (version : Version) : List String :=
  ["-d", "opcache.enable_cli=1", "-d", "opcache.file_update_protection=0"] ++
    if version.atLeast 8 0 then ["-d", "opcache.jit=disable"] else []

def select (version : Version) (supportDuplicatedNames : Bool) (php : String) : Strategy :=
  if version.atLeast 8 3 then .batch php true
  else if supportDuplicatedNames then .batch php false
  else .aggregate php (aggregateFlags version)

end Strategy

end LintRun
