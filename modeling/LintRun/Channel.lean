/-!
# Channels

The two streams that a program writes to: its results go to one, and what it has to say about them
to the other.
-/

namespace LintRun

inductive Channel
  | stdout
  | stderr
  deriving DecidableEq

end LintRun
