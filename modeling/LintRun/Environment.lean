/-!
# Environments

The variables that a process is given, each with its name and its value.
-/

namespace LintRun

abbrev Environment := List (String × String)

end LintRun
