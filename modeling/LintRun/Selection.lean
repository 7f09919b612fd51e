/-!
# Which files are checked

A file is taken as PHP by its extension, in any case, after at least one character that is no line
break; one line break may follow it. An exclusion names a file or a directory with all below it.
-/

namespace LintRun

/-- Whether `cs` ends with the extension; an uppercase letter counts as the lowercase one. -/
def endsWithExtension (cs : List Char) : Bool :=
  match cs.reverse.map Char.toLower with
  | 'p' :: 'h' :: 'p' :: '.' :: before :: _ => before != '\n'
  | _ => false

def isPhpFile (name : String) : Bool :=
  endsWithExtension name.toList ||
    (name.toList.getLast? == some '\n' && endsWithExtension name.toList.dropLast)

/-- Whether an exclusion of `excluded` covers `path`: it is the path or a directory above it. -/
def covers (separator excluded path : String) : Bool :=
  path == excluded || (excluded ++ separator).toList.isPrefixOf path.toList

def isExcluded (separator : String) (exclusions : List String) (path : String) : Bool :=
  exclusions.any (covers separator · path)

end LintRun
