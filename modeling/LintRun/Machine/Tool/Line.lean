import LintRun.Text.Utf8

/-!
# Lines of a stream

The lines of bytes, each with the newline that ends it, and numbers in columns.
-/

namespace LintRun.Machine.Tool

open Text (Bytes)

def padStart (width : Nat) (text : String) : String :=
  String.ofList (List.replicate (width - text.length) ' ') ++ text

def lineBytes (bytes : Bytes) : List Bytes :=
  let lines := bytes.splitOn 10
  lines.dropLast.map (· ++ [10]) ++
    (if lines.getLast? == some [] then [] else lines.getLast?.toList)

end LintRun.Machine.Tool
