import LintRun.Text.Quoted

/-!
# Texts and lists in JSON

Strings are written in printable ASCII: a character outside it is written by its UTF-16 units, four
hexadecimal digits each, unless JSON has a shorter escape.
-/

namespace LintRun.Text.Json

def unit (n : Nat) : List Char :=
  '\\' :: 'u' :: hexDigits 4 n

def escapedChar (c : Char) : List Char :=
  if c = '"' || c = '\\' then ['\\', c]
  else if c = '\n' then ['\\', 'n']
  else if c = '\r' then ['\\', 'r']
  else if c = '\t' then ['\\', 't']
  else if c = '\x08' then ['\\', 'b']
  else if c = '\x0c' then ['\\', 'f']
  else if 32 ≤ c.toNat && c.toNat < 127 then [c]
  else if c.toNat < 0x10000 then unit c.toNat
  else
    let offset := c.toNat - 0x10000
    unit (0xd800 + offset / 0x400) ++ unit (0xdc00 + offset % 0x400)

def string (s : String) : String :=
  String.ofList ('"' :: s.toList.flatMap escapedChar ++ ['"'])

def list (items : List String) : String :=
  "[" ++ ", ".intercalate items ++ "]"

def bool (b : Bool) : String :=
  if b then "true" else "false"

end LintRun.Text.Json
