import LintRun.Machine.Source
import LintRun.Machine.Tool.Line

/-!
# Showing files

What `cat` shows of the files that it joins. Without options it passes on each piece as it comes.
-/

namespace LintRun.Machine.Tool

open Text (Bytes)
open Exec

structure Display where
  /-- Whether bytes that are no printable characters are written with ones that are. -/
  visible : Bool
  tabs : Bool
  ends : Bool
  numbers : Bool
  /-- Whether empty lines get no numbers. -/
  skipsEmpty : Bool
  /-- Whether one of several empty lines in a row is left. -/
  squeezes : Bool

def Display.ofLetters (letters : List Char) : Display where
  visible := ['v', 'A', 'e', 't'].any letters.contains
  tabs := ['T', 'A', 't'].any letters.contains
  ends := ['E', 'A', 'e'].any letters.contains
  numbers := ['n', 'b'].any letters.contains
  skipsEmpty := letters.contains 'b'
  squeezes := letters.contains 's'

/-- A byte in printable characters. The upper half and the control characters have marks. -/
def visibleByte (b : UInt8) : Bytes :=
  let low := b &&& 127
  (if b < 128 then [] else [77, 45]) ++
    if low < 32 then [94, low + 64] else if low = 127 then [94, 63] else [low]

def Display.byte (display : Display) (b : UInt8) : Bytes :=
  if b = 10 then if display.ends then [36, 10] else [10]
  else if b = 9 then if display.tabs then [94, 73] else [9]
  else if display.visible then visibleByte b
  else [b]

/-- Lines of which the first has the given number; `isEmptyBefore` tells of the line before. -/
def Display.lines (display : Display) (number : Nat) (isEmptyBefore : Bool) : List Bytes → Bytes
  | [] => []
  | line :: rest =>
    let isEmpty := line == [10]
    if display.squeezes && isEmpty && isEmptyBefore then display.lines number true rest
    else
      let isNumbered := display.numbers && !(display.skipsEmpty && isEmpty)
      let label := if isNumbered then padStart 6 (toString number) ++ "\t" else ""
      Text.Utf8.encode label ++ line.flatMap display.byte ++
        display.lines (if isNumbered then number + 1 else number) isEmpty rest

def concatenate (name : String) (arguments : List String) : Exec Nat := do
  let (options, files) := splitOptions arguments
  let letters := lettersOf options
  let unknown (c : Char) : Bool := !"AbeEnstTuv".toList.contains c
  if let some option := options.find? fun option => option.startsWith "--" then
    return ← refuseOption name option
  if let some letter := letters.find? unknown then
    return ← refuseOption name (String.ofList ['-', letter])
  let mut code := 0
  let mut contents : Bytes := []
  for file in if files.isEmpty then ["-"] else files do
    match ← source name plainFault file with
    | some descriptor =>
      if letters.all (· == 'u') then passOn id descriptor
      else contents := contents ++ (← readAll descriptor)
    | none => code := 1
  write 1 ((Display.ofLetters letters).lines 1 false (lineBytes contents))
  return code

end LintRun.Machine.Tool
