import Mathlib.Data.List.Forall2
import LintRun.Proofs.BatchLaws
import LintRun.Proofs.Shell.QuoteLaws
import LintRun.Shell.Lint

/-!
# Command lines decode back to the files

A POSIX shell reads a line of a batch as the interpreter, its options and the files of the line,
and meets nothing on it that is special. `operands?` is the part of a line that the interpreter
takes for files.
-/

namespace LintRun

open Shell (Word words? quote quotePosix quotedWord lintOptions lintOpening)

/-- How the lines of a batch run are written for a POSIX shell. -/
def lintPacking (php : String) (limit : Int) : Packing :=
  ⟨lintOpening .posix php, quote .posix, limit⟩

namespace CommandLine

/-- The words of a line after the interpreter and its options. -/
def operands? (line : String) : Option (List String) :=
  (words? line).map fun words => (words.map Word.text).drop (lintOptions.length + 1)

theorem quotePosix_lintOption {option : String} (h : option ∈ lintOptions) :
    quotePosix option.toList = option.toList := by
  have hplain : ∀ option ∈ lintOptions,
      option.toList ≠ [] ∧ option.toList.all Shell.isPlain = true := by decide
  exact Shell.quotePosix_of_isPlain (hplain option h).1 (hplain option h).2

theorem toList_lintOpening (php : String) :
    (lintOpening .posix php).toList =
      quotePosix php.toList ++
        lintOptions.flatMap fun option => ' ' :: quotePosix option.toList := by
  -- The options are written as they are, which is how they would be quoted.
  have hoptions : lintOptions.flatMap (fun option => ' ' :: quotePosix option.toList) =
      lintOptions.flatMap fun option => ' ' :: option.toList :=
    List.flatMap_congr fun option h => by rw [quotePosix_lintOption h]
  rw [hoptions, lintOpening, String.toList_intercalate, List.map_cons]
  have hspace : " ".toList = [' '] := rfl
  rw [hspace, Shell.intercalate_cons, List.flatMap_map]
  simp [quote, Shell.quoteChars]

theorem toList_render (php : String) (limit : Int) (files : List String) :
    ((lintPacking php limit).render files).toList =
      quotePosix php.toList ++
        (lintOptions ++ files).flatMap fun text => ' ' :: quotePosix text.toList := by
  have htoken : (fun file => (" " ++ quote .posix file).toList) =
      fun file : String => ' ' :: quotePosix file.toList := by
    funext file
    have hspace : " ".toList = [' '] := rfl
    simp [hspace, quote, Shell.quoteChars]
  rw [Packing.render, String.toList_append, String.toList_join, List.flatMap_map,
    List.flatMap_append, ← List.append_assoc]
  simp only [lintPacking, toList_lintOpening, htoken]

theorem words?_render (php : String) (limit : Int) (files : List String) :
    words? ((lintPacking php limit).render files) =
      some ((php :: lintOptions ++ files).map fun text => quotedWord text.toList) := by
  have htokens := Shell.wordsAfter?_tokens (some (quotedWord php.toList))
    ((lintOptions ++ files).map String.toList)
  rw [List.flatMap_map] at htokens
  rw [words?, toList_render, Shell.wordsAfter?_quotePosix, htokens]
  simp [Function.comp_def]

@[simp] theorem operands?_render (php : String) (limit : Int) (files : List String) :
    operands? ((lintPacking php limit).render files) = some files := by
  rw [operands?, words?_render, Option.map_some, List.map_map]
  have htext : (Word.text ∘ fun text : String => quotedWord text.toList) = id := by
    funext text
    simp
  simp [htext]

/-- Whatever the interpreter, the files and the limit, a shell reads the lines as commands to check
groups of files, and the groups in the order of the lines are the files. -/
theorem lines_decode (php : String) (limit : Int) (files : List String) :
    ∃ groups : List (List String),
      List.Forall₂ (fun line group => group ≠ [] ∧ ∃ words, words? line.text = some words ∧
          words.map Word.text =
            [php, "-n", "-d", "display_errors=stderr", "-d", "error_reporting=-1", "-d",
              "opcache.enable_cli=0", "-l"] ++ group)
        ((lintPacking php limit).lines files) groups ∧
      groups.flatten = files := by
  refine ⟨((lintPacking php limit).lines files).map Line.files, ?_, ?_⟩
  · rw [List.forall₂_map_right_iff, List.forall₂_same]
    intro line hline
    have hadmits := Packing.admits_of_mem_lines hline
    refine ⟨hadmits.files_ne_nil, _, hadmits.text_eq ▸ words?_render php limit line.files, ?_⟩
    simp [Function.comp_def, lintOptions]
  · exact Packing.flatMap_files_lines _ files

end CommandLine

end LintRun
