import Mathlib.Data.List.Chain
import LintRun.Proofs.BatchLaws

/-!
# Greedy packing

A line is complete only when the next file does not fit on it, so that no line has room for the
first file of the line after it (`Packer.isChain_linesFrom`). The lines cut the files into groups
that are as long as the limit allows (`Packing.lines_greedy`).
-/

namespace LintRun

variable {p : Packing} {packer : Packer} {files : List String} {line next : Line}

/-- With the first file of the next line, the line would reach the limit. -/
def Packing.Fills (p : Packing) (line next : Line) : Prop :=
  ∃ file, next.files.head? = some file ∧
    p.limit ≤ ((line.text ++ " " ++ p.token file).length : Int)

namespace Packer

/-- The first line begins with the file that opened it. -/
theorem head?_files_of_head?_linesFrom {file : String} (hfits : Fits p packer)
    (hfiles : packer.files = [file]) (h : (packer.linesFrom p files).head? = some next) :
    next.files.head? = some file := by
  have hall := flatMap_files_linesFrom p packer files
  obtain ⟨lines, hlines⟩ := List.head?_eq_some_iff.mp h
  have hadmits : p.Admits next :=
    admits_of_mem_linesFrom hfits (hlines ▸ List.mem_cons_self)
  rw [hlines, hfiles, List.flatMap_cons] at hall
  cases hnext : next.files with
  | nil => exact absurd hnext hadmits.files_ne_nil
  | cons first rest =>
    rw [hnext] at hall
    exact congrArg some (List.cons.inj hall).1

theorem length_complete (h : Fits p packer) (hfiles : packer.files ≠ []) (file : String) :
    ((packer.complete p).text ++ " " ++ p.token file).length =
      packer.length + p.width file := by
  have htext : (packer.complete p).text.length = packer.length := (h.length_eq hfiles).symm
  have hspace : " ".length = 1 := rfl
  rw [String.length_append, String.length_append, htext, hspace, Packing.width]
  omega

theorem isChain_linesFrom (h : Fits p packer) (files : List String) :
    (packer.linesFrom p files).IsChain p.Fills := by
  induction files generalizing packer with
  | nil =>
    rw [linesFrom_nil]
    cases packer.finish p with
    | none => exact .nil
    | some line => exact .singleton line
  | cons file rest ih =>
    have hlater := fits_push h file
    have hrest := ih hlater
    rw [linesFrom_cons]
    rcases push_cases p packer file with ⟨-, hpush⟩ | ⟨-, -, hpush⟩ | ⟨hfiles, hlimit, hpush⟩
    · rwa [hpush] at hrest ⊢
    · rwa [hpush] at hrest ⊢
    · rw [hpush] at hlater hrest ⊢
      refine List.isChain_cons.mpr ⟨?_, hrest⟩
      intro next hnext
      refine ⟨file, head?_files_of_head?_linesFrom hlater rfl hnext, ?_⟩
      rw [length_complete h hfiles]
      exact hlimit

end Packer

/-- The lines cut the files into groups, keep below the limit unless a group is a single file, and
have no room for the first file of the next group. -/
theorem Packing.lines_greedy (p : Packing) (files : List String) :
    (p.lines files).flatMap Line.files = files ∧
    (∀ line ∈ p.lines files,
      line.files ≠ [] ∧
      line.text = p.opening ++ String.join (line.files.map fun file => " " ++ p.token file) ∧
      (2 ≤ line.files.length → (line.text.length : Int) < p.limit)) ∧
    (p.lines files).IsChain p.Fills := by
  refine ⟨p.flatMap_files_lines files, ?_, ?_⟩
  · intro line hline
    have hadmits := admits_of_mem_lines hline
    exact ⟨hadmits.files_ne_nil, hadmits.text_eq, hadmits.lt_limit⟩
  · exact Packer.isChain_linesFrom (Packer.fits_empty p) files

/-- A line that would have just the length of the limit is too long. -/
example : ((Packing.lines ⟨"php -l", id, 10⟩ ["a", "b", "c", "ddd"]).map Line.text) =
    ["php -l a", "php -l b", "php -l c", "php -l ddd"] := by decide

end LintRun
