import Mathlib.Algebra.GroupWithZero.Nat
import LintRun.Batch

/-!
# Lines of a batch

What a packer keeps true while files come in, and from it what holds of every line: it has a file,
it is rendered from its files, and it reaches the limit only with a single file. No file is lost,
doubled or moved. Files that come later change no line but the last one.
-/

namespace LintRun

variable {p : Packing} {packer : Packer} {files : List String} {line : Line}

theorem Packing.length_render (p : Packing) (files : List String) :
    (p.render files).length = p.opening.length + (files.map p.width).sum := by
  have hwidth : (String.length ∘ fun file => " " ++ p.token file) = p.width := by
    funext file
    have hspace : " ".length = 1 := rfl
    simp [Packing.width, hspace, Nat.add_comm]
  rw [Packing.render, String.length_append, String.length_join, List.map_map, hwidth]

theorem Packing.length_render_concat (p : Packing) (files : List String) (file : String) :
    (p.render (files ++ [file])).length = (p.render files).length + p.width file := by
  simp [length_render, Nat.add_assoc]

/-- What every line of a packing is like. -/
structure Packing.Admits (p : Packing) (line : Line) : Prop where
  text_eq : line.text = p.render line.files
  files_ne_nil : line.files ≠ []
  lt_limit : 2 ≤ line.files.length → (line.text.length : Int) < p.limit

namespace Packer

/-- The line under construction has the length that the packer has noted, and only its first file
may bring it to the limit. -/
structure Fits (p : Packing) (packer : Packer) : Prop where
  length_eq : packer.files ≠ [] → packer.length = (p.render packer.files.reverse).length
  lt_limit : 2 ≤ packer.files.length → (packer.length : Int) < p.limit

theorem fits_empty (p : Packing) : Fits p {} :=
  ⟨fun h => absurd rfl h, fun h => by simp at h⟩

/-- What taking a file can do: it opens the first line, joins the line under construction, or
completes that line and opens the next one. -/
theorem push_cases (p : Packing) (packer : Packer) (file : String) :
    (packer.files = [] ∧
      packer.push p file = (none, ⟨[file], p.opening.length + p.width file⟩)) ∨
    (packer.files ≠ [] ∧ ((packer.length + p.width file : Nat) : Int) < p.limit ∧
      packer.push p file = (none, ⟨file :: packer.files, packer.length + p.width file⟩)) ∨
    (packer.files ≠ [] ∧ p.limit ≤ ((packer.length + p.width file : Nat) : Int) ∧
      packer.push p file =
        (some (packer.complete p), ⟨[file], p.opening.length + p.width file⟩)) := by
  by_cases hfiles : packer.files = []
  · exact .inl ⟨hfiles, by simp [push, hfiles]⟩
  · have hempty : ¬packer.files.isEmpty = true := by simpa using hfiles
    by_cases hlimit : ((packer.length + p.width file : Nat) : Int) < p.limit
    · exact .inr (.inl ⟨hfiles, hlimit, by rw [push, if_neg hempty, if_pos hlimit]⟩)
    · exact .inr (.inr ⟨hfiles, Int.not_lt.mp hlimit, by rw [push, if_neg hempty, if_neg hlimit]⟩)

/-- With no room for a second file each file has a line. -/
theorem push_of_limit_nonpos (hlimit : p.limit ≤ 0) (hfiles : packer.files ≠ []) (file : String) :
    packer.push p file =
      (some (packer.complete p), ⟨[file], p.opening.length + p.width file⟩) := by
  rcases push_cases p packer file with ⟨hnil, -⟩ | ⟨-, hlt, -⟩ | ⟨-, -, hpush⟩
  · exact absurd hnil hfiles
  · omega
  · exact hpush

theorem fits_push (h : Fits p packer) (file : String) : Fits p (packer.push p file).2 := by
  -- A file that opens a line may be too long by itself.
  have halone : Fits p ⟨[file], p.opening.length + p.width file⟩ :=
    ⟨fun _ => by simp [p.length_render], fun h => by simp at h⟩
  rcases push_cases p packer file with ⟨-, hpush⟩ | ⟨hfiles, hlimit, hpush⟩ | ⟨-, -, hpush⟩
  · rw [hpush]; exact halone
  · rw [hpush]
    refine ⟨fun _ => ?_, fun _ => hlimit⟩
    rw [List.reverse_cons, p.length_render_concat, ← h.length_eq hfiles]
  · rw [hpush]; exact halone

theorem admits_complete (h : Fits p packer) (hfiles : packer.files ≠ []) :
    p.Admits (packer.complete p) := by
  refine ⟨rfl, by simpa [complete, Packing.line] using hfiles, fun htwo => ?_⟩
  have hlength := h.length_eq hfiles
  have hlimit := h.lt_limit (by simpa [complete, Packing.line] using htwo)
  rw [hlength] at hlimit
  exact hlimit

theorem admits_push (h : Fits p packer) {file : String}
    (hline : (packer.push p file).1 = some line) : p.Admits line := by
  rcases push_cases p packer file with ⟨-, hpush⟩ | ⟨-, -, hpush⟩ | ⟨hfiles, -, hpush⟩
  · simp [hpush] at hline
  · simp [hpush] at hline
  · rw [hpush] at hline
    obtain rfl := Option.some.inj hline
    exact admits_complete h hfiles

theorem admits_finish (h : Fits p packer) (hline : packer.finish p = some line) :
    p.Admits line := by
  unfold finish at hline
  split at hline
  · cases hline
  · rename_i hfiles
    obtain rfl := Option.some.inj hline
    exact admits_complete h (by simpa using hfiles)

@[simp] theorem linesFrom_nil (p : Packing) (packer : Packer) :
    packer.linesFrom p [] = (packer.finish p).toList := rfl

@[simp] theorem linesFrom_cons (p : Packing) (packer : Packer) (file : String)
    (rest : List String) :
    packer.linesFrom p (file :: rest) =
      (packer.push p file).1.toList ++ (packer.push p file).2.linesFrom p rest := by
  rw [linesFrom]
  split <;> rename_i hpush <;> simp [hpush]

theorem admits_of_mem_linesFrom (h : Fits p packer) (hline : line ∈ packer.linesFrom p files) :
    p.Admits line := by
  induction files generalizing packer with
  | nil => exact admits_finish h (by simpa using hline)
  | cons file rest ih =>
    rw [linesFrom_cons, List.mem_append] at hline
    rcases hline with hline | hline
    · exact admits_push h (by simpa using hline)
    · exact ih (fits_push h file) hline

theorem flatMap_files_finish (p : Packing) (packer : Packer) :
    (packer.finish p).toList.flatMap Line.files = packer.files.reverse := by
  unfold finish
  split
  · rename_i hfiles
    simp [List.isEmpty_iff.mp hfiles]
  · simp [complete, Packing.line]

theorem flatMap_files_linesFrom (p : Packing) (packer : Packer) (files : List String) :
    (packer.linesFrom p files).flatMap Line.files = packer.files.reverse ++ files := by
  induction files generalizing packer with
  | nil => simpa using flatMap_files_finish p packer
  | cons file rest ih =>
    rw [linesFrom_cons, List.flatMap_append, ih]
    rcases push_cases p packer file with ⟨hfiles, hpush⟩ | ⟨-, -, hpush⟩ | ⟨-, -, hpush⟩
    · simp [hpush, hfiles]
    · simp [hpush]
    · simp [hpush, complete, Packing.line]

/-- The packer after files, with the lines that these have completed. -/
def pushAll (p : Packing) (packer : Packer) : List String → List Line × Packer
  | [] => ([], packer)
  | file :: rest =>
    let later := (packer.push p file).2.pushAll p rest
    ((packer.push p file).1.toList ++ later.1, later.2)

@[simp] theorem pushAll_nil (p : Packing) (packer : Packer) :
    packer.pushAll p [] = ([], packer) := rfl

@[simp] theorem pushAll_cons (p : Packing) (packer : Packer) (file : String)
    (rest : List String) :
    packer.pushAll p (file :: rest) =
      ((packer.push p file).1.toList ++ ((packer.push p file).2.pushAll p rest).1,
        ((packer.push p file).2.pushAll p rest).2) := rfl

theorem linesFrom_eq (p : Packing) (packer : Packer) (files : List String) :
    packer.linesFrom p files =
      (packer.pushAll p files).1 ++ ((packer.pushAll p files).2.finish p).toList := by
  induction files generalizing packer with
  | nil => rfl
  | cons file rest ih => simp [ih]

theorem pushAll_append (p : Packing) (packer : Packer) (files more : List String) :
    packer.pushAll p (files ++ more) =
      ((packer.pushAll p files).1 ++ ((packer.pushAll p files).2.pushAll p more).1,
        ((packer.pushAll p files).2.pushAll p more).2) := by
  induction files generalizing packer with
  | nil => rfl
  | cons file rest ih => simp [ih]

theorem pushAll_files_ne_nil (p : Packing) (packer : Packer) (file : String)
    (rest : List String) : (packer.pushAll p (file :: rest)).2.files ≠ [] := by
  induction rest generalizing packer file with
  | nil => rcases push_cases p packer file with ⟨-, h⟩ | ⟨-, -, h⟩ | ⟨-, -, h⟩ <;> simp [h]
  | cons next rest ih => simpa using ih (packer.push p file).2 next

end Packer

namespace Packing

/-- The lines that files complete are all of their lines but the last one. -/
theorem dropLast_lines (p : Packing) (files : List String) :
    (p.lines files).dropLast = (Packer.pushAll p {} files).1 := by
  rw [Packing.lines, Packer.linesFrom_eq]
  cases files with
  | nil => rfl
  | cons file rest =>
    have hne := Packer.pushAll_files_ne_nil p {} file rest
    rw [Packer.finish, if_neg (by simpa using hne), Option.toList_some, List.dropLast_concat]

theorem dropLast_lines_mono (p : Packing) {files more : List String} (h : files <+: more) :
    (p.lines files).dropLast <+: (p.lines more).dropLast := by
  obtain ⟨rest, rfl⟩ := h
  rw [dropLast_lines, dropLast_lines, Packer.pushAll_append]
  exact List.prefix_append _ _

theorem admits_of_mem_lines (h : line ∈ p.lines files) : p.Admits line :=
  Packer.admits_of_mem_linesFrom (Packer.fits_empty p) h

theorem flatMap_files_lines (p : Packing) (files : List String) :
    (p.lines files).flatMap Line.files = files := by
  simpa [Packing.lines] using Packer.flatMap_files_linesFrom p {} files

theorem sum_length_lines (p : Packing) (files : List String) :
    ((p.lines files).map fun line => line.files.length).sum = files.length := by
  rw [← List.length_flatMap, p.flatMap_files_lines]

end Packing

end LintRun
