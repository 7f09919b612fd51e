import Mathlib.Data.Seq.Basic
import LintRun.Proofs.BatchLaws

/-!
# Lines as the files come in

The files of a batch may come one by one, and need never end. A line is given as soon as one more
file is known than there are on the lines so far, and the last line once it is known that there are
no more files (`Packer.Streams.lookahead`). What is given depends only on the files that have been
asked for (`Packer.Streams.map_fst_eq`).
-/

namespace LintRun

-- ---------------------------------------------------------------------------
-- Sequences of files
-- ---------------------------------------------------------------------------

/-- Gives the file that is next in a sequence, and counts how often it was asked for one. -/
def asking (files : Stream'.Seq String) (asked : Nat) : Option String × Nat :=
  (files.get? asked, asked + 1)

/-- The first lines of a sequence of files, at most `count` of them, each with the number of times
that a file has been asked for when the line is given. -/
def Packing.given (p : Packing) (files : Stream'.Seq String) (count : Nat) : List (Line × Nat) :=
  Packer.linesOf p (asking files) count {} 0

theorem take_add_one (files : Stream'.Seq String) (n : Nat) :
    files.take (n + 1) = files.take n ++ (files.get? n).toList := by
  induction n generalizing files with
  | zero => cases files using Stream'.Seq.recOn <;> simp
  | succ n ih =>
    cases files using Stream'.Seq.recOn with
    | nil => simp
    | cons file rest =>
      rw [Stream'.Seq.take_succ_cons, ih, Stream'.Seq.take_succ_cons, Stream'.Seq.get?_cons_succ,
        List.cons_append]

theorem take_take (files : Stream'.Seq String) (m n : Nat) :
    (files.take n).take m = files.take (min m n) := by
  ext i : 1
  simp only [List.getElem?_take, Stream'.Seq.getElem?_take]
  grind

theorem take_of_get?_eq_none {files : Stream'.Seq String} {m n : Nat} (h : files.get? m = none)
    (hle : m ≤ n) : files.take n = files.take m := by
  induction n, hle using Nat.le_induction with
  | base => rfl
  | succ n hle ih => rw [take_add_one, files.le_stable hle h, ih, Option.toList_none, List.append_nil]

namespace Packer

variable {p : Packing} {packer next : Packer} {files : Stream'.Seq String} {asked count : Nat}
  {file : String} {line : Line} {done lines : List Line}

theorem flatMap_files_pushAll (p : Packing) (packer : Packer) (files : List String) :
    (packer.pushAll p files).1.flatMap Line.files ++ (packer.pushAll p files).2.files.reverse =
      packer.files.reverse ++ files := by
  rw [← flatMap_files_linesFrom p packer files, linesFrom_eq, List.flatMap_append,
    flatMap_files_finish]

theorem files_of_push_some (h : packer.push p file = (some line, next)) : next.files = [file] := by
  rcases push_cases p packer file with ⟨-, hpush⟩ | ⟨-, -, hpush⟩ | ⟨-, -, hpush⟩
  · rw [hpush] at h; cases h
  · rw [hpush] at h; cases h
  · rw [hpush] at h
    rw [← (Prod.mk.inj h).2]

/-- Every time that a file was asked for there was one, and the files have completed these lines. -/
structure Taken (p : Packing) (files : Stream'.Seq String) (asked : Nat) (done : List Line)
    (packer : Packer) : Prop where
  pushAll_eq : Packer.pushAll p {} (files.take asked) = (done, packer)
  length_eq : (files.take asked).length = asked

namespace Taken

theorem start (p : Packing) (files : Stream'.Seq String) : Taken p files 0 [] {} :=
  ⟨by simp, by simp⟩

theorem push (h : Taken p files asked done packer) (hfile : files.get? asked = some file) :
    Taken p files (asked + 1) (done ++ (packer.push p file).1.toList) (packer.push p file).2 := by
  constructor
  · rw [take_add_one, hfile, Option.toList_some, pushAll_append, h.pushAll_eq]
    simp
  · simp [take_add_one, hfile, h.length_eq]

/-- The files that were asked for are on the lines and under construction. -/
theorem take_eq (h : Taken p files asked done packer) :
    files.take asked = done.flatMap Line.files ++ packer.files.reverse := by
  have hall := flatMap_files_pushAll p {} (files.take asked)
  rw [h.pushAll_eq] at hall
  simpa using hall.symm

theorem lines_eq {n : Nat} (h : Taken p files asked done packer) (hle : asked ≤ n) :
    ∃ rest, p.lines (files.take n) = done ++ packer.linesFrom p rest := by
  obtain ⟨rest, hrest⟩ : files.take asked <+: files.take n := by
    have htake := take_take files asked n
    rw [Nat.min_eq_left hle] at htake
    exact htake ▸ List.take_prefix asked _
  refine ⟨rest, ?_⟩
  rw [Packing.lines, ← hrest, linesFrom_eq, pushAll_append, h.pushAll_eq, linesFrom_eq,
    List.append_assoc]

theorem lines_eq_of_ended {n : Nat} (h : Taken p files asked done packer)
    (hended : files.get? asked = none) (hle : asked ≤ n) :
    p.lines (files.take n) = done ++ (packer.finish p).toList := by
  rw [take_of_get?_eq_none hended hle, Packing.lines, linesFrom_eq, h.pushAll_eq]

end Taken

/-- What becomes of the files that were taken when the next line is wanted. -/
inductive Filled (p : Packing) (files : Stream'.Seq String) (done : List Line) : Fill Nat → Prop
  | line {asked : Nat} {line : Line} {next : Packer} :
      Taken p files asked (done ++ [line]) next → next.files.length = 1 →
      Filled p files done (.line line next asked)
  | ended {asked : Nat} {packer : Packer} :
      Taken p files asked done packer → files.get? asked = none →
      Filled p files done (.ended (packer.finish p) (asked + 1))

theorem Taken.filled (h : Taken p files asked done packer) :
    Filled p files done (packer.fill p (asking files) asked) := by
  fun_induction fill p (asking files) packer asked with
  | case1 packer asked source htake =>
    obtain ⟨hended, rfl⟩ := Prod.mk.inj htake
    exact .ended h hended
  | case2 packer asked file source htake line next hpush =>
    obtain ⟨hfile, rfl⟩ := Prod.mk.inj htake
    have htaken := h.push hfile
    rw [hpush] at htaken
    exact .line htaken (by rw [files_of_push_some hpush]; rfl)
  | case3 packer asked file source htake next hpush ih =>
    obtain ⟨hfile, rfl⟩ := Prod.mk.inj htake
    have htaken := h.push hfile
    rw [hpush] at htaken
    exact ih (by simpa using htaken)

/-- The lines that are given after others, at most `count` of them, each with what was asked for. -/
inductive Streams (p : Packing) (files : Stream'.Seq String) :
    List Line → Nat → List (Line × Nat) → Prop
  | stop (done : List Line) : Streams p files done 0 []
  | line {asked count : Nat} {done : List Line} {line : Line} {next : Packer}
      {given : List (Line × Nat)} :
      Taken p files asked (done ++ [line]) next → next.files.length = 1 →
      Streams p files (done ++ [line]) count given →
      Streams p files done (count + 1) ((line, asked) :: given)
  | ended {asked count : Nat} {done : List Line} {packer : Packer} :
      Taken p files asked done packer → files.get? asked = none →
      Streams p files done (count + 1) ((packer.finish p).toList.map (·, asked + 1))

theorem Taken.streams (h : Taken p files asked done packer) (count : Nat) :
    Streams p files done count (linesOf p (asking files) count packer asked) := by
  induction count generalizing asked done packer with
  | zero => exact .stop done
  | succ count ih =>
    have hfilled := h.filled
    rw [linesOf]
    generalize packer.fill p (asking files) asked = filled at hfilled
    cases hfilled with
    | line htaken hlength => exact .line htaken hlength (ih htaken)
    | ended htaken hended => exact .ended htaken hended

/-- When these lines have been given, their files have been asked for and one file more. It is known
by then whether there is one. -/
structure Lookahead (files : Stream'.Seq String) (lines : List Line) (asked : Nat) : Prop where
  asked_eq : asked = (lines.flatMap Line.files).length + 1
  take_eq : files.take asked =
    lines.flatMap Line.files ++ (files.get? (lines.flatMap Line.files).length).toList

theorem Lookahead.of_take
    (h : files.take (lines.flatMap Line.files).length = lines.flatMap Line.files) :
    Lookahead files lines ((lines.flatMap Line.files).length + 1) :=
  ⟨rfl, by rw [take_add_one, h]⟩

namespace Taken

theorem lookahead (h : Taken p files asked lines packer) (hlength : packer.files.length = 1) :
    Lookahead files lines asked := by
  have hall := h.take_eq
  have hasked : asked = (lines.flatMap Line.files).length + 1 := by
    rw [← h.length_eq, hall, List.length_append, List.length_reverse, hlength]
  subst hasked
  refine .of_take ?_
  have htake := take_take files (lines.flatMap Line.files).length
    ((lines.flatMap Line.files).length + 1)
  rw [hall, Nat.min_eq_left (Nat.le_succ _), List.take_left] at htake
  exact htake.symm

theorem flatMap_files_finish (h : Taken p files asked done packer) :
    (done ++ (packer.finish p).toList).flatMap Line.files = files.take asked := by
  rw [h.take_eq, List.flatMap_append, Packer.flatMap_files_finish]

end Taken

/-- Nothing is under construction only before the first file. -/
theorem Taken.asked_eq_zero (h : Taken p files asked done packer) (hnone : packer.files = []) :
    asked = 0 := by
  obtain ⟨hpush, hlength⟩ := h
  cases htake : files.take asked with
  | nil => rw [← hlength, htake, List.length_nil]
  | cons file rest =>
    have hne := pushAll_files_ne_nil p {} file rest
    rw [← htake, hpush] at hne
    exact absurd hnone hne

namespace Streams

variable {given : List (Line × Nat)}

theorem lookahead (h : Streams p files done count given) {before after : List (Line × Nat)}
    (hgiven : given = before ++ (line, asked) :: after) :
    Lookahead files (done ++ before.map Prod.fst ++ [line]) asked := by
  induction h generalizing before with
  | stop => simp at hgiven
  | line htaken hlength _ ih =>
    cases before with
    | nil =>
      obtain ⟨⟨⟩, rfl⟩ := List.cons.inj hgiven
      simpa using htaken.lookahead hlength
    | cons x before =>
      rw [List.cons_append] at hgiven
      obtain ⟨rfl, hrest⟩ := List.cons.inj hgiven
      simpa using ih hrest
  | @ended taken count done packer htaken hended =>
    have hfiles := htaken.flatMap_files_finish
    cases hlast : packer.finish p with
    | none => simp [hlast] at hgiven
    | some last =>
      rw [hlast] at hfiles hgiven
      cases before with
      | cons => simp at hgiven
      | nil =>
        obtain ⟨⟨⟩, -⟩ := List.cons.inj hgiven
        rw [List.map_nil, List.append_nil]
        rw [Option.toList_some] at hfiles
        have hlookahead : Lookahead files (done ++ [line]) _ :=
          .of_take (by rw [hfiles, htaken.length_eq])
        rwa [hfiles, htaken.length_eq] at hlookahead

/-- Fewer lines than were wanted are given only if there are no more files. -/
theorem get?_eq_none (h : Streams p files done count given) (hless : given.length < count) :
    files.get? ((done ++ given.map Prod.fst).flatMap Line.files).length = none := by
  induction h with
  | stop => simp at hless
  | line _ _ _ ih => simpa using ih (by simpa using hless)
  | ended htaken hended =>
    rw [List.map_map]
    simpa [Function.comp_def, htaken.flatMap_files_finish, htaken.length_eq] using hended

/-- The lines are those of any part of the sequence that has all files that were asked for. -/
theorem map_fst_eq {n : Nat} (h : Streams p files done count given)
    (hn : ∀ x ∈ given, x.2 ≤ n) :
    given.map Prod.fst = ((p.lines (files.take n)).drop done.length).take count := by
  induction h with
  | stop => simp
  | line htaken _ _ ih =>
    rw [List.forall_mem_cons] at hn
    obtain ⟨rest, hlines⟩ := htaken.lines_eq hn.1
    have hlater := ih hn.2
    rw [hlines, List.drop_left] at hlater
    rw [hlines, List.append_assoc, List.drop_left, List.map_cons, hlater]
    rfl
  | @ended taken count done packer htaken hended =>
    have hle : taken ≤ n := by
      by_cases hnone : packer.files = []
      · rw [htaken.asked_eq_zero hnone]
        exact Nat.zero_le n
      · have hlast : (packer.complete p, taken + 1) ∈
            (packer.finish p).toList.map (·, taken + 1) := by
          simp [finish, hnone]
        exact Nat.le_of_succ_le (hn _ hlast)
    rw [htaken.lines_eq_of_ended hended hle, List.drop_left]
    cases packer.finish p <;> simp

end Streams

end Packer

end LintRun
