import Mathlib.Algebra.Order.BigOperators.Group.List
import Mathlib.Algebra.Order.Group.Nat
import LintRun.Proofs.BatchLaws

/-!
# Fewest lines

Files can be cut into lines in many ways. Greedy packing is one with the fewest lines, as none of
the others is ever ahead of it: each of its lines begins where the line of the same number begins in
any other cut, or later (`Packer.length_linesFrom_le`).
-/

namespace LintRun

variable {p : Packing} {packer : Packer} {file : String} {ahead current files rest : List String}
  {groups : List (List String)}

namespace Packing

/-- A way to cut files into consecutive groups, none of them empty, such that the line of a group
keeps below the limit unless the group is a single file. -/
structure Cuts (p : Packing) (files : List String) (groups : List (List String)) : Prop where
  flatten_eq : groups.flatten = files
  ne_nil : ∀ group ∈ groups, group ≠ []
  lt_limit : ∀ group ∈ groups, 2 ≤ group.length → ((p.render group).length : Int) < p.limit

theorem length_render_le_of_sublist (p : Packing) (h : current.Sublist files) :
    (p.render current).length ≤ (p.render files).length := by
  rw [length_render, length_render]
  exact Nat.add_le_add_left ((h.map p.width).sum_le_sum fun _ _ => Nat.zero_le _) _

theorem cuts_lines (p : Packing) (files : List String) :
    p.Cuts files ((p.lines files).map Line.files) := by
  refine ⟨?_, ?_, ?_⟩
  · rw [← List.flatMap_def, p.flatMap_files_lines]
  · intro group hgroup
    obtain ⟨line, hline, rfl⟩ := List.mem_map.mp hgroup
    exact (admits_of_mem_lines hline).files_ne_nil
  · intro group hgroup htwo
    obtain ⟨line, hline, rfl⟩ := List.mem_map.mp hgroup
    have hadmits := admits_of_mem_lines hline
    rw [← hadmits.text_eq]
    exact hadmits.lt_limit htwo

theorem lines_eq_map_line (p : Packing) (files : List String) :
    p.lines files = ((p.lines files).map Line.files).map p.line := by
  rw [List.map_map]
  refine (List.map_id _).symm.trans (List.map_congr_left fun line hline => ?_)
  simp [Packing.line, ← (admits_of_mem_lines hline).text_eq]

namespace Cuts

theorem tail {group : List String} (h : p.Cuts files (group :: groups)) :
    p.Cuts groups.flatten groups :=
  ⟨rfl, fun other hother => h.ne_nil other (List.mem_cons_of_mem _ hother),
    fun other hother => h.lt_limit other (List.mem_cons_of_mem _ hother)⟩

/-- A cut stays one when lines may be longer. -/
theorem mono {limit : Int} (h : p.Cuts files groups) (hlimit : p.limit ≤ limit) :
    Cuts { p with limit } files groups :=
  ⟨h.flatten_eq, h.ne_nil, fun group hgroup htwo =>
    Int.lt_of_lt_of_le (h.lt_limit group hgroup htwo) hlimit⟩

/-- No group goes on with a file for which there is no room after a part of the group, so that the
first group ends before that file. -/
theorem first (h : p.Cuts (ahead ++ current ++ file :: rest) groups) (hcurrent : current ≠ [])
    (hfull : p.limit ≤ ((p.render (current ++ [file])).length : Int)) :
    ∃ group others later, groups = group :: others ∧ p.Cuts (later ++ file :: rest) others := by
  cases groups with
  | nil => simpa using h.flatten_eq
  | cons group others =>
    have hflatten := h.flatten_eq
    rw [List.flatten_cons, List.append_eq_append_iff] at hflatten
    rcases hflatten with ⟨later, -, hothers⟩ | ⟨more, hgroup, hothers⟩
    · exact ⟨group, others, later, rfl, hothers ▸ h.tail⟩
    · cases more with
      | nil => exact ⟨group, others, [], rfl, hothers ▸ h.tail⟩
      | cons next more =>
        -- The group has the file and what came before it, and reaches the limit.
        obtain ⟨rfl, -⟩ := List.cons.inj hothers
        have hsublist : (current ++ [file]).Sublist group := by
          have hshape : group = ahead ++ ((current ++ [file]) ++ more) := by simp [hgroup]
          rw [hshape]
          exact (List.sublist_append_left _ more).trans (List.sublist_append_right ahead _)
        have htwo : 2 ≤ group.length := by
          have hlength := hsublist.length_le
          have hpos := List.length_pos_iff.mpr hcurrent
          rw [List.length_append, List.length_singleton] at hlength
          omega
        have hshort := h.lt_limit group List.mem_cons_self htwo
        have hlong := p.length_render_le_of_sublist hsublist
        omega

end Cuts

end Packing

/-- Whatever has been cut off before it, the line under construction and the lines after it are no
more than the groups of a cut that has still to come to the files on it. -/
theorem Packer.length_linesFrom_le (hfits : Fits p packer) (hfiles : packer.files ≠ [])
    (hcuts : p.Cuts (ahead ++ packer.files.reverse ++ files) groups) :
    (packer.linesFrom p files).length ≤ groups.length := by
  induction files generalizing packer ahead groups with
  | nil =>
    have hgroups : groups ≠ [] := by
      rintro rfl
      simpa [hfiles] using hcuts.flatten_eq
    rw [linesFrom_nil, finish, if_neg (by simpa using hfiles)]
    exact List.length_pos_iff.mpr hgroups
  | cons file rest ih =>
    have hlater := fits_push hfits file
    rw [linesFrom_cons, List.length_append]
    rcases push_cases p packer file with ⟨hnone, -⟩ | ⟨-, -, hpush⟩ | ⟨-, hlimit, hpush⟩
    · exact absurd hnone hfiles
    · rw [hpush] at hlater ⊢
      have hjoined : p.Cuts (ahead ++ (file :: packer.files).reverse ++ rest) groups := by
        simpa using hcuts
      simpa using ih hlater (by simp) hjoined
    · rw [hpush] at hlater ⊢
      have hfull : p.limit ≤ ((p.render (packer.files.reverse ++ [file])).length : Int) := by
        rwa [p.length_render_concat, ← hfits.length_eq hfiles]
      obtain ⟨group, others, later, rfl, hothers⟩ := hcuts.first (by simpa using hfiles) hfull
      have halone : p.Cuts (later ++ [file].reverse ++ rest) others := by simpa using hothers
      simpa [Nat.add_comm 1] using ih hlater (by simp) halone

theorem Packing.length_lines_le (h : p.Cuts files groups) :
    (p.lines files).length ≤ groups.length := by
  cases files with
  | nil => exact Nat.zero_le _
  | cons file rest =>
    have hfits := Packer.fits_push (Packer.fits_empty p) file
    rw [Packing.lines, Packer.linesFrom_cons]
    rcases Packer.push_cases p {} file with ⟨-, hpush⟩ | ⟨hne, -⟩ | ⟨hne, -⟩
    · rw [hpush] at hfits ⊢
      have hopened : p.Cuts ([] ++ [file].reverse ++ rest) groups := by simpa using h
      exact Packer.length_linesFrom_le hfits (by simp) hopened
    · exact absurd rfl hne
    · exact absurd rfl hne

/-- The lines of a packing are a cut of the files with the fewest groups, and a higher limit makes
no more of them. -/
theorem Packing.lines_fewest (p : Packing) (files : List String) :
    ∃ groups, p.lines files = groups.map p.line ∧ p.Cuts files groups ∧
      (∀ others, p.Cuts files others → groups.length ≤ others.length) ∧
      ∀ limit, p.limit ≤ limit → (Packing.lines { p with limit } files).length ≤ groups.length := by
  have hcuts := p.cuts_lines files
  refine ⟨(p.lines files).map Line.files, p.lines_eq_map_line files, hcuts, ?_, ?_⟩
  · intro others hothers
    rw [List.length_map]
    exact Packing.length_lines_le hothers
  · intro limit hlimit
    exact Packing.length_lines_le (hcuts.mono hlimit)

end LintRun
