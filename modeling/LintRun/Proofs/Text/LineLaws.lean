import LintRun.Proofs.Text.TrimLaws
import LintRun.Text.Line

/-!
# Laws of lines

What stands on the lines of a text is what stands on the lines before a line break and then on
those after it, whatever kind of break it is: a carriage return and a newline have nothing between
them. Blanks around a text add nothing.
-/

namespace LintRun.Text

variable {c : Char} {cs line : List Char}

def isBreak (c : Char) : Bool :=
  c == '\n' || c == '\r'

/-- What stands on the lines, without the blanks around it. -/
def contents (cs : List Char) : List (List Char) :=
  ((lines cs).map (trimWhile isBlank)).filter (· != [])

/-- One line with something other than blanks at both ends. -/
structure Solid (line : List Char) : Prop where
  ne_nil : line ≠ []
  trimmed : trimWhile isBlank line = line
  unbroken : ∀ c ∈ line, isBreak c = false

-- ---------------------------------------------------------------------------
-- Breaks
-- ---------------------------------------------------------------------------

/-- Cut at each break, a text has the same lines but for empty ones after the first. -/
theorem lines_splitOnP (cs : List Char) : ∃ first rest others, lines cs = first :: rest ∧
    cs.splitOnP isBreak = first :: others ∧ rest.filter (· != []) = others.filter (· != []) := by
  simp only [lines, List.splitOn_eq_splitOnP]
  fun_induction unifyNewlines cs with
  | case1 cs ih =>
    -- A carriage return and a newline are two places to cut, with an empty line between them.
    obtain ⟨first, rest, others, hlines, hcut, hrest⟩ := ih
    refine ⟨[], first :: rest, [] :: first :: others, ?_, ?_, ?_⟩
    · simp [List.splitOnP_cons_eq_if_modifyHead, hlines]
    · simp [List.splitOnP_cons_eq_if_modifyHead, isBreak, hcut]
    · simp [List.filter_cons, hrest]
  | case2 cs _ ih =>
    obtain ⟨first, rest, others, hlines, hcut, hrest⟩ := ih
    refine ⟨[], first :: rest, first :: others, ?_, ?_, ?_⟩
    · simp [List.splitOnP_cons_eq_if_modifyHead, hlines]
    · simp [List.splitOnP_cons_eq_if_modifyHead, isBreak, hcut]
    · simp [List.filter_cons, hrest]
  | case3 c cs _ hreturn ih =>
    obtain ⟨first, rest, others, hlines, hcut, hrest⟩ := ih
    by_cases hc : c = '\n'
    · refine ⟨[], first :: rest, first :: others, ?_, ?_, ?_⟩
      · simp [List.splitOnP_cons_eq_if_modifyHead, hlines, hc]
      · simp [List.splitOnP_cons_eq_if_modifyHead, isBreak, hcut, hc]
      · simp [List.filter_cons, hrest]
    · have hbreak : isBreak c = false := by simpa [isBreak, hc] using hreturn
      refine ⟨c :: first, rest, others, ?_, ?_, hrest⟩
      · simp [List.splitOnP_cons_eq_if_modifyHead, hlines, hc]
      · simp [List.splitOnP_cons_eq_if_modifyHead, hcut, hbreak]
  | case4 => exact ⟨[], [], [], rfl, rfl, rfl⟩

theorem filter_map_trimWhile (pieces : List (List Char)) :
    (pieces.map (trimWhile isBlank)).filter (· != []) =
      ((pieces.filter (· != [])).map (trimWhile isBlank)).filter (· != []) := by
  induction pieces with
  | nil => rfl
  | cons piece pieces ih =>
    cases piece with
    | nil => simpa [trimWhile] using ih
    | cons c cs => simp only [List.map_cons, List.filter_cons, ih, bne_iff_ne, ne_eq,
        reduceCtorEq, not_false_eq_true, if_true]

theorem contents_eq_splitOnP (cs : List Char) :
    contents cs = ((cs.splitOnP isBreak).map (trimWhile isBlank)).filter (· != []) := by
  obtain ⟨first, rest, others, hlines, hcut, hrest⟩ := lines_splitOnP cs
  rw [contents, hlines, hcut, List.map_cons, List.map_cons, List.filter_cons, List.filter_cons,
    filter_map_trimWhile rest, filter_map_trimWhile others, hrest]

theorem contents_append_break (hc : isBreak c = true) (before after : List Char) :
    contents (before ++ c :: after) = contents before ++ contents after := by
  simp only [contents_eq_splitOnP, List.splitOnP_append_cons _ _ hc, List.map_append,
    List.filter_append]

theorem contents_unbroken (h : ∀ c ∈ cs, isBreak c = false) :
    contents cs = [trimWhile isBlank cs].filter (· != []) := by
  rw [contents_eq_splitOnP, List.splitOnP_eq_singleton h, List.map_singleton]

/-- A text is one line, or it has a first line, a break and a text after it. -/
theorem break_induction {motive : List Char → Prop}
    (unbroken : ∀ cs, (∀ c ∈ cs, isBreak c = false) → motive cs)
    (broken : ∀ before c after, (∀ c ∈ before, isBreak c = false) → isBreak c = true →
      motive after → motive (before ++ c :: after)) (cs : List Char) : motive cs := by
  have hreached : ∀ before, (∀ c ∈ before, isBreak c = false) → motive (before ++ cs) := by
    induction cs with
    | nil =>
      intro before hbefore
      exact unbroken _ (by simpa using hbefore)
    | cons c cs ih =>
      intro before hbefore
      cases hc : isBreak c with
      | true => exact broken before c cs hbefore hc (ih [] (by simp))
      | false =>
        have hmore := ih (before ++ [c]) (by simpa [or_imp, forall_and, hc] using hbefore)
        rwa [List.append_assoc] at hmore
  exact hreached [] (by simp)

-- ---------------------------------------------------------------------------
-- What stands on a line
-- ---------------------------------------------------------------------------

theorem Solid.contents_eq (h : Solid line) : contents line = [line] := by
  rw [contents_unbroken h.unbroken, h.trimmed, List.filter_cons_of_pos (by simpa using h.ne_nil)]
  rfl

theorem solid_trimWhile (h : ∀ c ∈ cs, isBreak c = false) (hne : trimWhile isBlank cs ≠ []) :
    Solid (trimWhile isBlank cs) where
  ne_nil := hne
  trimmed := trimWhile_trimWhile
  unbroken c hc := h c (mem_of_mem_trimWhile hc)

theorem solid_of_mem_contents (h : line ∈ contents cs) : Solid line := by
  induction cs using break_induction with
  | unbroken cs hcs =>
    rw [contents_unbroken hcs, List.mem_filter, List.mem_singleton, bne_iff_ne] at h
    obtain ⟨rfl, hne⟩ := h
    exact solid_trimWhile hcs hne
  | broken before c after hbefore hc ih =>
    rw [contents_append_break hc, List.mem_append] at h
    rcases h with h | h
    · rw [contents_unbroken hbefore, List.mem_filter, List.mem_singleton, bne_iff_ne] at h
      obtain ⟨rfl, hne⟩ := h
      exact solid_trimWhile hbefore hne
    · exact ih h

-- ---------------------------------------------------------------------------
-- Blanks around a text
-- ---------------------------------------------------------------------------

theorem contents_cons_blank (hc : isBlank c = true) : contents (c :: cs) = contents cs := by
  cases hbreak : isBreak c with
  | true => exact contents_append_break hbreak [] cs
  | false =>
    have hline : ∀ line : List Char, (∀ d ∈ line, isBreak d = false) →
        contents (c :: line) = contents line := by
      intro line h
      rw [contents_unbroken (by simpa [hbreak] using h), contents_unbroken h,
        trimWhile_cons_of_pos hc]
    induction cs using break_induction with
    | unbroken cs hcs => exact hline cs hcs
    | broken before d after hbefore hd _ =>
      rw [← List.cons_append, contents_append_break hd, contents_append_break hd,
        hline before hbefore]

theorem contents_concat_blank (hc : isBlank c = true) : contents (cs ++ [c]) = contents cs := by
  cases hbreak : isBreak c with
  | true => rw [contents_append_break hbreak, show contents [] = [] from rfl, List.append_nil]
  | false =>
    induction cs using break_induction with
    | unbroken cs hcs =>
      rw [contents_unbroken (by simpa [or_imp, forall_and, hbreak] using hcs),
        contents_unbroken hcs, trimWhile_concat_of_pos hc]
    | broken before d after hbefore hd ih =>
      rw [List.append_assoc, List.cons_append, contents_append_break hd, ih,
        contents_append_break hd]

theorem contents_trimWhile (cs : List Char) : contents (trimWhile isBlank cs) = contents cs := by
  have hbefore : contents (cs.dropWhile isBlank) = contents cs := by
    induction cs with
    | nil => rfl
    | cons c cs ih =>
      cases hc : isBlank c with
      | true => rw [List.dropWhile_cons_of_pos hc, ih, contents_cons_blank hc]
      | false => rw [List.dropWhile_cons_of_neg (by simp [hc])]
  have hafter : ∀ cs, contents (dropEndWhile isBlank cs) = contents cs := by
    intro cs
    induction cs using List.reverseRecOn with
    | nil => rfl
    | append_singleton cs c ih =>
      rw [dropEndWhile_eq_rdropWhile, List.rdropWhile_concat]
      split
      · rename_i hc
        rw [← dropEndWhile_eq_rdropWhile, ih, contents_concat_blank hc]
      · rfl
  rw [trimWhile, hafter, hbefore]

end LintRun.Text
