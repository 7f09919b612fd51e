import LintRun.Proofs.Shell.QuoteLaws
import LintRun.Shell.WindowsArguments

/-!
# Quoting for Windows is undone by reading

While a program reads an argument it counts the backslashes that it met last, since only a quote
after them tells what they stand for. `Holds` says which text such a state stands for. Characters
that are neither quotes nor blanks keep it, and the backslashes that quoting doubles are halved
again at the closing quote.
-/

namespace LintRun.Shell

theorem trailingBackslashes_concat_backslash (cs : List Char) :
    trailingBackslashes (cs ++ ['\\']) = trailingBackslashes cs + 1 := by
  simp [trailingBackslashes]

theorem trailingBackslashes_concat {c : Char} (h : c ≠ '\\') (cs : List Char) :
    trailingBackslashes (cs ++ [c]) = 0 := by
  simp [trailingBackslashes, h]

namespace WindowsArguments

/-- What a reader has of an argument whose text so far is `text`: the backslashes at the end are
counted and not yet part of the argument. -/
structure Holds (argument : List Char) (slashes : Nat) (text : List Char) : Prop where
  text_eq : argument ++ List.replicate slashes '\\' = text
  slashes_eq : slashes = trailingBackslashes text

/-- A character that is itself whether or not it is between quotes, as a blank is only there. -/
def IsOrdinary (inQuotes : Bool) (c : Char) : Prop :=
  c ≠ '"' ∧ (inQuotes = false → c ≠ ' ' ∧ c ≠ '\t')

variable {inQuotes : Bool} {argument text cs : List Char} {slashes : Nat} {c : Char}

@[simp] theorem addBackslashes_some (argument : List Char) (count : Nat) :
    addBackslashes (some argument) count = some (argument ++ List.replicate count '\\') := by
  by_cases h : count = 0 <;> simp [addBackslashes, h]

theorem addBackslashes_none (h : 0 < slashes) :
    addBackslashes none slashes = some (List.replicate slashes '\\') := by
  simp [addBackslashes, Nat.ne_of_gt h]

-- ---------------------------------------------------------------------------
-- Single characters
-- ---------------------------------------------------------------------------

theorem after_backslash (argument : Option (List Char)) (rest : List Char) :
    after inQuotes slashes argument ('\\' :: rest) =
      after inQuotes (slashes + 1) argument rest := by
  rw [after, if_pos rfl]

theorem after_ordinary (hslash : c ≠ '\\') (h : IsOrdinary inQuotes c)
    (argument : Option (List Char)) (rest : List Char) :
    after inQuotes slashes argument (c :: rest) =
      after inQuotes 0 (some ((addBackslashes argument slashes).getD [] ++ [c])) rest := by
  have hblank : (!inQuotes && (c = ' ' || c = '\t')) = false := by
    cases inQuotes with
    | true => rfl
    | false => simp [h.2 rfl]
  rw [after, if_neg hslash, if_neg h.1]
  simp only [hblank, Bool.false_eq_true, if_false]

/-- After an even number of backslashes, half of which it keeps, a quote starts or ends a part. -/
theorem after_quote (half : Nat) (argument : Option (List Char)) (rest : List Char) :
    after inQuotes (2 * half) argument ('"' :: rest) =
      after (!inQuotes) 0 (some ((addBackslashes argument half).getD [])) rest := by
  have hhalf : 2 * half / 2 = half := by omega
  have heven : 2 * half % 2 = 0 := by omega
  rw [after, if_neg (by decide), if_pos rfl]
  simp only [hhalf, heven, if_true]

theorem after_blank (argument : Option (List Char)) (rest : List Char) :
    after false slashes argument (' ' :: rest) =
      (addBackslashes argument slashes).toList ++ after false 0 none rest := by
  rw [after, if_neg (by decide), if_neg (by decide)]
  rfl

-- ---------------------------------------------------------------------------
-- Texts of an argument
-- ---------------------------------------------------------------------------

theorem Holds.concat (hholds : Holds argument slashes text) (h : IsOrdinary inQuotes c)
    (rest : List Char) :
    ∃ argument' slashes', Holds argument' slashes' (text ++ [c]) ∧
      after inQuotes slashes (some argument) (c :: rest) =
        after inQuotes slashes' (some argument') rest := by
  obtain ⟨rfl, hslashes⟩ := hholds
  by_cases hslash : c = '\\'
  · subst hslash
    refine ⟨argument, slashes + 1, ⟨?_, ?_⟩, after_backslash (some argument) rest⟩
    · rw [List.replicate_succ', List.append_assoc]
    · rw [trailingBackslashes_concat_backslash, ← hslashes]
  · refine ⟨argument ++ List.replicate slashes '\\' ++ [c], 0, ⟨List.append_nil _, ?_⟩, ?_⟩
    · rw [trailingBackslashes_concat hslash]
    · rw [after_ordinary hslash h, addBackslashes_some, Option.getD_some]

theorem Holds.append (hholds : Holds argument slashes text) (h : ∀ c ∈ cs, IsOrdinary inQuotes c)
    (rest : List Char) :
    ∃ argument' slashes', Holds argument' slashes' (text ++ cs) ∧
      after inQuotes slashes (some argument) (cs ++ rest) =
        after inQuotes slashes' (some argument') rest := by
  induction cs generalizing argument slashes text with
  | nil => exact ⟨argument, slashes, by rwa [List.append_nil], rfl⟩
  | cons c cs ih =>
    obtain ⟨hc, hcs⟩ := List.forall_mem_cons.mp h
    obtain ⟨argument', slashes', hnext, hstep⟩ := hholds.concat hc (cs ++ rest)
    obtain ⟨argument'', slashes'', hlast, hsteps⟩ := ih hnext hcs
    refine ⟨argument'', slashes'', ?_, hstep.trans hsteps⟩
    rwa [List.append_assoc] at hlast

theorem after_backslashes (count : Nat) (argument : Option (List Char)) (rest : List Char) :
    after inQuotes slashes argument (List.replicate count '\\' ++ rest) =
      after inQuotes (slashes + count) argument rest := by
  induction count generalizing slashes with
  | zero => rfl
  | succ count ih =>
    rw [List.replicate_succ, List.cons_append, after_backslash, ih, Nat.add_assoc, Nat.add_comm 1]

/-- The closing quote takes half of the backslashes before it, which are those of the text. -/
theorem Holds.close (h : Holds argument slashes text) (rest : List Char) :
    after true slashes (some argument)
        (List.replicate (trailingBackslashes text) '\\' ++ '"' :: rest) =
      after false 0 (some text) rest := by
  rw [after_backslashes, ← h.slashes_eq, ← Nat.two_mul, after_quote, addBackslashes_some,
    Option.getD_some, h.text_eq]
  rfl

/-- Backslashes are part of an argument as its first characters too. -/
theorem after_none (h : 0 < slashes) (cs : List Char) :
    after inQuotes slashes none cs = after inQuotes slashes (some []) cs := by
  induction cs generalizing slashes with
  | nil => simp [after, addBackslashes_none h]
  | cons c cs ih =>
    by_cases hslash : c = '\\'
    · subst hslash
      rw [after_backslash, after_backslash, ih (Nat.succ_pos slashes)]
    · have hhalf : (addBackslashes none (slashes / 2)).getD [] =
          List.replicate (slashes / 2) '\\' := by
        by_cases hzero : slashes / 2 = 0
        · simp [addBackslashes, hzero]
        · rw [addBackslashes_none (Nat.pos_of_ne_zero hzero), Option.getD_some]
      simp [after, hslash, addBackslashes_none h, hhalf]

theorem after_start (h : IsOrdinary false c) (rest : List Char) :
    after false 0 none (c :: rest) = after false 0 (some []) (c :: rest) := by
  by_cases hslash : c = '\\'
  · subst hslash
    rw [after_backslash, after_backslash, after_none Nat.one_pos]
  · rw [after_ordinary hslash h, after_ordinary hslash h]
    rfl

-- ---------------------------------------------------------------------------
-- Quoted texts
-- ---------------------------------------------------------------------------

theorem holds_nil : Holds [] 0 [] := ⟨rfl, rfl⟩

theorem isOrdinary_of_bare (h : (isNameChar c || c == '\\') = true) : IsOrdinary false c := by
  have hne : ∀ d ∈ ['"', ' ', '\t'], c ≠ d := by
    have hall : (['"', ' ', '\t'].all fun d => !(isNameChar d || d == '\\')) = true := by decide
    rintro d hmem rfl
    simpa [h] using List.all_eq_true.mp hall c hmem
  exact ⟨hne _ (by decide), fun _ => ⟨hne _ (by decide), hne _ (by decide)⟩⟩

theorem after_quoteWindows (h : '"' ∉ cs) (rest : List Char) :
    ∃ argument slashes, argument ++ List.replicate slashes '\\' = cs ∧
      after false 0 none (quoteWindows cs ++ rest) = after false slashes (some argument) rest := by
  unfold quoteWindows
  split
  · rename_i hbare
    simp only [Bool.and_eq_true, Bool.not_eq_true', List.isEmpty_eq_false_iff] at hbare
    obtain ⟨hne, hall⟩ := hbare
    have hordinary : ∀ c ∈ cs, IsOrdinary false c := fun c hc =>
      isOrdinary_of_bare (List.all_eq_true.mp hall c hc)
    obtain ⟨argument, slashes, hholds, hsteps⟩ := holds_nil.append hordinary rest
    refine ⟨argument, slashes, hholds.text_eq, ?_⟩
    rw [← hsteps]
    cases cs with
    | nil => exact absurd rfl hne
    | cons c cs => exact after_start (hordinary c List.mem_cons_self) (cs ++ rest)
  · have hordinary : ∀ c ∈ cs, IsOrdinary true c := by
      intro c hc
      exact ⟨fun heq => h (heq ▸ hc), fun hfalse => by cases hfalse⟩
    obtain ⟨argument, slashes, hholds, hsteps⟩ := holds_nil.append hordinary
      (List.replicate (trailingBackslashes cs) '\\' ++ '"' :: rest)
    refine ⟨cs, 0, List.append_nil cs, ?_⟩
    have hopen := @after_quote false 0 none
      (cs ++ (List.replicate (trailingBackslashes cs) '\\' ++ '"' :: rest))
    simp only [List.cons_append, List.append_assoc, List.nil_append]
    exact hopen.trans (hsteps.trans (hholds.close rest))

theorem after_tokens (argument : List Char) (slashes : Nat) {texts : List (List Char)}
    (h : ∀ cs ∈ texts, '"' ∉ cs) :
    after false slashes (some argument) (texts.flatMap fun cs => ' ' :: quoteWindows cs) =
      (argument ++ List.replicate slashes '\\') :: texts := by
  induction texts generalizing argument slashes with
  | nil => simp [after]
  | cons cs texts ih =>
    obtain ⟨hcs, htexts⟩ := List.forall_mem_cons.mp h
    obtain ⟨argument', slashes', htext, hsteps⟩ := after_quoteWindows hcs
      (texts.flatMap fun cs => ' ' :: quoteWindows cs)
    rw [List.flatMap_cons, List.cons_append, after_blank, hsteps, ih argument' slashes' htexts,
      htext, addBackslashes_some]
    rfl

/-- Texts without a double quote are the arguments that a program reads from the line of their
quoted forms, with all of their blanks and backslashes, and the empty ones among them. -/
theorem read_quoted (arguments : List String) (h : ∀ argument ∈ arguments, '"' ∉ argument.toList) :
    (read (" ".intercalate (arguments.map (quote .windows))).toList).map String.ofList =
      arguments := by
  have hline : (" ".intercalate (arguments.map (quote .windows))).toList =
      [' '].intercalate (arguments.map fun argument => quoteWindows argument.toList) := by
    have htoken : String.toList ∘ quote .windows = fun argument => quoteWindows argument.toList := by
      funext argument
      simp [quote, quoteChars]
    rw [String.toList_intercalate, List.map_map, htoken]
    rfl
  rw [hline]
  cases arguments with
  | nil => rfl
  | cons first rest =>
    obtain ⟨hfirst, hrest⟩ := List.forall_mem_cons.mp h
    obtain ⟨argument, slashes, htext, hsteps⟩ := after_quoteWindows hfirst
      ((rest.map String.toList).flatMap fun cs => ' ' :: quoteWindows cs)
    have htexts : ∀ cs ∈ rest.map String.toList, '"' ∉ cs := List.forall_mem_map.mpr hrest
    have hread := hsteps.trans (after_tokens argument slashes htexts)
    rw [List.flatMap_map, htext] at hread
    rw [List.map_cons, intercalate_cons, List.flatMap_map, read, hread]
    simp

/-- An empty argument, one that ends in a backslash after a blank, and backslashes that stay bare. -/
theorem read_quoted_sample :
    (" ".intercalate (["", "my dir\\", "\\\\server\\b\\"].map (quote .windows)) =
      "\"\" \"my dir\\\\\" \\\\server\\b\\") ∧
    (read "\"\" \"my dir\\\\\" \\\\server\\b\\".toList).map String.ofList =
      ["", "my dir\\", "\\\\server\\b\\"] := by
  have hline : " ".intercalate (["", "my dir\\", "\\\\server\\b\\"].map (quote .windows)) =
      "\"\" \"my dir\\\\\" \\\\server\\b\\" := by decide
  refine ⟨hline, ?_⟩
  rw [← hline]
  exact read_quoted _ (by decide)

end WindowsArguments

end LintRun.Shell
