import LintRun.Shell.Quote
import LintRun.Shell.Words

/-!
# Quoting is undone by reading

A quoted text is read as one word, whatever stands after it. `wordsAfter?_quotePosix` is the step;
`wordsAfter?_tokens` follows it along a line of quoted texts with a space before each.
-/

namespace LintRun.Shell

-- ---------------------------------------------------------------------------
-- Single characters
-- ---------------------------------------------------------------------------

theorem isPlain_harmless {c : Char} (h : isPlain c = true) :
    isSeparator c = false ∧ c ≠ '\\' ∧ c ≠ '\'' ∧ c ≠ '"' ∧ isSpecial c = false := by
  have hne : ∀ d ∈ " \t\\'\"|&;<>()$`*?[#~\n".toList, c ≠ d := by
    have hall : (" \t\\'\"|&;<>()$`*?[#~\n".toList.all fun d => !isPlain d) = true := by decide
    rintro d hmem rfl
    simpa [h] using List.all_eq_true.mp hall c hmem
  refine ⟨?_, hne _ (by decide), hne _ (by decide), hne _ (by decide), ?_⟩
  · simp [isSeparator, hne ' ' (by decide), hne '\t' (by decide)]
  · simp only [isSpecial, Bool.eq_false_iff, ne_eq, List.contains_iff_mem]
    intro hmem
    exact hne c (List.mem_of_mem_drop (i := 5) hmem) rfl

theorem wordsAfter?_separator (word : Option Word) {c : Char} (rest : List Char)
    (h : isSeparator c = true) :
    wordsAfter? .none word (c :: rest) = (wordsAfter? .none none rest).map (word.toList ++ ·) := by
  have hc : c ≠ '\\' := by rintro rfl; simp [isSeparator] at h
  simp [wordsAfter?, h, hc]

theorem wordsAfter?_openSingle (word : Option Word) (rest : List Char) :
    wordsAfter? .none word ('\'' :: rest) = wordsAfter? .single (some (word.getD [])) rest := by
  simp [wordsAfter?, isSeparator]

theorem wordsAfter?_plain (word : Option Word) {c : Char} (rest : List Char)
    (h : isPlain c = true) :
    wordsAfter? .none word (c :: rest) = wordsAfter? .none (appendTo word c false) rest := by
  obtain ⟨hs, hb, hq, hd, hm⟩ := isPlain_harmless h
  simp [wordsAfter?, hs, hb, hq, hd, hm]

/-- The five characters that stand for a quote leave the reader between single quotes again. -/
theorem wordsAfter?_quotedQuote (word : Option Word) (rest : List Char) :
    wordsAfter? .single word (quotedQuote ++ rest) =
      wordsAfter? .single (appendTo word '\'' true) rest := by
  simp [quotedQuote, wordsAfter?, isSeparator, appendTo]

-- ---------------------------------------------------------------------------
-- Quoted texts
-- ---------------------------------------------------------------------------

theorem wordsAfter?_allPlain (word : Word) {cs : List Char} (rest : List Char)
    (h : cs.all isPlain = true) :
    wordsAfter? .none (some word) (cs ++ rest) =
      wordsAfter? .none (some (word ++ cs.map (⟨·, false⟩))) rest := by
  induction cs generalizing word with
  | nil => simp
  | cons c cs ih =>
    simp only [List.all_cons, Bool.and_eq_true] at h
    rw [List.cons_append, wordsAfter?_plain _ _ h.1]
    simp [appendTo, ih _ h.2]

/-- What stands for a text between single quotes. -/
def betweenQuotes (cs : List Char) : List Char :=
  cs.flatMap fun c => if c = '\'' then quotedQuote else [c]

theorem betweenQuotes_quote (cs : List Char) :
    betweenQuotes ('\'' :: cs) = quotedQuote ++ betweenQuotes cs := rfl

theorem betweenQuotes_cons {c : Char} (h : c ≠ '\'') (cs : List Char) :
    betweenQuotes (c :: cs) = c :: betweenQuotes cs := by
  rw [betweenQuotes, List.flatMap_cons, if_neg h]
  rfl

theorem singleQuoted_append (cs rest : List Char) :
    singleQuoted cs ++ rest = '\'' :: (betweenQuotes cs ++ '\'' :: rest) := by
  rw [singleQuoted, List.append_assoc]
  rfl

/-- What stands between the quotes joins the word, every character kept. -/
theorem wordsAfter?_single (word : Word) (cs rest : List Char) :
    wordsAfter? .single (some word) (betweenQuotes cs ++ '\'' :: rest) =
      wordsAfter? .none (some (word ++ cs.map (⟨·, true⟩))) rest := by
  induction cs generalizing word with
  | nil => simp [betweenQuotes, wordsAfter?]
  | cons c cs ih =>
    by_cases hc : c = '\''
    · subst hc
      rw [betweenQuotes_quote, List.append_assoc, wordsAfter?_quotedQuote]
      simp [appendTo, ih]
    · rw [betweenQuotes_cons hc]
      simp [wordsAfter?, hc, appendTo, ih]

/-- The word that a quoted text is read as. Plain texts are not quoted, others are as a whole. -/
def quotedWord (cs : List Char) : Word :=
  cs.map (⟨·, cs.isEmpty || !cs.all isPlain⟩)

@[simp] theorem quotedWord_text (cs : List Char) : (quotedWord cs).text = String.ofList cs := by
  simp [quotedWord, Word.text, Function.comp_def]

theorem quotePosix_of_isPlain {cs : List Char} (hne : cs ≠ []) (h : cs.all isPlain = true) :
    quotePosix cs = cs := by
  simp [quotePosix, hne, h]

/-- A text that is written without quotes. -/
def StaysBare (cs : List Char) : Prop :=
  cs ≠ [] ∧ ∀ c ∈ cs, isPlain c = true

theorem quotePosix_of_staysBare {cs : List Char} (h : StaysBare cs) : quotePosix cs = cs :=
  quotePosix_of_isPlain h.1 (List.all_eq_true.mpr h.2)

/-- An empty text is quoted as well, so that it stays a word. -/
theorem quotePosix_cases (cs : List Char) :
    (StaysBare cs ∧ quotePosix cs = cs ∧ quotedWord cs = cs.map (⟨·, false⟩)) ∨
      (¬StaysBare cs ∧ quotePosix cs = singleQuoted cs ∧ quotedWord cs = cs.map (⟨·, true⟩)) := by
  by_cases h : StaysBare cs
  · refine .inl ⟨h, quotePosix_of_staysBare h, ?_⟩
    simp [quotedWord, h.1, List.all_eq_true.mpr h.2]
  · have hkept : cs.isEmpty = true ∨ cs.all isPlain = false := by
      rwa [StaysBare, Classical.not_and_iff_not_or_not, Classical.not_not, ← List.isEmpty_iff,
        ← List.all_eq_true, Bool.not_eq_true] at h
    refine .inr ⟨h, ?_, ?_⟩
    · rcases hkept with hkept | hkept <;> simp [quotePosix, hkept]
    · rcases hkept with hkept | hkept <;> simp [quotedWord, hkept]

theorem wordsAfter?_quotePosix (cs rest : List Char) :
    wordsAfter? .none none (quotePosix cs ++ rest) =
      wordsAfter? .none (some (quotedWord cs)) rest := by
  rcases quotePosix_cases cs with ⟨⟨hne, hplain⟩, hquote, hword⟩ | ⟨-, hquote, hword⟩
  · rw [hquote, hword]
    cases cs with
    | nil => contradiction
    | cons c cs =>
      rw [List.cons_append, wordsAfter?_plain _ _ (hplain c List.mem_cons_self)]
      have hrest : cs.all isPlain = true :=
        List.all_eq_true.mpr fun d hd => hplain d (List.mem_cons_of_mem c hd)
      simp [appendTo, wordsAfter?_allPlain _ _ hrest]
  · rw [hquote, hword, singleQuoted_append, wordsAfter?_openSingle, Option.getD_none,
      wordsAfter?_single, List.nil_append]

theorem intercalate_cons (separator : Char) (first : List Char) (rest : List (List Char)) :
    [separator].intercalate (first :: rest) = first ++ rest.flatMap (separator :: ·) := by
  induction rest generalizing first with
  | nil => simp
  | cons next rest ih => simp [List.intercalate_cons_cons, ih]

theorem wordsAfter?_tokens (word : Option Word) (texts : List (List Char)) :
    wordsAfter? .none word (texts.flatMap fun cs => ' ' :: quotePosix cs) =
      some (word.toList ++ texts.map quotedWord) := by
  induction texts generalizing word with
  | nil => simp [wordsAfter?]
  | cons cs texts ih =>
    rw [List.flatMap_cons, List.cons_append, wordsAfter?_separator _ _ (by decide),
      wordsAfter?_quotePosix, ih]
    simp

end LintRun.Shell
