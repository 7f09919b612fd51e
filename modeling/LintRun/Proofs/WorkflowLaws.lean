import Mathlib.Data.List.Basic
import LintRun.WorkflowCommand

/-!
# Laws of workflow commands

The message of a command cannot end its line, and the server reads back exactly the message that
was written (`error_lossless`). Reading takes one code after the other: each pass leaves the data as
they would be if the character of that code had not been coded at all.
-/

namespace LintRun.WorkflowCommand

/-- What follows the percent sign of a code. -/
def codes : List (List Char) := [['2', '5'], ['0', 'D'], ['0', 'A']]

/-- Every percent sign starts a code. -/
def IsCoded (data : List Char) : Prop :=
  ∀ before rest, data = before ++ '%' :: rest → ∃ code ∈ codes, code <+: rest

/-- Writes only some of the characters by their codes. -/
def encodeOnly (coded : List Char) (c : Char) : List Char :=
  if c ∈ coded then encodeChar c else [c]

variable {c char x y a b : Char} {coded data rest : List Char}

-- ---------------------------------------------------------------------------
-- Single characters
-- ---------------------------------------------------------------------------

theorem encodeChar_cases (c : Char) :
    (c ∉ ['%', '\r', '\n'] ∧ encodeChar c = [c]) ∨
      ∃ x y, encodeChar c = ['%', x, y] ∧ [x, y] ∈ codes := by
  unfold encodeChar
  by_cases hpercent : c = '%'
  · exact .inr ⟨'2', '5', if_pos hpercent, by decide⟩
  by_cases hreturn : c = '\r'
  · exact .inr ⟨'0', 'D', by rw [if_neg hpercent, if_pos hreturn], by decide⟩
  by_cases hnewline : c = '\n'
  · exact .inr ⟨'0', 'A', by rw [if_neg hpercent, if_neg hreturn, if_pos hnewline], by decide⟩
  · exact .inl ⟨by simp [hpercent, hreturn, hnewline],
      by rw [if_neg hpercent, if_neg hreturn, if_neg hnewline]⟩

/-- A code has neither a percent sign nor a line break. -/
theorem not_mem_of_code (h : [x, y] ∈ codes) :
    x ∉ ['%', '\r', '\n'] ∧ y ∉ ['%', '\r', '\n'] := by
  simp only [codes, List.mem_cons, List.cons.injEq, and_true, List.not_mem_nil, or_false] at h
  rcases h with ⟨rfl, rfl⟩ | ⟨rfl, rfl⟩ | ⟨rfl, rfl⟩ <;> decide

theorem encodeChar_injective : Function.Injective encodeChar := by
  intro c d h
  unfold encodeChar at h
  split_ifs at h <;> simp_all

theorem replaceCode_code (rest : List Char) :
    replaceCode x y char ('%' :: x :: y :: rest) = char :: replaceCode x y char rest := by
  rw [replaceCode, if_pos ⟨rfl, rfl⟩]

theorem replaceCode_cons (h : c ≠ '%') (rest : List Char) :
    replaceCode x y char (c :: rest) = c :: replaceCode x y char rest := by
  rw [replaceCode]
  rintro _ _ _ rfl
  exact absurd rfl h

theorem replaceCode_other (hother : ¬(a = x ∧ b = y)) (hcode : [a, b] ∈ codes)
    (rest : List Char) :
    replaceCode x y char ('%' :: a :: b :: rest) =
      '%' :: a :: b :: replaceCode x y char rest := by
  obtain ⟨ha, hb⟩ := not_mem_of_code hcode
  rw [replaceCode, if_neg hother, replaceCode_cons fun h => ha (by simp [h]),
    replaceCode_cons fun h => hb (by simp [h])]

-- ---------------------------------------------------------------------------
-- Reading back
-- ---------------------------------------------------------------------------

/-- One pass undoes the code of one character, as long as percent signs are still coded. -/
theorem replaceCode_encodeOnly (hcode : encodeChar char = ['%', x, y]) (hchar : char ∉ coded)
    (hpercent : '%' ∈ char :: coded) (message : List Char) :
    replaceCode x y char (message.flatMap (encodeOnly (char :: coded))) =
      message.flatMap (encodeOnly coded) := by
  induction message with
  | nil => rfl
  | cons c message ih =>
    rw [List.flatMap_cons, List.flatMap_cons, ← ih]
    by_cases hc : c = char
    · subst hc
      rw [encodeOnly, if_pos List.mem_cons_self, hcode, encodeOnly, if_neg hchar]
      exact replaceCode_code _
    · by_cases hmem : c ∈ coded
      · rw [encodeOnly, if_pos (List.mem_cons_of_mem char hmem), encodeOnly, if_pos hmem]
        rcases encodeChar_cases c with ⟨hplain, hsame⟩ | ⟨a, b, hsame, hab⟩
        · rw [hsame]
          exact replaceCode_cons (fun h => hplain (by simp [h])) _
        · rw [hsame]
          refine replaceCode_other ?_ hab _
          rintro ⟨rfl, rfl⟩
          exact hc (encodeChar_injective (hsame.trans hcode.symm))
      · have hplain : c ∉ char :: coded := by simp [hc, hmem]
        have hne : c ≠ '%' := fun heq => hplain (heq ▸ hpercent)
        rw [encodeOnly, if_neg hplain, encodeOnly, if_neg hmem]
        exact replaceCode_cons hne _

theorem encodeOnly_all : encodeOnly ['\r', '\n', '%'] = encodeChar := by
  funext c
  unfold encodeOnly
  split
  · rfl
  · rename_i hplain
    rcases encodeChar_cases c with ⟨-, hsame⟩ | ⟨x, y, hsame, -⟩
    · exact hsame.symm
    · simp only [List.mem_cons, List.not_mem_nil, or_false, not_or] at hplain
      simp [encodeChar, hplain]

theorem decodeData_encodeData (message : List Char) :
    decodeData (encodeData message) = message := by
  rw [decodeData, encodeData, ← encodeOnly_all,
    replaceCode_encodeOnly rfl (by decide) (by decide),
    replaceCode_encodeOnly rfl (by decide) (by decide),
    replaceCode_encodeOnly rfl (by decide) (by decide)]
  exact List.flatMap_singleton' message

/-- The codes may also be written one after the other, if those of the percent signs are first. -/
theorem encodeData_successive (message : List Char) :
    encodeData message =
      ((message.flatMap (encodeOnly ['%'])).flatMap (encodeOnly ['\r'])).flatMap
        (encodeOnly ['\n']) := by
  rw [List.flatMap_assoc, List.flatMap_assoc, encodeData]
  refine List.flatMap_congr fun c _ => ?_
  by_cases hpercent : c = '%'
  · subst hpercent; rfl
  by_cases hreturn : c = '\r'
  · subst hreturn; rfl
  by_cases hnewline : c = '\n'
  · subst hnewline; rfl
  · simp [encodeChar, encodeOnly, hpercent, hreturn, hnewline]

-- ---------------------------------------------------------------------------
-- The data of a command
-- ---------------------------------------------------------------------------

theorem IsCoded.cons (h : IsCoded data) (hc : c ≠ '%') : IsCoded (c :: data) := by
  rintro (_ | ⟨_, before⟩) rest hsplit
  · exact absurd (List.cons.inj hsplit).1 hc
  · exact h before rest (List.cons.inj hsplit).2

theorem IsCoded.code (h : IsCoded data) (hcode : [x, y] ∈ codes) :
    IsCoded ('%' :: x :: y :: data) := by
  obtain ⟨hx, hy⟩ := not_mem_of_code hcode
  have htail : IsCoded (x :: y :: data) :=
    (h.cons fun heq => hy (by simp [heq])).cons fun heq => hx (by simp [heq])
  rintro (_ | ⟨_, before⟩) rest hsplit
  · exact ⟨[x, y], hcode, data, (List.cons.inj hsplit).2⟩
  · exact htail before rest (List.cons.inj hsplit).2

theorem isCoded_encodeData (message : List Char) : IsCoded (encodeData message) := by
  induction message with
  | nil =>
    intro before rest hsplit
    exact absurd hsplit (by simp [encodeData])
  | cons c message ih =>
    rw [encodeData, List.flatMap_cons, ← encodeData]
    rcases encodeChar_cases c with ⟨hplain, hsame⟩ | ⟨x, y, hsame, hcode⟩
    · rw [hsame]
      exact ih.cons fun h => hplain (by simp [h])
    · rw [hsame]
      exact ih.code hcode

theorem not_break_of_mem_encodeData {message : List Char} (h : c ∈ encodeData message) :
    c ≠ '\r' ∧ c ≠ '\n' := by
  obtain ⟨d, -, hc⟩ := List.mem_flatMap.mp h
  rcases encodeChar_cases d with ⟨hplain, hsame⟩ | ⟨x, y, hsame, hcode⟩
  · rw [hsame, List.mem_singleton] at hc
    subst hc
    simp only [List.mem_cons, List.not_mem_nil, or_false, not_or] at hplain
    exact hplain.2
  · obtain ⟨hx, hy⟩ := not_mem_of_code hcode
    simp only [List.mem_cons, List.not_mem_nil, or_false, not_or] at hx hy
    rw [hsame] at hc
    simp only [List.mem_cons, List.not_mem_nil, or_false] at hc
    rcases hc with rfl | rfl | rfl
    · decide
    · exact hx.2
    · exact hy.2

theorem toList_error (message : String) :
    (error message).toList = "::error::".toList ++ encodeData message.toList := by
  have hdata : (String.ofList (encodeData message.toList)).toList = encodeData message.toList :=
    String.toList_ofList
  rw [error, String.toList_append, hdata]

theorem not_mem_error (message : String) :
    '\r' ∉ (error message).toList ∧ '\n' ∉ (error message).toList := by
  have hbreak : ∀ c ∈ (error message).toList, c ≠ '\r' ∧ c ≠ '\n' := by
    intro c hc
    rw [toList_error] at hc
    rcases List.mem_append.mp hc with hc | hc
    · have hopening : "::error::".toList = [':', ':', 'e', 'r', 'r', 'o', 'r', ':', ':'] := rfl
      have hplain : '\r' ∉ "::error::".toList ∧ '\n' ∉ "::error::".toList := by
        rw [hopening]
        decide
      exact ⟨fun h => hplain.1 (h ▸ hc), fun h => hplain.2 (h ▸ hc)⟩
    · exact not_break_of_mem_encodeData hc
  exact ⟨fun h => (hbreak _ h).1 rfl, fun h => (hbreak _ h).2 rfl⟩

theorem error_injective : Function.Injective error := by
  intro message other h
  have hdata := congrArg String.toList h
  rw [toList_error, toList_error] at hdata
  have hread := congrArg decodeData (List.append_cancel_left hdata)
  rw [decodeData_encodeData, decodeData_encodeData] at hread
  exact String.toList_inj.mp hread

/-- Whatever the message, its command is one line, in which every percent sign of the data starts a
code and from which the server reads the message; so no two messages have the same command. -/
theorem error_lossless :
    (∀ message : String,
      '\r' ∉ (error message).toList ∧ '\n' ∉ (error message).toList ∧
      ∃ data, (error message).toList = "::error::".toList ++ data ∧ IsCoded data ∧
        decodeData data = message.toList) ∧
    Function.Injective error := by
  refine ⟨fun message => ?_, error_injective⟩
  obtain ⟨hreturn, hnewline⟩ := not_mem_error message
  exact ⟨hreturn, hnewline, encodeData message.toList, toList_error message,
    isCoded_encodeData _, decodeData_encodeData _⟩

example : error "50%\r\n%0A" = "::error::50%25%0D%0A%250A" := by decide

end LintRun.WorkflowCommand
