import Mathlib.Data.List.Basic
import LintRun.Number.Reading

/-!
# Where NaN comes from

A number that is not at most zero is above zero or NaN. No digits give NaN, be they those of an
integer or of a decimal: a text is read as NaN exactly if it is spelled so, after a sign or without
one and with blanks around it (`read?_eq_nan_iff`).
-/

namespace LintRun.Binary64

open Text

-- ---------------------------------------------------------------------------
-- The order of the numbers
-- ---------------------------------------------------------------------------

theorem atMostZero_eq_false_iff {x : Binary64} :
    x.atMostZero = false ↔ x.isPositive = true ∨ x = .nan := by
  cases x <;> simp [atMostZero, isPositive]

theorem ne_nan_of_isPositive {x : Binary64} (h : x.isPositive = true) : x ≠ .nan := by
  rintro rfl
  cases h

-- ---------------------------------------------------------------------------
-- Digits
-- ---------------------------------------------------------------------------

theorem ite_ne_nan {p : Prop} [Decidable p] {x y : Binary64} (hx : x ≠ .nan) (hy : y ≠ .nan) :
    (if p then x else y) ≠ .nan := by
  split
  · exact hx
  · exact hy

theorem ofRatio_ne_nan (negative : Bool) (num den : Nat) : ofRatio negative num den ≠ .nan := by
  unfold ofRatio
  exact ite_ne_nan nofun (ite_ne_nan nofun nofun)

theorem ofDecimal_ne_nan (negative : Bool) (digits : Nat) (exponent : Int) :
    ofDecimal negative digits exponent ≠ .nan := by
  unfold ofDecimal
  refine ite_ne_nan nofun (ite_ne_nan nofun (ite_ne_nan nofun ?_))
  exact ite_ne_nan (ofRatio_ne_nan _ _ _) (ofRatio_ne_nan _ _ _)

theorem ofInt?_ne_nan (i : Int) : ofInt? i ≠ some .nan := by
  unfold ofInt?
  split <;> simp

theorem readDecimal?_ne_nan (negative : Bool) (cs : List Char) :
    readDecimal? negative cs ≠ some .nan := by
  intro h
  unfold readDecimal? at h
  dsimp only at h
  split at h <;> split at h
  · cases h
  · obtain ⟨exponent, -, hnan⟩ := Option.map_eq_some_iff.mp h
    exact ofDecimal_ne_nan _ _ _ hnan
  · cases h
  · obtain ⟨exponent, -, hnan⟩ := Option.map_eq_some_iff.mp h
    exact ofDecimal_ne_nan _ _ _ hnan

-- ---------------------------------------------------------------------------
-- Words
-- ---------------------------------------------------------------------------

/-- The word for NaN in any case, after a sign or without one. -/
def IsNanWord (cs : List Char) : Prop :=
  ∃ sign letters, sign ∈ [[], ['+'], ['-']] ∧ letters.map Char.toLower = "nan".toList ∧
    cs = sign ++ letters

/-- A text with the word for NaN and blanks around it. -/
def SpellsNan (s : String) : Prop :=
  IsNanWord (trimWhile isMargin s.toList)

theorem toNat_of_toLower {c lower : Char} (h : c.toLower = lower) :
    c.toNat = lower.toNat ∨ c.toNat + 32 = lower.toNat := by
  subst h
  unfold Char.toLower
  split
  · rename_i hupper
    have hnat : 65 ≤ c.toNat ∧ c.toNat ≤ 90 := hupper
    have hlower : ((c.toNat + 32) % 4294967296) = c.toNat + 32 := by omega
    exact .inr hlower.symm
  · exact .inl rfl

/-- The letters of the word are no digits, and no part of the syntax around them. -/
theorem toNat_mem_of_letters {letters : List Char} {c : Char}
    (h : letters.map Char.toLower = "nan".toList) (hc : c ∈ letters) :
    c.toNat ∈ [65, 78, 97, 110] := by
  have hlower : c.toLower ∈ "nan".toList := h ▸ List.mem_map_of_mem hc
  have hcases : c.toLower = 'n' ∨ c.toLower = 'a' := by
    simpa [or_comm, or_left_comm] using hlower
  rcases hcases with hn | ha
  · rcases toNat_of_toLower hn with heq | heq
    · simp [heq]
    · have hsmall : c.toNat = 78 := Nat.add_right_cancel heq
      simp [hsmall]
  · rcases toNat_of_toLower ha with heq | heq
    · simp [heq]
    · have hsmall : c.toNat = 65 := Nat.add_right_cancel heq
      simp [hsmall]

theorem isDecimal_eq_false {c : Char} (h : c.toNat ∈ [65, 78, 97, 110]) :
    isDecimal c = false := by
  simp only [List.mem_cons, List.not_mem_nil, or_false] at h
  have hdigit : c.isDigit = false := by
    cases hisDigit : c.isDigit with
    | false => rfl
    | true =>
      have hbound := Char.isDigit_iff_toNat.mp hisDigit
      simp at hbound
      omega
  have hascii : c.toNat < 128 := by omega
  simp [isDecimal, digitValue?, hdigit, hascii]

theorem IsNanWord.isDecimal {cs : List Char} (h : IsNanWord cs) :
    ∀ c ∈ cs, Binary64.isDecimal c = false ∧ c ≠ '_' := by
  obtain ⟨sign, letters, hsign, hletters, rfl⟩ := h
  intro c hc
  rcases List.mem_append.mp hc with hmem | hmem
  · have hcases : c = '+' ∨ c = '-' := by
      simp only [List.mem_cons, List.not_mem_nil, or_false] at hsign
      rcases hsign with rfl | rfl | rfl <;> simp at hmem <;> simp [hmem]
    rcases hcases with rfl | rfl <;> exact ⟨by decide, by decide⟩
  · have hnat := toNat_mem_of_letters hletters hmem
    refine ⟨isDecimal_eq_false hnat, ?_⟩
    rintro rfl
    simp at hnat

theorem exists_takeSign (cs : List Char) :
    ∃ sign ∈ [[], ['+'], ['-']], cs = sign ++ (takeSign cs).2 := by
  unfold takeSign
  split
  · exact ⟨['-'], by simp, rfl⟩
  · exact ⟨['+'], by simp, rfl⟩
  · exact ⟨[], by simp, rfl⟩

theorem takeSign_append {sign letters : List Char} (hsign : sign ∈ [[], ['+'], ['-']])
    (hletters : letters.map Char.toLower = "nan".toList) :
    (takeSign (sign ++ letters)).2 = letters := by
  simp only [List.mem_cons, List.not_mem_nil, or_false] at hsign
  rcases hsign with rfl | rfl | rfl
  · have hne : ∀ c rest, letters = c :: rest → c.toNat ∈ [65, 78, 97, 110] := by
      rintro c rest rfl
      exact toNat_mem_of_letters hletters List.mem_cons_self
    unfold takeSign
    split
    · exact absurd (hne _ _ ‹_›) (by decide)
    · exact absurd (hne _ _ ‹_›) (by decide)
    · rfl
  · rfl
  · rfl

theorem readSigned?_eq_nan_iff {cs : List Char} : readSigned? cs = some .nan ↔ IsNanWord cs := by
  constructor
  · intro h
    obtain ⟨sign, hsign, heq⟩ := exists_takeSign cs
    simp only [readSigned?] at h
    split at h
    · cases h
    · split at h
      · rename_i hword
        exact ⟨sign, _, hsign, by rw [← hword, String.toList_ofList], heq⟩
      · exact absurd h (readDecimal?_ne_nan _ _)
  · rintro ⟨sign, letters, hsign, hletters, rfl⟩
    simp only [readSigned?, takeSign_append hsign hletters, hletters, String.ofList_toList]
    rfl

-- ---------------------------------------------------------------------------
-- Underscores
-- ---------------------------------------------------------------------------

theorem dropUnderscores?_eq_self {cs : List Char} (h : ∀ c ∈ cs, c ≠ '_') (after : Bool) :
    dropUnderscores? after cs = some cs := by
  fun_induction dropUnderscores? after cs with
  | case1 => rfl
  | case2 => exact absurd rfl (h '_' List.mem_cons_self)
  | case3 after c rest => exact absurd rfl (h '_' List.mem_cons_self)
  | case4 after c rest => exact absurd rfl (h '_' List.mem_cons_self)
  | case5 after c rest _ _ ih =>
    rw [ih fun other hmem => h other (List.mem_cons_of_mem _ hmem)]
    rfl

/-- An underscore stands between two digits, which are left. -/
theorem eq_of_dropUnderscores? {cs digits : List Char} {after : Bool}
    (h : dropUnderscores? after cs = some digits) (hnone : ∀ c ∈ digits, isDecimal c = false) :
    cs = digits := by
  fun_induction dropUnderscores? after cs generalizing digits with
  | case1 => exact Option.some.inj h
  | case2 => cases h
  | case3 after c rest hdecimal ih =>
    obtain ⟨later, -, rfl⟩ := Option.map_eq_some_iff.mp h
    have hc := hnone c List.mem_cons_self
    simp [hc] at hdecimal
  | case4 => cases h
  | case5 after c rest _ _ ih =>
    obtain ⟨later, hlater, rfl⟩ := Option.map_eq_some_iff.mp h
    rw [ih hlater fun other hmem => hnone other (List.mem_cons_of_mem _ hmem)]

theorem read?_eq_nan_iff {s : String} : read? s = some .nan ↔ SpellsNan s := by
  rw [read?, Option.bind_eq_some_iff]
  constructor
  · rintro ⟨digits, hdigits, hread⟩
    have hword := readSigned?_eq_nan_iff.mp hread
    rw [SpellsNan, eq_of_dropUnderscores? hdigits fun c hc => (hword.isDecimal c hc).1]
    exact hword
  · intro hword
    exact ⟨_, dropUnderscores?_eq_self (fun c hc => (hword.isDecimal c hc).2) false,
      readSigned?_eq_nan_iff.mpr hword⟩

end LintRun.Binary64
