import Mathlib.Algebra.Group.Nat.Defs
import Mathlib.Data.List.Basic
import Mathlib.Data.List.Induction
import LintRun.Text.Blank
import LintRun.Text.Digit

/-!
# Laws of numerals

ASCII digits write the number of which they are the decimal notation. A numeral is the notation of
its number unless it starts with a zero that it could do without (`toDigits_natOfDigits`).
-/

namespace LintRun.Text

variable {cs ds : List Char} {c : Char} {n : Nat}

-- ---------------------------------------------------------------------------
-- Numbers of numerals
-- ---------------------------------------------------------------------------

theorem natOfDigits_eq_ofDigitChars (h : ∀ c ∈ cs, c.isDigit = true) :
    natOfDigits cs = Nat.ofDigitChars 10 cs 0 := by
  rw [Nat.ofDigitChars_eq_foldl, natOfDigits]
  refine List.foldl_ext _ _ 0 fun value c hc => ?_
  rw [digitValue?_of_isDigit (h c hc)]
  rfl

theorem natOfDigits_append (hcs : ∀ c ∈ cs, c.isDigit = true) (hds : ∀ c ∈ ds, c.isDigit = true) :
    natOfDigits (cs ++ ds) = 10 ^ ds.length * natOfDigits cs + natOfDigits ds := by
  have hall : ∀ c ∈ cs ++ ds, c.isDigit = true := List.forall_mem_append.mpr ⟨hcs, hds⟩
  rw [natOfDigits_eq_ofDigitChars hall, natOfDigits_eq_ofDigitChars hcs,
    natOfDigits_eq_ofDigitChars hds, Nat.ofDigitChars_append, Nat.ofDigitChars_eq_ofDigitChars_zero]

theorem toNat_of_isDigit (h : c.isDigit = true) : 48 ≤ c.toNat ∧ c.toNat ≤ 57 :=
  Char.isDigit_iff_toNat.mp h

theorem isBlank_of_isDigit (h : c.isDigit = true) : isBlank c = false := by
  have hc := toNat_of_isDigit h
  simp [isBlank]
  omega

theorem natOfDigits_singleton (h : c.isDigit = true) : natOfDigits [c] = c.toNat - 48 := by
  simp [natOfDigits, digitValue?_of_isDigit h]

theorem natOfDigits_concat (hcs : ∀ c ∈ cs, c.isDigit = true) (h : c.isDigit = true) :
    natOfDigits (cs ++ [c]) = 10 * natOfDigits cs + (c.toNat - 48) := by
  rw [natOfDigits_append hcs (List.forall_mem_singleton.mpr h), natOfDigits_singleton h]
  rfl

/-- A numeral that does not start with a zero writes none. -/
theorem natOfDigits_pos (hne : cs ≠ []) (hdigit : ∀ c ∈ cs, c.isDigit = true)
    (hhead : cs.head? ≠ some '0') : 0 < natOfDigits cs := by
  cases cs with
  | nil => exact absurd rfl hne
  | cons c rest =>
    obtain ⟨hc, hrest⟩ := List.forall_mem_cons.mp hdigit
    have hfirst : c.toNat ≠ 48 := fun h => hhead (congrArg some (Char.toNat_inj.mp h))
    have hpos : 0 < c.toNat - 48 := by
      have hbounds := toNat_of_isDigit hc
      omega
    rw [← List.singleton_append, natOfDigits_append (List.forall_mem_singleton.mpr hc) hrest,
      natOfDigits_singleton hc]
    exact Nat.add_pos_left (Nat.mul_pos (Nat.pow_pos (by decide)) hpos) _

theorem natOfDigits_lt (h : ∀ c ∈ cs, c.isDigit = true) : natOfDigits cs < 10 ^ cs.length := by
  induction cs using List.reverseRecOn with
  | nil => exact Nat.one_pos
  | append_singleton cs c ih =>
    obtain ⟨hcs, hc⟩ := List.forall_mem_append.mp h
    have hdigit := toNat_of_isDigit (hc c (List.mem_singleton_self c))
    have hlt := ih hcs
    rw [natOfDigits_concat hcs (hc c (List.mem_singleton_self c)), List.length_append,
      List.length_singleton, Nat.pow_succ]
    omega

-- ---------------------------------------------------------------------------
-- Decimal notation
-- ---------------------------------------------------------------------------

theorem isDigit_of_mem_digits (h : c ∈ Nat.toDigits 10 n) : c.isDigit = true :=
  Nat.isDigit_of_mem_toDigits (by decide) (by decide) h

@[simp] theorem natOfDigits_toDigits (n : Nat) : natOfDigits (Nat.toDigits 10 n) = n := by
  rw [natOfDigits_eq_ofDigitChars fun c => isDigit_of_mem_digits, Nat.ofDigitChars_ten_toDigits]

theorem head?_toDigits_ne_zero (h : 0 < n) : (Nat.toDigits 10 n).head? ≠ some '0' := by
  induction n using Nat.strongRecOn with
  | ind n ih =>
    rw [Nat.toDigits_eq_if (by decide)]
    split
    · simpa [Nat.digitChar_eq_zero] using Nat.ne_of_gt h
    · rw [List.head?_append_of_ne_nil _ Nat.toDigits_ne_nil]
      exact ih (n / 10) (by omega) (by omega)

theorem digitChar_of_isDigit (h : c.isDigit = true) : Nat.digitChar (c.toNat - 48) = c := by
  have hc := toNat_of_isDigit h
  apply Char.toNat_inj.mp
  rw [Nat.toNat_digitChar_of_lt_ten (by omega)]
  omega

theorem toDigits_natOfDigits (hne : cs ≠ []) (hdigit : ∀ c ∈ cs, c.isDigit = true)
    (hhead : cs.head? ≠ some '0') : Nat.toDigits 10 (natOfDigits cs) = cs := by
  induction cs using List.reverseRecOn with
  | nil => exact absurd rfl hne
  | append_singleton cs c ih =>
    obtain ⟨hcs, hlast⟩ := List.forall_mem_append.mp hdigit
    have hc := hlast c (List.mem_singleton_self c)
    have hlt : c.toNat - 48 < 10 := by
      have hbounds := toNat_of_isDigit hc
      omega
    have hlastDigit : Nat.toDigits 10 (c.toNat - 48) = [c] := by
      rw [Nat.toDigits_of_lt_base hlt, digitChar_of_isDigit hc]
    by_cases hnil : cs = []
    · subst hnil
      rw [List.nil_append, natOfDigits_singleton hc, hlastDigit]
    · rw [List.head?_append_of_ne_nil _ hnil] at hhead
      have hpos := natOfDigits_pos hnil hcs hhead
      rw [natOfDigits_concat hcs hc, ← Nat.toDigits_append_toDigits (by decide) hpos hlt,
        ih hnil hcs hhead, hlastDigit]

end LintRun.Text
