import Mathlib.Algebra.Order.Group.Nat
import Mathlib.Tactic.Ring
import LintRun.Number.Binary64

/-!
# The range of the numbers

Which integers have no nearest number. They begin halfway between the greatest number and the power
of two after it, where a tie is already rounded up and out of the range (`ofInt?_eq_none_iff`).
-/

namespace LintRun.Binary64

variable {num den : Nat} {negative : Bool}

-- ---------------------------------------------------------------------------
-- Rounding
-- ---------------------------------------------------------------------------

theorem divRound_le {bound : Nat} (h : num < bound * den) : divRound num den ≤ bound := by
  have hbelow : num / den < bound := Nat.div_lt_of_lt_mul (by rwa [Nat.mul_comm] at h)
  unfold divRound
  dsimp only
  split
  · omega
  · split <;> omega

/-- From the middle between an odd number and the next one on, quotients are rounded up to that. -/
theorem succ_le_divRound_iff {below : Nat} (hden : 0 < den) (hodd : below % 2 = 1) :
    below + 1 ≤ divRound num den ↔ (2 * below + 1) * den ≤ 2 * num := by
  have hnum := Nat.div_add_mod num den
  have hrest := Nat.mod_lt num hden
  unfold divRound
  dsimp only
  generalize num / den = quotient at hnum ⊢
  generalize num % den = rest at hnum hrest ⊢
  subst hnum
  have hmiddle : (2 * below + 1) * den = 2 * (den * below) + den := by ring
  rw [hmiddle]
  rcases Nat.lt_trichotomy quotient below with hless | rfl | hmore
  · have hgap : den * (quotient + 1) ≤ den * below := Nat.mul_le_mul_left den hless
    rw [Nat.mul_succ] at hgap
    refine iff_of_false ?_ (by omega)
    split
    · omega
    · split <;> omega
  · -- The quotient is the odd number itself, so that its rest decides.
    split
    · omega
    · split <;> omega
  · have hgap : den * (below + 1) ≤ den * quotient := Nat.mul_le_mul_left den hmore
    rw [Nat.mul_succ] at hgap
    refine iff_of_true ?_ (by omega)
    split
    · omega
    · split <;> omega

-- ---------------------------------------------------------------------------
-- Integers
-- ---------------------------------------------------------------------------

/-- A number of one more than `count` binary digits, scaled so that they are above the point. -/
theorem scale_bounds {count : Nat} {exponent : Int} (hnum : num ≠ 0)
    (h : (num.log2 : Int) = count + exponent) :
    0 < (scale num 1 exponent).2 ∧
      2 ^ count * (scale num 1 exponent).2 ≤ (scale num 1 exponent).1 ∧
      (scale num 1 exponent).1 < 2 ^ (count + 1) * (scale num 1 exponent).2 := by
  have hlower := Nat.log2_self_le hnum
  have hupper := @Nat.lt_log2_self num
  unfold scale
  split
  case isTrue hpos =>
    have hlog : num.log2 = count + exponent.toNat := by omega
    simp only [Nat.one_mul, Nat.pow_eq, ← Nat.pow_add]
    rw [hlog] at hlower hupper
    refine ⟨Nat.pow_pos Nat.two_pos, hlower, ?_⟩
    rwa [Nat.add_right_comm]
  case isFalse hneg =>
    have hlog : count = num.log2 + (-exponent).toNat := by omega
    simp only [Nat.mul_one, Nat.pow_eq, hlog, Nat.pow_add]
    refine ⟨Nat.one_pos, Nat.mul_le_mul_right _ hlower, ?_⟩
    rw [Nat.mul_right_comm, ← Nat.pow_succ]
    exact Nat.mul_lt_mul_of_pos_right hupper (Nat.pow_pos Nat.two_pos)

/-- The exponent for a significand of 53 binary digits. -/
def placed (num : Nat) : Int :=
  num.log2 - 52

/-- The significand, which may be rounded up to one digit more. -/
def rounded (num : Nat) : Nat :=
  divRound (scale num 1 (placed num)).1 (scale num 1 (placed num)).2

theorem ofRatio_one (hnum : num ≠ 0) : ofRatio negative num 1 =
    if maxExponent < (if rounded num = Nat.pow 2 53 then placed num + 1 else placed num) then
      .infinite negative
    else if rounded num = Nat.pow 2 53 then .finite negative (Nat.pow 2 52) (placed num + 1)
    else .finite negative (rounded num) (placed num) := by
  have hguess : (num.log2 : Int) - (Nat.log2 1 : Nat) - 53 = num.log2 - 53 := by
    have hone : Nat.log2 1 = 0 := by decide
    rw [hone]
    omega
  have hscaled : (num.log2 : Int) = (53 : Nat) + (num.log2 - 53) := by omega
  obtain ⟨hden, hdigits, -⟩ := scale_bounds hnum hscaled
  have hlarge : ¬(scale num 1 (num.log2 - 53)).1 / (scale num 1 (num.log2 - 53)).2 <
      Nat.pow 2 53 :=
    Nat.not_lt.mpr ((Nat.le_div_iff_mul_le hden).mpr hdigits)
  have hplaced : max minExponent ((num.log2 : Int) - 53 + 1) = placed num := by
    unfold minExponent placed
    omega
  simp only [ofRatio, hnum, if_false, hguess, hlarge, hplaced]
  unfold rounded
  split <;> rfl

theorem rounded_le (hnum : num ≠ 0) : rounded num ≤ 2 ^ 53 := by
  have hscaled : (num.log2 : Int) = (52 : Nat) + placed num := by
    unfold placed
    omega
  exact divRound_le (scale_bounds hnum hscaled).2.2

theorem middle_eq : 2 ^ 1024 - 2 ^ 970 = (2 ^ 54 - 1) * 2 ^ 970 := by
  rw [Nat.sub_mul, ← Nat.pow_add, Nat.one_mul]

/-- From the middle on between the last significand and the power of two after it, a number with
that many digits is rounded up. -/
theorem rounded_eq_iff {unit : Nat} (hlog : num.log2 = 53 + unit) :
    rounded num = 2 ^ 53 ↔ (2 ^ 54 - 1) * 2 ^ unit ≤ num := by
  have hnum : num ≠ 0 := by
    rintro rfl
    simp at hlog
    omega
  have hplaced : placed num = (unit + 1 : Nat) := by
    unfold placed
    omega
  have hscale : scale num 1 (placed num) = (num, 2 * 2 ^ unit) := by
    rw [hplaced, scale, if_pos (Int.natCast_nonneg _), Int.toNat_natCast, Nat.one_mul, Nat.pow_eq,
      Nat.pow_succ']
  have hround : 2 ^ 53 ≤ rounded num ↔ (2 * (2 ^ 53 - 1) + 1) * (2 * 2 ^ unit) ≤ 2 * num := by
    unfold rounded
    rw [hscale]
    exact succ_le_divRound_iff (Nat.mul_pos Nat.two_pos (Nat.pow_pos Nat.two_pos)) (by decide)
  have heq : rounded num = 2 ^ 53 ↔ 2 ^ 53 ≤ rounded num :=
    ⟨fun h => h.ge, fun h => Nat.le_antisymm (rounded_le hnum) h⟩
  rw [heq, hround]
  generalize 2 ^ unit = step
  omega

theorem lt_middle {unit : Nat} (hnum : num ≠ 0) (hlog : num.log2 < 53 + unit) :
    num < (2 ^ 54 - 1) * 2 ^ unit := by
  have hbound := (Nat.log2_lt hnum).mp hlog
  have hstep : 0 < 2 ^ unit := Nat.pow_pos Nat.two_pos
  rw [Nat.pow_add] at hbound
  generalize 2 ^ unit = step at hbound hstep ⊢
  omega

theorem middle_le {unit : Nat} (hnum : num ≠ 0) (hlog : 53 + unit < num.log2) :
    (2 ^ 54 - 1) * 2 ^ unit ≤ num := by
  have hbound := (Nat.le_log2 hnum).mp hlog
  rw [Nat.succ_eq_add_one, Nat.add_right_comm, Nat.pow_add] at hbound
  generalize 2 ^ unit = step at hbound ⊢
  omega

theorem ofRatio_one_eq_infinite_iff (hnum : num ≠ 0) :
    ofRatio negative num 1 = .infinite negative ↔ (2 ^ 54 - 1) * 2 ^ 970 ≤ num := by
  rw [ofRatio_one hnum]
  unfold maxExponent
  -- Only with the greatest exponent does it matter how the significand is rounded.
  rcases Nat.lt_trichotomy num.log2 (53 + 970) with hless | hlog | hmore
  · have hplaced : placed num + 1 ≤ 971 := by
      unfold placed
      omega
    refine iff_of_false ?_ (Nat.not_le.mpr (lt_middle hnum hless))
    rw [if_neg (by split <;> omega)]
    split <;> simp
  · have hplaced : placed num = 971 := by
      unfold placed
      omega
    rw [← rounded_eq_iff hlog, hplaced, Nat.pow_eq]
    by_cases hrounded : rounded num = 2 ^ 53
    · simp [hrounded]
    · simp only [hrounded, if_false]
      simp
  · have hplaced : 971 < placed num := by
      unfold placed
      omega
    refine iff_of_true ?_ (middle_le hnum hmore)
    rw [if_pos (by split <;> omega)]

theorem ofRatio_one_cases (hnum : num ≠ 0) : ofRatio negative num 1 = .infinite negative ∨
    ∃ significand exponent, ofRatio negative num 1 = .finite negative significand exponent := by
  rw [ofRatio_one hnum]
  by_cases hrounded : rounded num = Nat.pow 2 53
  · simp only [hrounded, if_true]
    split
    · exact .inl rfl
    · exact .inr ⟨_, _, rfl⟩
  · simp only [hrounded, if_false]
    split
    · exact .inl rfl
    · exact .inr ⟨_, _, rfl⟩

/-- An integer as far out as the middle between the greatest number and the power of two after it,
or farther. -/
def OutOfRange (i : Int) : Prop :=
  2 ^ 1024 - 2 ^ 970 ≤ i.natAbs

instance (i : Int) : Decidable (OutOfRange i) :=
  inferInstanceAs (Decidable (_ ≤ _))

/-- Which integers have no nearest number. -/
theorem ofInt?_eq_none_iff {i : Int} : ofInt? i = none ↔ OutOfRange i := by
  rw [OutOfRange, middle_eq]
  by_cases hi : i.natAbs = 0
  · have hmiddle : ∀ unit : Nat, 0 < (2 ^ 54 - 1) * 2 ^ unit := fun _ =>
      Nat.mul_pos (by decide) (Nat.pow_pos Nat.two_pos)
    rw [hi]
    refine iff_of_false ?_ (Nat.not_le.mpr (hmiddle 970))
    simp [ofInt?, ofRatio, hi]
  · rw [← @ofRatio_one_eq_infinite_iff i.natAbs (decide (i < 0)) hi]
    unfold ofInt?
    rcases @ofRatio_one_cases i.natAbs (decide (i < 0)) hi with
      hinfinite | ⟨significand, exponent, hfinite⟩
    · simp [hinfinite]
    · simp [hfinite]

end LintRun.Binary64
