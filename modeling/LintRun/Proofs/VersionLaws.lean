import LintRun.Probe
import LintRun.Proofs.Text.DigitLaws
import LintRun.Proofs.Text.TrimLaws
import LintRun.Strategy

/-!
# Versions and their identifiers

The interpreter gives its version as one number, which leaves two digits for the minor version and
two for the patch. Such identifiers are read back (`parse_eq_ok_iff`) and nothing else is, and they
are ordered as the versions are, so that the strategy for a version is a matter of its number.
-/

namespace LintRun

open Text (natOfDigits)

namespace Version

variable {v w : Version} {digits : List Char} {output stderr : String}

-- ---------------------------------------------------------------------------
-- Identifiers
-- ---------------------------------------------------------------------------

/-- The number in which the interpreter gives its version. -/
def identifier (v : Version) : Int :=
  10000 * v.major + 100 * v.minor + v.patch

/-- A version that an identifier has room for. -/
structure IsNumbered (v : Version) : Prop where
  one_le_major : 1 ≤ v.major
  minor_nonneg : 0 ≤ v.minor
  minor_le : v.minor ≤ 99
  patch_nonneg : 0 ≤ v.patch
  patch_le : v.patch ≤ 99

/-- A numeral of at least five ASCII digits that does not start with a zero. -/
structure IsIdentifier (digits : List Char) : Prop where
  five_le_length : 5 ≤ digits.length
  isDigit : ∀ c ∈ digits, c.isDigit = true
  head?_ne_zero : digits.head? ≠ some '0'

theorem le_iff_identifier_le (hv : v.IsNumbered) (hw : w.IsNumbered) :
    v.le w = true ↔ v.identifier ≤ w.identifier := by
  obtain ⟨-, hminor, hminor', hpatch, hpatch'⟩ := hv
  obtain ⟨-, wminor, wminor', wpatch, wpatch'⟩ := hw
  simp only [le, identifier, Bool.or_eq_true, Bool.and_eq_true, decide_eq_true_eq, beq_iff_eq]
  omega

theorem identifier_inj (hv : v.IsNumbered) (hw : w.IsNumbered) :
    v.identifier = w.identifier ↔ v = w := by
  obtain ⟨-, hminor, hminor', hpatch, hpatch'⟩ := hv
  obtain ⟨-, wminor, wminor', wpatch, wpatch'⟩ := hw
  constructor
  · intro h
    simp only [identifier] at h
    cases v
    cases w
    simp only [mk.injEq]
    dsimp only at *
    omega
  · rintro rfl
    rfl

/-- The patch is of no account in a comparison with a major and a minor version. -/
theorem atLeast_iff (hv : v.IsNumbered) (major : Int) {minor : Int} (hnonneg : 0 ≤ minor)
    (hle : minor ≤ 99) :
    v.atLeast major minor = true ↔ 10000 * major + 100 * minor ≤ v.identifier := by
  obtain ⟨-, hminor, hminor', hpatch, hpatch'⟩ := hv
  simp only [atLeast, identifier, Bool.or_eq_true, Bool.and_eq_true, decide_eq_true_eq, beq_iff_eq]
  omega

theorem toString_natCast (n : Nat) : toString (n : Int) = String.ofList (Nat.toDigits 10 n) :=
  Nat.repr_eq_ofList_toDigits

theorem IsNumbered.exists_nat (hv : v.IsNumbered) : ∃ n : Nat, v.identifier = n ∧ 10000 ≤ n := by
  obtain ⟨hmajor, hminor, -, hpatch, -⟩ := hv
  have hleast : 10000 ≤ v.identifier := by
    simp only [identifier]
    omega
  obtain ⟨n, hn⟩ := Int.eq_ofNat_of_zero_le (show 0 ≤ v.identifier by omega)
  exact ⟨n, hn, by omega⟩

theorem isIdentifier_toDigits {n : Nat} (h : 10000 ≤ n) : IsIdentifier (Nat.toDigits 10 n) := by
  refine ⟨?_, fun c => Text.isDigit_of_mem_digits, Text.head?_toDigits_ne_zero (by omega)⟩
  have hlength := Nat.length_toDigits_le_iff (b := 10) (n := n) (k := 4) (by decide) (by decide)
  omega

-- ---------------------------------------------------------------------------
-- Reading
-- ---------------------------------------------------------------------------

/-- The last four digits of a numeral make up two groups, each with a number below one hundred. -/
theorem natOfDigits_groups (hdigit : ∀ c ∈ digits, c.isDigit = true) (hlength : 4 ≤ digits.length) :
    let rest := digits.drop (digits.length - 4)
    natOfDigits digits = 10000 * natOfDigits (digits.take (digits.length - 4)) +
        100 * natOfDigits (rest.take 2) + natOfDigits (rest.drop 2) ∧
      natOfDigits (rest.take 2) < 100 ∧ natOfDigits (rest.drop 2) < 100 := by
  intro rest
  have hfour : rest.length = 4 := by
    rw [List.length_drop]
    omega
  have hfirst : ∀ c ∈ digits.take (digits.length - 4), c.isDigit = true :=
    fun c hc => hdigit c (List.mem_of_mem_take hc)
  have hrest : ∀ c ∈ rest, c.isDigit = true := fun c hc => hdigit c (List.mem_of_mem_drop hc)
  have hminor : ∀ c ∈ rest.take 2, c.isDigit = true :=
    fun c hc => hrest c (List.mem_of_mem_take hc)
  have hpatch : ∀ c ∈ rest.drop 2, c.isDigit = true :=
    fun c hc => hrest c (List.mem_of_mem_drop hc)
  have hpair := Text.natOfDigits_append hminor hpatch
  have hwhole := Text.natOfDigits_append hfirst hrest
  rw [List.take_append_drop, List.length_drop, hfour] at hpair
  rw [List.take_append_drop, hfour] at hwhole
  refine ⟨by omega, ?_, ?_⟩
  · simpa [hfour] using Text.natOfDigits_lt hminor
  · simpa [hfour] using Text.natOfDigits_lt hpatch

theorem IsIdentifier.exists_version (h : IsIdentifier digits) :
    ∃ v, ofDigits? digits = some v ∧ v.IsNumbered ∧ v.identifier = natOfDigits digits := by
  obtain ⟨hlength, hdigit, hhead⟩ := h
  obtain ⟨hvalue, hminor, hpatch⟩ := natOfDigits_groups hdigit (by omega)
  have hfirst : (digits.take (digits.length - 4)).head? ≠ some '0' := by
    rwa [List.head?_take, if_neg (by omega)]
  have hpos : 0 < natOfDigits (digits.take (digits.length - 4)) := by
    refine Text.natOfDigits_pos ?_ (fun c hc => hdigit c (List.mem_of_mem_take hc)) hfirst
    refine List.ne_nil_of_length_pos ?_
    rw [List.length_take]
    omega
  have haccepted : (decide (digits.length < 5) || !digits.all Char.isDigit ||
      (digits.take (digits.length - 4)).head? == some '0') = false := by
    rw [List.all_eq_true.mpr hdigit, decide_eq_false (Nat.not_lt.mpr hlength),
      beq_eq_false_iff_ne.mpr hfirst]
    rfl
  refine ⟨_, by rw [ofDigits?, haccepted]; rfl, ?_, ?_⟩
  · constructor <;> dsimp only <;> omega
  · rw [hvalue]
    rfl

theorem isIdentifier_of_ofDigits? (h : ofDigits? digits = some v) : IsIdentifier digits := by
  unfold ofDigits? at h
  dsimp only at h
  split at h
  · cases h
  · rename_i hsome
    simp only [Bool.or_eq_true, decide_eq_true_eq, Bool.not_eq_true', beq_iff_eq, not_or,
      Bool.not_eq_false, Nat.not_lt] at hsome
    obtain ⟨⟨hlength, hall⟩, hhead⟩ := hsome
    refine ⟨hlength, List.all_eq_true.mp hall, ?_⟩
    rwa [List.head?_take, if_neg (by omega)] at hhead

/-- The versions that are read are those whose identifier, and nothing but blanks beside it, makes
up the text. -/
theorem read?_eq_some_iff :
    read? output = some v ↔ v.IsNumbered ∧ toString v.identifier = Text.trim output := by
  rw [read?]
  constructor
  · intro h
    have hidentifier := isIdentifier_of_ofDigits? h
    obtain ⟨w, hw, hnumbered, hvalue⟩ := hidentifier.exists_version
    obtain rfl : v = w := Option.some.inj (h.symm.trans hw)
    refine ⟨hnumbered, ?_⟩
    have hne : (Text.trim output).toList ≠ [] :=
      List.ne_nil_of_length_pos (by have := hidentifier.five_le_length; omega)
    rw [hvalue, toString_natCast,
      Text.toDigits_natOfDigits hne hidentifier.isDigit hidentifier.head?_ne_zero,
      String.ofList_toList]
  · rintro ⟨hnumbered, htext⟩
    obtain ⟨n, hn, hleast⟩ := hnumbered.exists_nat
    rw [← htext, hn, toString_natCast, String.toList_ofList]
    obtain ⟨w, hw, hnumbered', hvalue⟩ := (isIdentifier_toDigits hleast).exists_version
    rw [Text.natOfDigits_toDigits, ← hn] at hvalue
    rw [hw, (identifier_inj hnumbered' hnumbered).mp hvalue]

theorem parse_eq_ok_iff :
    parse output stderr = .ok v ↔ v.IsNumbered ∧ toString v.identifier = Text.trim output := by
  rw [← read?_eq_some_iff, parse]
  cases read? output <;> simp

example : parse " 80312\n" "" = .ok ⟨8, 3, 12⟩ := by rfl

theorem exists_parse_iff :
    (∃ v, parse output stderr = .ok v) ↔ IsIdentifier (Text.trim output).toList := by
  constructor
  · rintro ⟨v, h⟩
    exact isIdentifier_of_ofDigits? (read?_eq_some_iff.mpr (parse_eq_ok_iff.mp h))
  · intro h
    obtain ⟨v, hv, -, -⟩ := h.exists_version
    exact ⟨v, parse_eq_ok_iff.mpr (read?_eq_some_iff.mp hv)⟩

theorem trim_identifier (hv : v.IsNumbered) {before after : String}
    (hbefore : Text.allBlank before = true) (hafter : Text.allBlank after = true) :
    Text.trim (before ++ toString v.identifier ++ after) = toString v.identifier := by
  obtain ⟨n, hn, -⟩ := hv.exists_nat
  rw [hn, toString_natCast, Text.trim, String.toList_append, String.toList_append,
    String.toList_ofList, Text.trimWhile_surround (List.all_eq_true.mp hbefore)
      (List.all_eq_true.mp hafter)]
  refine congrArg String.ofList (Text.trimWhile_of_ends ?_ ?_)
  · intro c hc
    exact Text.isBlank_of_isDigit (Text.isDigit_of_mem_digits (List.mem_of_mem_head? hc))
  · intro c hc
    exact Text.isBlank_of_isDigit (Text.isDigit_of_mem_digits (List.mem_of_mem_getLast? hc))

/-- The compiler of the interpreter is kept from running. -/
def DisablesJit (flags : List String) : Prop :=
  ["-d", "opcache.jit=disable"] <:+: flags

theorem disablesJit_iff (hv : v.IsNumbered) :
    DisablesJit (Strategy.aggregateFlags v) ↔ 80000 ≤ v.identifier := by
  have hjit := atLeast_iff hv 8 (show (0 : Int) ≤ 0 by decide) (by decide)
  unfold Strategy.aggregateFlags DisablesJit
  cases hlate : v.atLeast 8 0 with
  | true =>
    rw [hlate] at hjit
    exact iff_of_true (by decide) (by simpa using hjit)
  | false =>
    rw [hlate] at hjit
    exact iff_of_false (by decide) (by simpa using hjit)

theorem select_eq (hv : v.IsNumbered) (supportDuplicatedNames : Bool) (php : String) :
    Strategy.select v supportDuplicatedNames php =
      if 80300 ≤ v.identifier then .batch php true
      else if supportDuplicatedNames then .batch php false
      else .aggregate php (Strategy.aggregateFlags v) := by
  have hmany := atLeast_iff hv 8 (show (0 : Int) ≤ 3 by decide) (by decide)
  rw [Strategy.select, if_congr hmany rfl rfl]
  rfl

/-- Every identifier, with blanks around it, is read as its version. What is read is exactly the
identifiers, and the version of one writes it again. Versions are ordered as their identifiers, and
the strategy follows the identifier. -/
theorem identifiers_decide :
    (∀ v : Version, v.IsNumbered → ∀ before after stderr : String,
      Text.allBlank before = true → Text.allBlank after = true →
      parse (before ++ toString v.identifier ++ after) stderr = .ok v) ∧
    (∀ output stderr : String,
      ((∃ v, parse output stderr = .ok v) ↔ IsIdentifier (Text.trim output).toList) ∧
      ∀ v, parse output stderr = .ok v →
        v.IsNumbered ∧ toString v.identifier = Text.trim output) ∧
    (∀ output stderr v, parse output stderr = .ok v →
      ∀ output' stderr' w, parse output' stderr' = .ok w →
      (v.le w = true ↔ v.identifier ≤ w.identifier) ∧ (v = w ↔ v.identifier = w.identifier)) ∧
    ∀ output stderr v, parse output stderr = .ok v → ∀ supportDuplicatedNames php,
      Strategy.select v supportDuplicatedNames php =
        (if 80300 ≤ v.identifier then .batch php true
        else if supportDuplicatedNames then .batch php false
        else .aggregate php (Strategy.aggregateFlags v)) ∧
      (DisablesJit (Strategy.aggregateFlags v) ↔ 80000 ≤ v.identifier) := by
  refine ⟨?_, ?_, ?_, ?_⟩
  · intro v hv before after stderr hbefore hafter
    exact parse_eq_ok_iff.mpr ⟨hv, (trim_identifier hv hbefore hafter).symm⟩
  · intro output stderr
    exact ⟨exists_parse_iff, fun v hv => parse_eq_ok_iff.mp hv⟩
  · intro output stderr v hv output' stderr' w hw
    obtain ⟨hnumbered, -⟩ := parse_eq_ok_iff.mp hv
    obtain ⟨hnumbered', -⟩ := parse_eq_ok_iff.mp hw
    exact ⟨le_iff_identifier_le hnumbered hnumbered',
      (identifier_inj hnumbered hnumbered').symm⟩
  · intro output stderr v hv supportDuplicatedNames php
    obtain ⟨hnumbered, -⟩ := parse_eq_ok_iff.mp hv
    exact ⟨select_eq hnumbered supportDuplicatedNames php, disablesJit_iff hnumbered⟩

end Version

end LintRun
