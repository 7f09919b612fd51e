import Mathlib.Data.List.TakeWhile
import LintRun.Proofs.Text.DigitLaws
import LintRun.Proofs.Text.Utf8Laws
import LintRun.Report

/-!
# Laws of reports

What is read from an output are the numbers of the first report in it, wherever that stands and
whatever is around it: zeros if there is no report, and no numbers at all if one of them has too
many digits (`counts_eq_iff`). So the line that the helper script ends with is read back between any
bytes (`counts_read_back`): it starts with a character that is one byte and that no report has
inside, so that neither bytes that are no text nor a report that breaks off can reach into it.
-/

namespace LintRun.Report

open Text (Bytes digitLimit natOfDigits)
open Text.Utf8 (decodeLossy encode)

/-- Digits, of any script, of a number. -/
structure Digits (digits : List Char) : Prop where
  ne_nil : digits ≠ []
  isDigit : ∀ c ∈ digits, isDigit c = true

/-- The text starts with a report whose numbers have these digits. -/
def Reports (cs digits digits' : List Char) : Prop :=
  Digits digits ∧ Digits digits' ∧
    ∃ rest, cs = opening ++ (digits ++ (middle ++ (digits' ++ ([')'] ++ rest))))

/-- Somewhere in the text there is a report. -/
def HasReport (cs : List Char) : Prop :=
  ∃ before rest digits digits', cs = before ++ rest ∧ Reports rest digits digits'

/-- The numbers of the first report in the text have these digits. -/
def FirstReport (cs digits digits' : List Char) : Prop :=
  ∃ before rest, cs = before ++ rest ∧ Reports rest digits digits' ∧
    ∀ earlier, earlier <:+ before → earlier ≠ [] →
      ∀ other other', ¬Reports (earlier ++ rest) other other'

/-- What there is to read in a text: the numbers of the first report in it, if neither has too many
digits, and zeros if there is no report. -/
inductive Reported (cs : List Char) : Except Overlong (Nat × Nat) → Prop
  | numbers {digits digits' : List Char} (first : FirstReport cs digits digits')
      (readable : digits.length ≤ digitLimit) (readable' : digits'.length ≤ digitLimit) :
      Reported cs (.ok (natOfDigits digits, natOfDigits digits'))
  | overlong {digits digits' : List Char} (first : FirstReport cs digits digits')
      (long : digitLimit < digits.length) : Reported cs (.error ⟨digits.length⟩)
  | overlong' {digits digits' : List Char} (first : FirstReport cs digits digits')
      (readable : digits.length ≤ digitLimit) (long : digitLimit < digits'.length) :
      Reported cs (.error ⟨digits'.length⟩)
  | missing : ¬HasReport cs → Reported cs (.ok (0, 0))

variable {word cs rest digits digits' : List Char}

-- ---------------------------------------------------------------------------
-- A report at the start
-- ---------------------------------------------------------------------------

theorem after?_eq_some_iff : after? word cs = some rest ↔ cs = word ++ rest := by
  unfold after?
  constructor
  · intro h
    split at h
    · rename_i hstarts
      obtain ⟨tail, rfl⟩ := List.isPrefixOf_iff_prefix.mp hstarts
      rw [List.drop_left] at h
      rw [Option.some.inj h]
    · cases h
  · rintro rfl
    have hstarts : word.isPrefixOf (word ++ rest) = true :=
      List.isPrefixOf_iff_prefix.mpr (List.prefix_append word rest)
    rw [if_pos hstarts, List.drop_left]

/-- The digits of a number go up to the first character that is none. -/
theorem digits?_eq_some_iff (hrest : ∀ c ∈ rest.head?, isDigit c = false) :
    digits? cs = some (digits, rest) ↔ Digits digits ∧ cs = digits ++ rest := by
  unfold digits?
  dsimp only
  constructor
  · intro h
    split at h
    · cases h
    · rename_i hsome
      obtain ⟨rfl, hdrop⟩ := Prod.mk.inj (Option.some.inj h)
      refine ⟨⟨by simpa using hsome, ?_⟩, ?_⟩
      · intro c hmem
        exact List.mem_takeWhile_imp hmem
      · rw [← hdrop, List.takeWhile_append_dropWhile]
  · rintro ⟨hdigits, rfl⟩
    have htake : rest.takeWhile isDigit = [] := by
      cases rest with
      | nil => rfl
      | cons c rest => simp [hrest c rfl]
    have hdrop : rest.dropWhile isDigit = rest := by
      cases rest with
      | nil => rfl
      | cons c rest => simp [hrest c rfl]
    have hsome : ¬digits.isEmpty = true := by simpa using hdigits.ne_nil
    rw [List.takeWhile_append_of_pos hdigits.isDigit, List.dropWhile_append_of_pos hdigits.isDigit,
      htake, hdrop, List.append_nil, if_neg hsome]

theorem not_isDigit_middle (rest : List Char) :
    ∀ c ∈ (middle ++ rest).head?, isDigit c = false := by
  have hmiddle : middle.head? = some ' ' := rfl
  rw [List.head?_append, hmiddle]
  rintro _ ⟨⟩
  decide

theorem not_isDigit_closing (rest : List Char) :
    ∀ c ∈ ([')'] ++ rest).head?, isDigit c = false := by
  rintro _ ⟨⟩
  decide

theorem here?_eq_some_iff : here? cs = some (digits, digits') ↔ Reports cs digits digits' := by
  simp only [here?, Option.bind_eq_bind, Option.bind_eq_some_iff, Prod.exists, Option.pure_def,
    Option.some.injEq, Prod.mk.injEq, after?_eq_some_iff]
  constructor
  · rintro ⟨first, rfl, _, second, hchecked, third, rfl, _, fourth, hskipped, rest, rfl, rfl, rfl⟩
    obtain ⟨hdigits, rfl⟩ := (digits?_eq_some_iff (not_isDigit_middle third)).mp hchecked
    obtain ⟨hdigits', rfl⟩ := (digits?_eq_some_iff (not_isDigit_closing rest)).mp hskipped
    exact ⟨hdigits, hdigits', rest, rfl⟩
  · rintro ⟨hdigits, hdigits', rest, rfl⟩
    have hchecked := (digits?_eq_some_iff (not_isDigit_middle (digits' ++ ([')'] ++ rest)))).mpr
      ⟨hdigits, rfl⟩
    have hskipped := (digits?_eq_some_iff (not_isDigit_closing rest)).mpr ⟨hdigits', rfl⟩
    exact ⟨_, rfl, digits, _, hchecked, _, rfl, digits', _, hskipped, rest, rfl, rfl, rfl⟩

theorem here?_eq_none_iff :
    here? cs = none ↔ ∀ digits digits', ¬Reports cs digits digits' := by
  simp only [← here?_eq_some_iff, Option.eq_none_iff_forall_ne_some, ne_eq, Prod.forall]

-- ---------------------------------------------------------------------------
-- The first report
-- ---------------------------------------------------------------------------

theorem find?_eq_some_iff {report : List Char × List Char} : find? cs = some report ↔
    ∃ before rest, cs = before ++ rest ∧ here? rest = some report ∧
      ∀ earlier, earlier <:+ before → earlier ≠ [] → here? (earlier ++ rest) = none := by
  induction cs with
  | nil =>
    constructor
    · intro h
      refine ⟨[], [], rfl, h, fun earlier hearlier hne => absurd ?_ hne⟩
      exact List.suffix_nil.mp hearlier
    · rintro ⟨before, rest, hsplit, hhere, -⟩
      obtain ⟨rfl, rfl⟩ := List.append_eq_nil_iff.mp hsplit.symm
      exact hhere
  | cons c cs ih =>
    rw [find?]
    cases hhere : here? (c :: cs) with
    | some first =>
      constructor
      · rintro ⟨⟩
        refine ⟨[], c :: cs, rfl, hhere, fun earlier hearlier hne => absurd ?_ hne⟩
        exact List.suffix_nil.mp hearlier
      · rintro ⟨before, rest, hsplit, hrest, hnone⟩
        cases before with
        | nil =>
          obtain rfl : c :: cs = rest := hsplit
          rw [← hhere, hrest]
          rfl
        | cons b before =>
          have hwhole := hnone (b :: before) (List.suffix_refl _) (List.cons_ne_nil _ _)
          rw [← hsplit, hhere] at hwhole
          cases hwhole
    | none =>
      rw [Option.orElse_none, ih]
      constructor
      · rintro ⟨before, rest, rfl, hrest, hnone⟩
        refine ⟨c :: before, rest, rfl, hrest, fun earlier hearlier hne => ?_⟩
        rcases List.suffix_cons_iff.mp hearlier with rfl | hlater
        · exact hhere
        · exact hnone earlier hlater hne
      · rintro ⟨before, rest, hsplit, hrest, hnone⟩
        cases before with
        | nil =>
          obtain rfl : c :: cs = rest := hsplit
          rw [hhere] at hrest
          cases hrest
        | cons b before =>
          obtain ⟨rfl, rfl⟩ := List.cons.inj hsplit
          refine ⟨before, rest, rfl, hrest, fun earlier hearlier hne => ?_⟩
          exact hnone earlier (hearlier.trans (List.suffix_cons c before)) hne

theorem find?_eq_none_iff : find? cs = none ↔
    ∀ before rest, cs = before ++ rest → here? rest = none := by
  induction cs with
  | nil =>
    constructor
    · intro h before rest hsplit
      obtain ⟨rfl, rfl⟩ := List.append_eq_nil_iff.mp hsplit.symm
      exact h
    · intro h
      exact h [] [] rfl
  | cons c cs ih =>
    rw [find?]
    constructor
    · intro h before rest hsplit
      cases hhere : here? (c :: cs) with
      | some first =>
        rw [hhere] at h
        cases h
      | none =>
        rw [hhere, Option.orElse_none] at h
        cases before with
        | nil =>
          obtain rfl : c :: cs = rest := hsplit
          exact hhere
        | cons b before => exact ih.mp h before rest (List.cons.inj hsplit).2
    · intro h
      rw [h [] _ rfl, Option.orElse_none, ih]
      intro before rest hsplit
      exact h (c :: before) rest (congrArg (c :: ·) hsplit)

/-- No report starts before the text does. -/
theorem Reports.first (h : Reports cs digits digits') : FirstReport cs digits digits' := by
  refine ⟨[], cs, rfl, h, fun earlier hearlier hne => absurd ?_ hne⟩
  exact List.suffix_nil.mp hearlier

theorem firstReport_iff : FirstReport cs digits digits' ↔ find? cs = some (digits, digits') := by
  simp only [FirstReport, find?_eq_some_iff, here?_eq_some_iff, here?_eq_none_iff]

theorem not_hasReport_iff : ¬HasReport cs ↔ find? cs = none := by
  rw [find?_eq_none_iff]
  simp only [here?_eq_none_iff]
  constructor
  · intro h before rest hsplit digits digits' hreports
    exact h ⟨before, rest, digits, digits', hsplit, hreports⟩
  · rintro h ⟨before, rest, digits, digits', hsplit, hreports⟩
    exact h before rest hsplit digits digits' hreports

instance (cs : List Char) : Decidable (HasReport cs) :=
  decidable_of_iff (¬find? cs = none) (not_hasReport_iff.symm.not.trans Classical.not_not)

-- ---------------------------------------------------------------------------
-- The numbers of a report
-- ---------------------------------------------------------------------------

theorem number_of_le (h : digits.length ≤ digitLimit) : number digits = .ok (natOfDigits digits) :=
  if_neg (Nat.not_lt.mpr h)

theorem number_of_lt (h : digitLimit < digits.length) : number digits = .error ⟨digits.length⟩ :=
  if_pos h

theorem counts_of_firstReport {output : Bytes}
    (h : FirstReport (decodeLossy output) digits digits') :
    Report.counts output = (number digits).bind fun checked =>
      (number digits').bind fun skipped => .ok (checked, skipped) := by
  rw [Report.counts, firstReport_iff.mp h]
  rfl

/-- The numbers are read from the first report, and there is no other way to read them. -/
theorem counts_eq_iff {output : Bytes} {read : Except Overlong (Nat × Nat)} :
    Report.counts output = read ↔ Reported (decodeLossy output) read := by
  constructor
  · rintro rfl
    cases hfound : find? (decodeLossy output) with
    | none =>
      rw [Report.counts, hfound]
      exact .missing (not_hasReport_iff.mpr hfound)
    | some report =>
      have hfirst := firstReport_iff.mpr hfound
      rw [counts_of_firstReport hfirst]
      rcases Nat.lt_or_ge digitLimit report.1.length with hlong | hle
      · rw [number_of_lt hlong]
        exact .overlong hfirst hlong
      · rw [number_of_le hle]
        rcases Nat.lt_or_ge digitLimit report.2.length with hlong' | hle'
        · rw [number_of_lt hlong']
          exact .overlong' hfirst hle hlong'
        · rw [number_of_le hle']
          exact .numbers hfirst hle hle'
  · intro h
    cases h with
    | numbers hfirst hle hle' =>
      rw [counts_of_firstReport hfirst, number_of_le hle, number_of_le hle']
      rfl
    | overlong hfirst hlong =>
      rw [counts_of_firstReport hfirst, number_of_lt hlong]
      rfl
    | overlong' hfirst hle hlong' =>
      rw [counts_of_firstReport hfirst, number_of_le hle, number_of_lt hlong']
      rfl
    | missing hnone => rw [Report.counts, not_hasReport_iff.mp hnone]

-- ---------------------------------------------------------------------------
-- The line among other output
-- ---------------------------------------------------------------------------

theorem digits_toDigits (n : Nat) : Digits (Nat.toDigits 10 n) where
  ne_nil := Nat.toDigits_ne_nil
  isDigit c hc := by rw [isDigit, Text.digitValue?_of_isDigit (Text.isDigit_of_mem_digits hc)]; rfl

/-- A number has as many digits as are read if it is less than that power of ten. -/
theorem length_toDigits_le {n : Nat} :
    (Nat.toDigits 10 n).length ≤ digitLimit ↔ n < 10 ^ digitLimit :=
  Nat.length_toDigits_le_iff (by decide) (by decide)

theorem length_toString (n : Nat) : (toString n).length = (Nat.toDigits 10 n).length := by
  rw [Nat.toString_eq_ofList_toDigits, String.length_ofList]

theorem lt_length_toDigits {n : Nat} :
    digitLimit < (Nat.toDigits 10 n).length ↔ 10 ^ digitLimit ≤ n := by
  rw [← Nat.not_le, length_toDigits_le, Nat.not_lt]

theorem toList_line (checked skipped : Nat) :
    (line checked skipped).toList =
      opening ++ (Nat.toDigits 10 checked ++ (middle ++ (Nat.toDigits 10 skipped ++
        ([')'] ++ ['.'])))) := by
  have hnumber (n : Nat) : (toString n).toList = Nat.toDigits 10 n := by
    rw [Nat.toString_eq_ofList_toDigits, String.toList_ofList]
  have hopening : (toString "files checked: ").toList = opening := rfl
  have hmiddle : (toString " (skipped: ").toList = middle := rfl
  have hclosing : (toString ").").toList = [')'] ++ ['.'] := rfl
  unfold line
  rw [String.toList_append, String.toList_append, String.toList_append,
    String.toList_append, hnumber, hnumber, hopening, hmiddle, hclosing]
  simp only [List.append_assoc]

theorem reports_line (checked skipped : Nat) (rest : List Char) :
    Reports ((line checked skipped).toList ++ rest) (Nat.toDigits 10 checked)
      (Nat.toDigits 10 skipped) := by
  refine ⟨digits_toDigits checked, digits_toDigits skipped, '.' :: rest, ?_⟩
  simp [toList_line]

/-- The first character of a report comes only there. -/
theorem not_mem_tail_report (hdigits : ∀ c ∈ digits, isDigit c = true)
    (hdigits' : ∀ c ∈ digits', isDigit c = true) :
    'f' ∉ opening.tail ++ (digits ++ (middle ++ (digits' ++ [')']))) := by
  have hf : isDigit 'f' = false := by decide
  have hnone {ds : List Char} (hds : ∀ c ∈ ds, isDigit c = true) : 'f' ∉ ds := fun hmem => by
    rw [hds _ hmem] at hf
    cases hf
  have hopening : 'f' ∉ opening.tail := by decide
  have hmiddle : 'f' ∉ middle := by decide
  simp [hopening, hmiddle, hnone hdigits, hnone hdigits']

/-- A report that starts before such a character ends before it. -/
theorem Reports.of_append {earlier : List Char} (hne : earlier ≠ [])
    (h : Reports (earlier ++ 'f' :: rest) digits digits') : Reports earlier digits digits' := by
  obtain ⟨hdigits, hdigits', after, hsplit⟩ := h
  have hwhole : earlier ++ 'f' :: rest =
      (opening ++ (digits ++ (middle ++ (digits' ++ [')'])))) ++ after := by
    simpa only [List.append_assoc] using hsplit
  rcases List.append_eq_append_iff.mp hwhole with ⟨inside, hreport, hrest⟩ | ⟨left, hleft, -⟩
  · cases inside with
    | nil =>
      refine ⟨hdigits, hdigits', [], ?_⟩
      simpa only [List.append_nil, List.append_assoc] using hreport.symm
    | cons c inside =>
      -- The character would stand inside the report.
      obtain ⟨rfl, -⟩ := List.cons.inj hrest
      cases earlier with
      | nil => exact absurd rfl hne
      | cons first earlier =>
        refine absurd ?_ (not_mem_tail_report hdigits.isDigit hdigits'.isDigit)
        have htail := congrArg List.tail hreport
        rw [List.cons_append, List.tail_cons, List.tail_append_of_ne_nil (by decide)] at htail
        rw [htail]
        exact List.mem_append_right earlier List.mem_cons_self
  · exact ⟨hdigits, hdigits', left, by simpa only [List.append_assoc] using hleft⟩

theorem decodeLossy_around_line (before after : Bytes) (checked skipped : Nat) :
    decodeLossy (before ++ encode (line checked skipped) ++ after) =
      decodeLossy before ++ ((line checked skipped).toList ++ decodeLossy after) := by
  have hstart : encode (line checked skipped) =
      0x66 :: (line checked skipped).toList.tail.flatMap Text.Utf8.encodeChar := by
    rw [encode, toList_line]
    rfl
  rw [← Text.Utf8.decodeLossy_encode_append, List.append_assoc, hstart, List.cons_append]
  exact Text.Utf8.decodeLossy_append (by decide) before _

/-- The first report among other output is the line, if there is none in the bytes before it. -/
theorem firstReport_line {before : Bytes} (hbefore : ¬HasReport (decodeLossy before))
    (after : Bytes) (checked skipped : Nat) :
    FirstReport (decodeLossy (before ++ encode (line checked skipped) ++ after))
      (Nat.toDigits 10 checked) (Nat.toDigits 10 skipped) := by
  obtain ⟨tail, htail⟩ : ∃ tail,
      (line checked skipped).toList ++ decodeLossy after = 'f' :: tail := by
    rw [toList_line]
    exact ⟨_, rfl⟩
  rw [decodeLossy_around_line]
  refine ⟨_, _, rfl, reports_line checked skipped _, ?_⟩
  intro earlier hearlier hne digits digits' hreports
  -- A report from before the line would be in the bytes before it as a whole.
  rw [htail] at hreports
  obtain ⟨start, hstart⟩ := hearlier
  exact hbefore ⟨start, earlier, digits, digits', hstart.symm, hreports.of_append hne⟩

section
variable {before : Bytes} (hbefore : ¬HasReport (decodeLossy before)) (after : Bytes)
  {checked skipped : Nat}

include hbefore

theorem counts_line (hchecked : checked < 10 ^ digitLimit) (hskipped : skipped < 10 ^ digitLimit) :
    Report.counts (before ++ encode (line checked skipped) ++ after) = .ok (checked, skipped) := by
  have hread := counts_eq_iff.mpr (.numbers (firstReport_line hbefore after checked skipped)
    (length_toDigits_le.mpr hchecked) (length_toDigits_le.mpr hskipped))
  rwa [Text.natOfDigits_toDigits, Text.natOfDigits_toDigits] at hread

theorem counts_line_of_le (hchecked : 10 ^ digitLimit ≤ checked) (skipped : Nat) :
    Report.counts (before ++ encode (line checked skipped) ++ after) =
      .error ⟨(toString checked).length⟩ := by
  rw [length_toString]
  exact counts_eq_iff.mpr (.overlong (firstReport_line hbefore after checked skipped)
    (lt_length_toDigits.mpr hchecked))

theorem counts_line_of_le' (hchecked : checked < 10 ^ digitLimit)
    (hskipped : 10 ^ digitLimit ≤ skipped) :
    Report.counts (before ++ encode (line checked skipped) ++ after) =
      .error ⟨(toString skipped).length⟩ := by
  rw [length_toString]
  exact counts_eq_iff.mpr (.overlong' (firstReport_line hbefore after checked skipped)
    (length_toDigits_le.mpr hchecked) (lt_length_toDigits.mpr hskipped))

end

theorem not_hasReport_nil : ¬HasReport (decodeLossy []) := by decide +kernel

theorem counts_line_alone {checked skipped : Nat} (hchecked : checked < 10 ^ digitLimit)
    (hskipped : skipped < 10 ^ digitLimit) :
    Report.counts (encode (line checked skipped)) = .ok (checked, skipped) := by
  simpa only [List.nil_append, List.append_nil] using
    counts_line not_hasReport_nil [] hchecked hskipped

/-- The line is read back from between any bytes, if there is no report in those before it and
neither of its numbers has too many digits; the first number that has is complained of. Without a
report the numbers are zero. -/
theorem counts_read_back (before after output : Bytes) (checked skipped : Nat) :
    (¬HasReport (decodeLossy before) →
      let counts := Report.counts (before ++ encode (line checked skipped) ++ after)
      (checked < 10 ^ digitLimit → skipped < 10 ^ digitLimit → counts = .ok (checked, skipped)) ∧
      (10 ^ digitLimit ≤ checked → counts = .error ⟨(toString checked).length⟩) ∧
      (checked < 10 ^ digitLimit → 10 ^ digitLimit ≤ skipped →
        counts = .error ⟨(toString skipped).length⟩)) ∧
    (¬HasReport (decodeLossy output) → Report.counts output = .ok (0, 0)) := by
  constructor
  · intro hbefore
    exact ⟨counts_line hbefore after,
      fun hchecked => counts_line_of_le hbefore after hchecked skipped,
      counts_line_of_le' hbefore after⟩
  · intro hnone
    exact counts_eq_iff.mpr (.missing hnone)

/-- A character breaks off right before the line, and a second line follows. -/
theorem counts_read_back_sample :
    Report.counts ([0xe2, 0x82] ++ encode (line 12 3) ++ encode (line 7 7)) = .ok (12, 3) ∧
    Report.counts (encode "files checked: 12 (skipped: ") = .ok (0, 0) := by
  obtain ⟨hline, hnone⟩ := counts_read_back [0xe2, 0x82] (encode (line 7 7))
    (encode "files checked: 12 (skipped: ") 12 3
  exact ⟨(hline (by decide +kernel)).1 (by decide +kernel) (by decide +kernel),
    hnone (by decide +kernel)⟩

/-- The least number that is not read back has one digit too many. -/
theorem counts_line_overlong :
    Report.counts (encode (line (10 ^ digitLimit) 0)) = .error ⟨digitLimit + 1⟩ := by
  have hlength : (toString (10 ^ digitLimit)).length = digitLimit + 1 := by
    rw [length_toString]
    refine Nat.le_antisymm ?_ (lt_length_toDigits.mpr (Nat.le_refl _))
    rw [Nat.length_toDigits_le_iff (by decide) (by decide)]
    exact Nat.pow_lt_pow_succ (by decide)
  have hcounts := counts_line_of_le not_hasReport_nil [] (Nat.le_refl (10 ^ digitLimit)) 0
  rwa [List.nil_append, List.append_nil, hlength] at hcounts

end LintRun.Report
