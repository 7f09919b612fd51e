import Mathlib.Algebra.Group.Int.Defs
import Mathlib.Data.List.DropRight
import LintRun.Proofs.Text.DigitLaws
import LintRun.Proofs.Text.LineLaws
import LintRun.Value.Reading

/-!
# Values in messages

However a value is shown, unless it is a text itself, it takes one line with something on it: digits
and separators, and texts between quotes, whose line breaks are escaped. It cannot be shown if there
is an overlong integer in it (`written_eq_error_iff`).
-/

namespace LintRun

namespace Text

def Unbroken (s : String) : Prop :=
  ∀ c ∈ s.toList, isBreak c = false

instance (s : String) : Decidable (Unbroken s) :=
  decidable_of_iff (s.toList.all (!isBreak ·) = true) (by simp [Unbroken])

@[simp]
theorem unbroken_append {s t : String} : Unbroken (s ++ t) ↔ Unbroken s ∧ Unbroken t := by
  simp [Unbroken, or_imp, forall_and]

theorem unbroken_intercalate {separator : String} {parts : List String}
    (hseparator : Unbroken separator) (hparts : ∀ part ∈ parts, Unbroken part) :
    Unbroken (separator.intercalate parts) := by
  induction parts with
  | nil => simp [Unbroken]
  | cons first rest ih =>
    obtain ⟨hfirst, hrest⟩ := List.forall_mem_cons.mp hparts
    by_cases hne : rest = []
    · simpa [hne] using hfirst
    · rw [String.intercalate_cons_of_ne_nil hne]
      simp [hfirst, hseparator, ih hrest]

-- ---------------------------------------------------------------------------
-- Digits
-- ---------------------------------------------------------------------------

theorem isBreak_of_isDigit {c : Char} (h : c.isDigit = true) : isBreak c = false := by
  rw [Bool.eq_false_iff]
  intro hbreak
  obtain rfl | rfl : c = '\n' ∨ c = '\r' := by simpa [isBreak] using hbreak
  · exact absurd h (by decide)
  · exact absurd h (by decide)

theorem unbroken_repr (n : Nat) : Unbroken n.repr := by
  intro c hc
  rw [Nat.toList_repr] at hc
  exact isBreak_of_isDigit (isDigit_of_mem_digits hc)

theorem unbroken_repr_int (i : Int) : Unbroken i.repr := by
  cases i with
  | ofNat n => exact unbroken_repr n
  | negSucc n => exact unbroken_append.mpr ⟨by decide, unbroken_repr (n + 1)⟩

theorem exists_not_blank_repr (n : Nat) : ∃ c ∈ n.repr.toList, isBlank c = false := by
  rw [Nat.toList_repr]
  obtain ⟨c, rest, hdigits⟩ := List.exists_cons_of_ne_nil (Nat.toDigits_ne_nil (n := n) (b := 10))
  have hc : c ∈ Nat.toDigits 10 n := by simp [hdigits]
  exact ⟨c, hc, isBlank_of_isDigit (isDigit_of_mem_digits hc)⟩

theorem unbroken_padded (width n : Nat) : Unbroken (padded width n) := by
  intro c hc
  simp only [padded, String.toList_ofList, List.mem_append, List.mem_replicate] at hc
  rcases hc with ⟨-, rfl⟩ | hc
  · decide
  · exact isBreak_of_isDigit (isDigit_of_mem_digits hc)

-- ---------------------------------------------------------------------------
-- Quoted texts
-- ---------------------------------------------------------------------------

theorem isBreak_hexDigit {n : Nat} (h : n < 16) : isBreak (hexDigit n) = false := by
  revert n
  decide

theorem isBreak_of_mem_hexDigits {width n : Nat} {c : Char} (h : c ∈ hexDigits width n) :
    isBreak c = false := by
  induction width generalizing n with
  | zero => cases h
  | succ width ih =>
    rcases List.mem_append.mp h with h | h
    · exact ih h
    · rw [List.mem_singleton.mp h]
      exact isBreak_hexDigit (Nat.mod_lt n (by decide))

theorem isBreak_quoteFor (cs : List Char) : isBreak (quoteFor cs) = false := by
  unfold quoteFor
  split <;> decide

theorem isBreak_of_mem_quotedChar {quote c d : Char} (hquote : isBreak quote = false)
    (h : d ∈ quotedChar quote c) : isBreak d = false := by
  have hescaped : ∀ mark width n, isBreak mark = false → d ∈ '\\' :: mark :: hexDigits width n →
      isBreak d = false := by
    intro mark width n hmark hd
    rcases List.mem_cons.mp hd with rfl | hd
    · decide
    · rcases List.mem_cons.mp hd with rfl | hd
      · exact hmark
      · exact isBreak_of_mem_hexDigits hd
  unfold quotedChar at h
  split at h
  case isTrue hc =>
    have hc : isBreak c = false := by
      obtain rfl | rfl : c = quote ∨ c = '\\' := by simpa using hc
      · exact hquote
      · decide
    rcases List.mem_pair.mp h with rfl | rfl
    · decide
    · exact hc
  split at h
  case isTrue => exact hescaped 't' 0 0 (by decide) h
  split at h
  case isTrue => exact hescaped 'n' 0 0 (by decide) h
  split at h
  case isTrue => exact hescaped 'r' 0 0 (by decide) h
  split at h
  case isTrue hnewline hreturn _ =>
    rw [List.mem_singleton.mp h]
    simp [isBreak, hnewline, hreturn]
  split at h
  case isTrue => exact hescaped 'x' 2 c.toNat (by decide) h
  split at h
  case isTrue => exact hescaped 'u' 4 c.toNat (by decide) h
  case isFalse => exact hescaped 'U' 8 c.toNat (by decide) h

theorem unbroken_quoted (s : String) : Unbroken (quoted s) := by
  intro c hc
  simp only [quoted, String.toList_ofList, List.cons_append, List.mem_cons, List.mem_append,
    List.mem_flatMap, List.not_mem_nil, or_false] at hc
  have hquote := isBreak_quoteFor s.toList
  rcases hc with rfl | ⟨d, -, hd⟩ | rfl
  · exact hquote
  · exact isBreak_of_mem_quotedChar hquote hd
  · exact hquote

end Text

open Text (Unbroken unbroken_append)

-- ---------------------------------------------------------------------------
-- Dates and times
-- ---------------------------------------------------------------------------

theorem Date.unbroken_text (d : Date) : Unbroken d.text := by
  simp [text, Text.unbroken_padded]
  decide

theorem TimeOfDay.unbroken_text (t : TimeOfDay) : Unbroken t.text := by
  unfold text
  split <;> simp [Text.unbroken_padded] <;> decide

theorem Offset.unbroken_text (offset : Offset) : Unbroken offset.text := by
  unfold text
  split <;> simp [Text.unbroken_padded] <;> decide

theorem Date.unbroken_parts (d : Date) : ∀ part ∈ d.parts, Unbroken part := by
  simp [parts, Text.unbroken_repr]

theorem TimeOfDay.unbroken_parts (t : TimeOfDay) : ∀ part ∈ t.parts, Unbroken part := by
  unfold parts
  split
  · simp [Text.unbroken_repr]
  · split <;> simp [Text.unbroken_repr]

theorem Offset.unbroken_shown (offset : Offset) : Unbroken offset.shown := by
  have hpart : ∀ (name : String) (i : Int), Unbroken name → ∀ part ∈
      (if i = 0 then [] else [toString name ++ toString i]), Unbroken part := by
    intro name i hname part hpart
    split at hpart
    · cases hpart
    · rw [List.mem_singleton.mp hpart]
      exact unbroken_append.mpr ⟨hname, Text.unbroken_repr_int i⟩
  unfold shown
  split
  · decide
  · simp only [unbroken_append]
    refine ⟨⟨by decide, Text.unbroken_intercalate (by decide) ?_⟩, by decide⟩
    intro part hmem
    rcases List.mem_append.mp hmem with hmem | hmem
    · exact hpart "days=" _ (by decide) part hmem
    · exact hpart "seconds=" _ (by decide) part hmem

-- ---------------------------------------------------------------------------
-- Numbers
-- ---------------------------------------------------------------------------

namespace Decimal

variable {c : Char}

theorem isDigit_of_mem_ofNat {value : Nat} {exponent : Int}
    (h : c ∈ (ofNat value exponent).digits) : c.isDigit = true :=
  Text.isDigit_of_mem_digits ((List.rdropWhile_prefix (· == '0') _).mem h)

theorem exists_ofNat_of_neighbour? {x : Binary64} {num den : Nat} {exponent : Int}
    {found : Decimal} (h : neighbour? x num den exponent = some found) :
    ∃ value, found = ofNat value exponent := by
  unfold neighbour? at h
  dsimp only at h
  split_ifs at h <;> exact ⟨_, (Option.some.inj h).symm⟩

theorem isDigit_of_mem_shortest {significand : Nat} {exponent : Int}
    (h : c ∈ (shortest significand exponent).digits) : c.isDigit = true := by
  unfold shortest at h
  dsimp only at h
  generalize hgrids : List.filterMap _ (List.range 17) = grids at h
  cases grids with
  | nil =>
    obtain rfl : c = '0' := List.mem_singleton.mp h
    rfl
  | cons found rest =>
    have hmem : found ∈ found :: rest := List.mem_cons_self
    rw [← hgrids, List.mem_filterMap] at hmem
    obtain ⟨count, -, hneighbour⟩ := hmem
    obtain ⟨value, rfl⟩ := exists_ofNat_of_neighbour? hneighbour
    exact isDigit_of_mem_ofNat h

end Decimal

namespace DecimalStyle

open Text (isBreak)

theorem isBreak_of_mem_exponentText (exponent : Int) :
    ∀ c ∈ exponentText exponent, isBreak c = false := by
  have hdigits : ∀ c ∈ Nat.toDigits 10 exponent.natAbs, isBreak c = false :=
    fun c hc => Text.isBreak_of_isDigit (Text.isDigit_of_mem_digits hc)
  unfold exponentText
  refine List.forall_mem_cons.mpr ⟨by split <;> decide, ?_⟩
  split
  · exact List.forall_mem_cons.mpr ⟨by decide, hdigits⟩
  · exact hdigits

theorem isBreak_of_mem_write {style : DecimalStyle} {x : Decimal}
    (hdigits : ∀ c ∈ x.digits, isBreak c = false) : ∀ c ∈ style.write x, isBreak c = false := by
  have htake : ∀ n, ∀ c ∈ x.digits.take n, isBreak c = false :=
    fun n c hc => hdigits c (List.mem_of_mem_take hc)
  have hdrop : ∀ n, ∀ c ∈ x.digits.drop n, isBreak c = false :=
    fun n c hc => hdigits c (List.mem_of_mem_drop hc)
  have hzeros : ∀ n, ∀ c ∈ List.replicate n '0', isBreak c = false := by
    intro n c hc
    rw [(List.mem_replicate.mp hc).2]
    decide
  have hpoint : isBreak '.' = false := by decide
  have hzero : isBreak '0' = false := by decide
  have hmark : isBreak 'e' = false := by decide
  unfold write
  dsimp only
  split_ifs <;> simp only [List.forall_mem_append, List.forall_mem_cons]
  · exact ⟨⟨hzero, hpoint, hzeros _⟩, hdigits⟩
  · exact ⟨⟨htake _, hzeros _⟩, hpoint, hdrop _⟩
  · exact ⟨⟨htake _, hzeros _⟩, hpoint, hzero, List.forall_mem_nil _⟩
  · exact ⟨htake _, hzeros _⟩
  · exact ⟨⟨htake _, List.forall_mem_nil _⟩, hmark, isBreak_of_mem_exponentText _⟩
  · exact ⟨⟨htake _, hpoint, hdrop _⟩, hmark, isBreak_of_mem_exponentText _⟩

end DecimalStyle

namespace Binary64

theorem unbroken_text (x : Binary64) : Unbroken x.text := by
  unfold text writeWith
  split
  · decide
  · refine unbroken_append.mpr ⟨?_, by decide⟩
    split <;> decide
  · intro c hc
    rw [String.toList_ofList, List.mem_append] at hc
    rcases hc with hc | hc
    · split at hc
      · rw [List.mem_singleton.mp hc]
        decide
      · cases hc
    · refine DecimalStyle.isBreak_of_mem_write ?_ c hc
      split
      · exact List.forall_mem_singleton.mpr (by decide)
      · exact fun d hd => Text.isBreak_of_isDigit (Decimal.isDigit_of_mem_shortest hd)

theorem exists_not_blank_write (x : Decimal) :
    ∃ c ∈ plain.write x, Text.isBlank c = false := by
  have hpoint : Text.isBlank '.' = false := by decide
  have hmark : Text.isBlank 'e' = false := by decide
  unfold DecimalStyle.write plain
  dsimp only
  split_ifs
  · exact ⟨'.', by simp, hpoint⟩
  · exact ⟨'.', by simp, hpoint⟩
  · exact ⟨'.', by simp, hpoint⟩
  · contradiction
  · exact ⟨'e', by simp, hmark⟩
  · exact ⟨'e', by simp, hmark⟩

theorem exists_not_blank (x : Binary64) : ∃ c ∈ x.text.toList, Text.isBlank c = false := by
  unfold text writeWith
  split
  · exact ⟨'n', by decide, by decide⟩
  · exact ⟨'f', by simp, by decide⟩
  · rename_i negative significand exponent
    obtain ⟨c, hc, hblank⟩ := exists_not_blank_write
      (if significand = 0 then ⟨['0'], 1⟩ else Decimal.shortest significand exponent)
    exact ⟨c, by simp [hc], hblank⟩

theorem write_brief_ne_nil (x : Decimal) : brief.write x ≠ [] := by
  unfold DecimalStyle.write brief
  dsimp only
  split_ifs with hrange hpoint hfraction
  · exact List.cons_ne_nil _ _
  · exact List.append_ne_nil_of_right_ne_nil _ (List.cons_ne_nil _ _)
  · contradiction
  · -- The digits before the point are filled up to their number, which is not zero.
    intro hnil
    have hlength := congrArg List.length hnil
    simp only [List.length_append, List.length_replicate, List.length_nil] at hlength
    omega
  · simp
  · simp

theorem briefText_ne_empty (x : Binary64) : x.briefText ≠ "" := by
  unfold briefText writeWith
  split
  · decide
  · split <;> decide
  · rw [ne_eq, String.ofList_eq_empty_iff]
    exact List.append_ne_nil_of_right_ne_nil _ (write_brief_ne_nil _)

end Binary64

-- ---------------------------------------------------------------------------
-- Values
-- ---------------------------------------------------------------------------

namespace Value

theorem unbroken_call {name : String} {arguments : List String} (hname : Unbroken name)
    (harguments : ∀ argument ∈ arguments, Unbroken argument) : Unbroken (call name arguments) := by
  simp only [call, unbroken_append]
  exact ⟨⟨⟨⟨by decide, hname⟩, by decide⟩,
    Text.unbroken_intercalate (by decide) harguments⟩, by decide⟩

mutual
theorem unbroken_nested : ∀ value : Value, Unbroken value.nested
  | .null => by decide
  | .bool true => by decide
  | .bool false => by decide
  | .int i => Text.unbroken_repr_int i
  | .float x => x.unbroken_text
  | .text s => Text.unbroken_quoted s
  | .date d => unbroken_call (by decide) d.unbroken_parts
  | .time t => unbroken_call (by decide) t.unbroken_parts
  | .moment d t offset => by
    refine unbroken_call (by decide) ?_
    rw [List.forall_mem_append, List.forall_mem_append]
    refine ⟨⟨d.unbroken_parts, t.unbroken_parts⟩, ?_⟩
    cases offset with
    | none => exact List.forall_mem_nil _
    | some o =>
      rintro part (_ | ⟨_, ⟨⟩⟩)
      exact unbroken_append.mpr ⟨by decide, o.unbroken_shown⟩
  | .list items => by
    rw [nested, enclose, unbroken_append, unbroken_append]
    exact ⟨⟨by decide, Text.unbroken_intercalate (by decide) (unbroken_nestedItems items)⟩,
      by decide⟩
  | .table entries => by
    rw [nested, enclose, unbroken_append, unbroken_append]
    exact ⟨⟨by decide, Text.unbroken_intercalate (by decide) (unbroken_nestedEntries entries)⟩,
      by decide⟩

theorem unbroken_nestedItems : ∀ items : List Value, ∀ part ∈ nestedItems items, Unbroken part
  | [] => List.forall_mem_nil _
  | item :: rest =>
    List.forall_mem_cons.mpr ⟨unbroken_nested item, unbroken_nestedItems rest⟩

theorem unbroken_nestedEntries :
    ∀ entries : List (String × Value), ∀ part ∈ nestedEntries entries, Unbroken part
  | [] => List.forall_mem_nil _
  | (key, value) :: rest => by
    refine List.forall_mem_cons.mpr ⟨?_, unbroken_nestedEntries rest⟩
    rw [unbroken_append, unbroken_append]
    exact ⟨⟨Text.unbroken_quoted key, by decide⟩, unbroken_nested value⟩
end

theorem unbroken_shown {value : Value} (h : ∀ s, value ≠ .text s) : Unbroken value.shown := by
  cases value with
  | text s => exact absurd rfl (h s)
  | date d => exact d.unbroken_text
  | time t => exact t.unbroken_text
  | moment d t offset =>
    simp only [shown, momentText, unbroken_append]
    refine ⟨⟨⟨d.unbroken_text, by decide⟩, t.unbroken_text⟩, ?_⟩
    cases offset with
    | none => decide
    | some o => exact o.unbroken_text
  | _ => exact unbroken_nested _

theorem exists_not_blank {value : Value} (h : ∀ s, value ≠ .text s) :
    ∃ c ∈ value.shown.toList, Text.isBlank c = false := by
  cases value with
  | text s => exact absurd rfl (h s)
  | null => exact ⟨'N', by decide, by decide⟩
  | bool b =>
    cases b with
    | false => exact ⟨'F', by decide, by decide⟩
    | true => exact ⟨'T', by decide, by decide⟩
  | int i =>
    cases i with
    | ofNat n => exact Text.exists_not_blank_repr n
    | negSucc n => exact ⟨'-', by simp [shown, nested, Int.repr], by decide⟩
  | float x => exact x.exists_not_blank
  | date d => exact ⟨'-', by simp [shown, Date.text], by decide⟩
  | time t => exact ⟨':', by simp [shown, TimeOfDay.text], by decide⟩
  | moment d t offset => exact ⟨'-', by simp [shown, momentText, Date.text], by decide⟩
  | list items => exact ⟨'[', by simp [shown, nested, enclose], by decide⟩
  | table entries => exact ⟨'}', by simp [shown, nested, enclose], by decide⟩

theorem solid_trim_shown {value : Value} (h : ∀ s, value ≠ .text s) :
    Text.Solid (Text.trim value.shown).toList := by
  rw [Text.trim, String.toList_ofList]
  refine Text.solid_trimWhile (unbroken_shown h) ?_
  rw [ne_eq, Text.trimWhile_eq_nil_iff]
  intro hblank
  obtain ⟨c, hc, hcblank⟩ := exists_not_blank h
  rw [hblank c hc] at hcblank
  cases hcblank

-- ---------------------------------------------------------------------------
-- Values that cannot be shown
-- ---------------------------------------------------------------------------

/-- An integer in the value, on its own or at any depth, has more digits than are written. -/
inductive HasOverlong : Value → Prop
  | int {i : Int} (long : 10 ^ Text.digitLimit ≤ i.natAbs) : HasOverlong (.int i)
  | item {item : Value} {items : List Value} (mem : item ∈ items) (within : HasOverlong item) :
      HasOverlong (.list items)
  | entry {key : String} {value : Value} {entries : List (String × Value)}
      (mem : (key, value) ∈ entries) (within : HasOverlong value) : HasOverlong (.table entries)

theorem hasOverlong_int {i : Int} : HasOverlong (.int i) ↔ 10 ^ Text.digitLimit ≤ i.natAbs := by
  constructor
  · intro h
    cases h with
    | int long => exact long
  · exact .int

/-- The least integer with one digit too many. -/
theorem hasOverlong_pow : HasOverlong (.int (10 ^ Text.digitLimit)) := by
  have hten : (10 : Int).natAbs = 10 := rfl
  refine .int ?_
  rw [Int.natAbs_pow, hten]

theorem hasOverlong_list {items : List Value} :
    HasOverlong (.list items) ↔ ∃ item ∈ items, HasOverlong item := by
  constructor
  · intro h
    cases h with
    | item mem within => exact ⟨_, mem, within⟩
  · rintro ⟨item, mem, within⟩
    exact .item mem within

theorem hasOverlong_table {entries : List (String × Value)} :
    HasOverlong (.table entries) ↔ ∃ entry ∈ entries, HasOverlong entry.2 := by
  constructor
  · intro h
    cases h with
    | entry mem within => exact ⟨_, mem, within⟩
  · rintro ⟨entry, mem, within⟩
    exact .entry mem within

mutual
theorem isOverlong_iff (value : Value) : value.isOverlong = true ↔ HasOverlong value := by
  cases value with
  | int i => rw [isOverlong, decide_eq_true_iff, hasOverlong_int, Nat.pow_eq]
  | list items => rw [isOverlong, anyOverlong_iff, hasOverlong_list]
  | table entries => rw [isOverlong, anyEntryOverlong_iff, hasOverlong_table]
  | _ =>
    constructor
    · intro h
      cases h
    · intro h
      cases h

theorem anyOverlong_iff (items : List Value) :
    anyOverlong items = true ↔ ∃ item ∈ items, HasOverlong item := by
  cases items with
  | nil => simp [anyOverlong]
  | cons item rest => simp [anyOverlong, isOverlong_iff item, anyOverlong_iff rest]

theorem anyEntryOverlong_iff (entries : List (String × Value)) :
    anyEntryOverlong entries = true ↔ ∃ entry ∈ entries, HasOverlong entry.2 := by
  cases entries with
  | nil => simp [anyEntryOverlong]
  | cons entry rest =>
    obtain ⟨key, value⟩ := entry
    simp only [anyEntryOverlong, Bool.or_eq_true, isOverlong_iff value, anyEntryOverlong_iff rest,
      List.exists_mem_cons_iff]
end

section
variable {value : Value}

theorem written_of_hasOverlong (h : HasOverlong value) : value.written = .error .overlong :=
  if_pos ((isOverlong_iff value).mpr h)

theorem written_of_not_hasOverlong (h : ¬HasOverlong value) : value.written = .ok value.shown :=
  if_neg fun hlong => h ((isOverlong_iff value).mp hlong)

theorem written_eq_error_iff {e : OptionError} :
    value.written = .error e ↔ HasOverlong value ∧ e = .overlong := by
  by_cases h : HasOverlong value
  · simp [written_of_hasOverlong h, h, eq_comm]
  · simp [written_of_not_hasOverlong h, h]

end

end Value

end LintRun
