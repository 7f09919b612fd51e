import Mathlib.Data.List.Basic
import LintRun.Text.Utf8

/-!
# UTF-8 decoding

`decode?` undoes the encoding of a text (`decode?_eq_some_iff`): it takes exactly the bytes that
some text is encoded as, and of two texts no bytes are the encoding of both.
-/

namespace LintRun.Text.Utf8

-- ---------------------------------------------------------------------------
-- Bytes after the first one
-- ---------------------------------------------------------------------------

/-- Bytes that continue a character; the first of them has bounds of its own. -/
def Continues (low high : UInt8) : Bytes → Prop
  | [] => True
  | b :: rest => (low ≤ b ∧ b ≤ high) ∧ Continues 0x80 0xbf rest

/-- The value of a character after some more of its bytes. -/
def valueAfter (value : Nat) (tail : Bytes) : Nat :=
  tail.foldl (fun value b => 64 * value + payload b) value

theorem takeTail_eq_some_iff {low high : UInt8} {count value : Nat} {rest left : Bytes}
    {c : Char} :
    takeTail low high count value rest = (some c, left) ↔
      ∃ tail, tail.length = count ∧ Continues low high tail ∧ rest = tail ++ left ∧
        c = Char.ofNat (valueAfter value tail) := by
  induction count generalizing low high value rest with
  | zero =>
    simp only [takeTail, Prod.mk.injEq, Option.some.injEq, List.length_eq_zero_iff]
    constructor
    · rintro ⟨rfl, rfl⟩
      exact ⟨[], rfl, trivial, rfl, rfl⟩
    · rintro ⟨tail, rfl, -, rfl, rfl⟩
      exact ⟨rfl, rfl⟩
  | succ count ih =>
    cases rest with
    | nil =>
      simp only [takeTail, Prod.mk.injEq, reduceCtorEq, false_and, false_iff]
      rintro ⟨tail, hlength, -, hrest, -⟩
      obtain ⟨rfl, -⟩ := List.append_eq_nil_iff.mp hrest.symm
      cases hlength
    | cons b rest =>
      rw [takeTail]
      by_cases hb : (low ≤ b && b ≤ high) = true
      · rw [if_pos hb, ih]
        simp only [Bool.and_eq_true, decide_eq_true_eq] at hb
        constructor
        · rintro ⟨tail, rfl, htail, rfl, rfl⟩
          exact ⟨b :: tail, rfl, ⟨hb, htail⟩, rfl, rfl⟩
        · rintro ⟨_ | ⟨_, tail⟩, hlength, htail, hrest, rfl⟩
          · cases hlength
          · obtain ⟨rfl, rfl⟩ := List.cons.inj hrest
            exact ⟨tail, Nat.succ.inj hlength, htail.2, rfl, rfl⟩
      · rw [if_neg hb]
        simp only [Bool.and_eq_true, decide_eq_true_eq] at hb
        simp only [Prod.mk.injEq, reduceCtorEq, false_and, false_iff]
        rintro ⟨_ | ⟨_, tail⟩, hlength, htail, hrest, rfl⟩
        · cases hlength
        · obtain ⟨rfl, rfl⟩ := List.cons.inj hrest
          exact hb htail.1

-- ---------------------------------------------------------------------------
-- Characters
-- ---------------------------------------------------------------------------

/-- The first bytes of longer characters. -/
theorem tailShape?_eq_some_iff {b low high : UInt8} {count : Nat} :
    tailShape? b = some (count, low, high) ↔
      (count = 1 ∧ 0xc2 ≤ b.toNat ∧ b.toNat ≤ 0xdf ∧ low = 0x80 ∧ high = 0xbf) ∨
      (count = 2 ∧ 0xe0 ≤ b.toNat ∧ b.toNat ≤ 0xef ∧
        low = (if b.toNat = 0xe0 then 0xa0 else 0x80) ∧
        high = if b.toNat = 0xed then 0x9f else 0xbf) ∨
      (count = 3 ∧ 0xf0 ≤ b.toNat ∧ b.toNat ≤ 0xf4 ∧
        low = (if b.toNat = 0xf0 then 0x90 else 0x80) ∧
        high = if b.toNat = 0xf4 then 0x8f else 0xbf) := by
  have hbyte : ∀ n : UInt8, (b == n) = true ↔ b.toNat = n.toNat := by
    intro n
    rw [beq_iff_eq, UInt8.toNat_inj]
  simp only [tailShape?, Bool.and_eq_true, decide_eq_true_eq, UInt8.le_iff_toNat_le, hbyte,
    UInt8.reduceToNat]
  grind

/-- How many values the first byte of a character can give, where `count` bytes follow. -/
def leadOf (count : Nat) : Nat :=
  if count = 1 then 32 else if count = 2 then 16 else 8

/-- Bytes that spell a number as the bytes of a character do. -/
inductive Spells (n : Nat) : Bytes → Prop
  | one {b : UInt8} : b.toNat < 0x80 → n = b.toNat → Spells n [b]
  | more {b low high : UInt8} {tail : Bytes} :
      0x80 ≤ b.toNat → tailShape? b = some (tail.length, low, high) → Continues low high tail →
      n = valueAfter (b.toNat % leadOf tail.length) tail → Spells n (b :: tail)

theorem toNat_ofNat_of_lt {n : Nat} (h : n < 256) : (UInt8.ofNat n).toNat = n := by
  rw [UInt8.toNat_ofNat', Nat.mod_eq_of_lt h]

theorem toNat_valid (c : Char) : c.toNat < 0xd800 ∨ 0xdfff < c.toNat ∧ c.toNat < 0x110000 :=
  c.valid

theorem toNat_charOfNat {n : Nat} (h : n < 0xd800 ∨ 0xdfff < n ∧ n < 0x110000) :
    (Char.ofNat n).toNat = n := by
  rw [Char.ofNat, dif_pos h]
  rfl

theorem toNat_continuation (n : Nat) : (UInt8.ofNat (0x80 + n % 64)).toNat = 0x80 + n % 64 :=
  toNat_ofNat_of_lt (by omega)

section
variable {n : Nat}

theorem spells_two (h80 : 0x80 ≤ n) (h800 : n < 0x800) :
    Spells n [UInt8.ofNat (0xc0 + n / 64), UInt8.ofNat (0x80 + n % 64)] := by
  have hlead := toNat_ofNat_of_lt (show 0xc0 + n / 64 < 256 by omega)
  refine .more (by omega) (tailShape?_eq_some_iff.mpr (.inl ⟨rfl, ?_, ?_, rfl, rfl⟩)) ?_ ?_
  · omega
  · omega
  · simp only [Continues, UInt8.le_iff_toNat_le, toNat_continuation, UInt8.reduceToNat, and_true]
    omega
  · simp only [valueAfter, List.foldl, payload, hlead, toNat_continuation, List.length, leadOf,
      Nat.reduceAdd, if_true]
    omega

theorem spells_three (h800 : 0x800 ≤ n) (h10000 : n < 0x10000)
    (hvalid : n < 0xd800 ∨ 0xdfff < n) :
    Spells n [UInt8.ofNat (0xe0 + n / 4096), UInt8.ofNat (0x80 + n / 64 % 64),
      UInt8.ofNat (0x80 + n % 64)] := by
  have hlead := toNat_ofNat_of_lt (show 0xe0 + n / 4096 < 256 by omega)
  refine .more (by omega) (tailShape?_eq_some_iff.mpr (.inr (.inl ⟨rfl, ?_, ?_, rfl, rfl⟩))) ?_ ?_
  · omega
  · omega
  · simp only [Continues, UInt8.le_iff_toNat_le, apply_ite UInt8.toNat, hlead,
      toNat_continuation, UInt8.reduceToNat]
    grind
  · simp only [valueAfter, List.foldl, payload, hlead, toNat_continuation, List.length, leadOf,
      Nat.reduceAdd, Nat.reduceEqDiff, if_true, if_false]
    omega

theorem spells_four (h10000 : 0x10000 ≤ n) (hvalid : n < 0x110000) :
    Spells n [UInt8.ofNat (0xf0 + n / 262144), UInt8.ofNat (0x80 + n / 4096 % 64),
      UInt8.ofNat (0x80 + n / 64 % 64), UInt8.ofNat (0x80 + n % 64)] := by
  have hlead := toNat_ofNat_of_lt (show 0xf0 + n / 262144 < 256 by omega)
  refine .more (by omega) (tailShape?_eq_some_iff.mpr (.inr (.inr ⟨rfl, ?_, ?_, rfl, rfl⟩))) ?_ ?_
  · omega
  · omega
  · simp only [Continues, UInt8.le_iff_toNat_le, apply_ite UInt8.toNat, hlead,
      toNat_continuation, UInt8.reduceToNat]
    grind
  · simp only [valueAfter, List.foldl, payload, hlead, toNat_continuation, List.length, leadOf,
      Nat.reduceAdd, Nat.reduceEqDiff, if_false]
    omega

end

theorem spells_encodeChar (c : Char) : Spells c.toNat (encodeChar c) := by
  have hvalid := toNat_valid c
  unfold encodeChar
  by_cases h80 : c.toNat < 0x80
  · have hbyte := toNat_ofNat_of_lt (show c.toNat < 256 by omega)
    simp only [h80, if_true]
    exact .one (by omega) hbyte.symm
  by_cases h800 : c.toNat < 0x800
  · simp only [h80, h800, if_true, if_false]
    exact spells_two (by omega) h800
  by_cases h10000 : c.toNat < 0x10000
  · simp only [h80, h800, h10000, if_true, if_false]
    exact spells_three (by omega) h10000 (by omega)
  · simp only [h80, h800, h10000, if_false]
    exact spells_four (by omega) (by omega)

section
variable {n : Nat} {b t u v : UInt8}

/-- A number that these bytes spell is that of a character, which they encode. -/
theorem encodeChar_two (hlow : 0xc2 ≤ b.toNat) (hhigh : b.toNat ≤ 0xdf)
    (ht : Continues 0x80 0xbf [t]) (hn : n = valueAfter (b.toNat % 32) [t]) :
    (Char.ofNat n).toNat = n ∧ encodeChar (Char.ofNat n) = [b, t] := by
  simp only [Continues, UInt8.le_iff_toNat_le, UInt8.reduceToNat, and_true] at ht
  simp only [valueAfter, List.foldl, payload] at hn
  have hchar := toNat_charOfNat (n := n) (by omega)
  have h80 : ¬n < 0x80 := by omega
  have h800 : n < 0x800 := by omega
  have hlead : 0xc0 + n / 64 = b.toNat := by omega
  have hlast : 0x80 + n % 64 = t.toNat := by omega
  refine ⟨hchar, ?_⟩
  simp only [encodeChar, hchar, if_neg h80, if_pos h800, hlead, hlast, UInt8.ofNat_toNat]

theorem encodeChar_three (hlow : 0xe0 ≤ b.toNat) (hhigh : b.toNat ≤ 0xef)
    (ht : Continues (if b.toNat = 0xe0 then 0xa0 else 0x80) (if b.toNat = 0xed then 0x9f else 0xbf)
      [t, u])
    (hn : n = valueAfter (b.toNat % 16) [t, u]) :
    (Char.ofNat n).toNat = n ∧ encodeChar (Char.ofNat n) = [b, t, u] := by
  simp only [Continues, UInt8.le_iff_toNat_le, apply_ite UInt8.toNat, UInt8.reduceToNat,
    and_true] at ht
  simp only [valueAfter, List.foldl, payload] at hn
  obtain ⟨hnext, hlast⟩ := ht
  have hbounds : (0x80 ≤ t.toNat ∧ t.toNat ≤ 0xbf) ∧ (b.toNat = 0xe0 → 0xa0 ≤ t.toNat) ∧
      (b.toNat = 0xed → t.toNat ≤ 0x9f) := by grind
  have hchar := toNat_charOfNat (n := n) (by omega)
  have h80 : ¬n < 0x80 := by omega
  have h800 : ¬n < 0x800 := by omega
  have h10000 : n < 0x10000 := by omega
  have hlead : 0xe0 + n / 4096 = b.toNat := by omega
  have hnext : 0x80 + n / 64 % 64 = t.toNat := by omega
  have hlast : 0x80 + n % 64 = u.toNat := by omega
  refine ⟨hchar, ?_⟩
  simp only [encodeChar, hchar, if_neg h80, if_neg h800, if_pos h10000, hlead, hnext, hlast,
    UInt8.ofNat_toNat]

theorem encodeChar_four (hlow : 0xf0 ≤ b.toNat) (hhigh : b.toNat ≤ 0xf4)
    (ht : Continues (if b.toNat = 0xf0 then 0x90 else 0x80) (if b.toNat = 0xf4 then 0x8f else 0xbf)
      [t, u, v])
    (hn : n = valueAfter (b.toNat % 8) [t, u, v]) :
    (Char.ofNat n).toNat = n ∧ encodeChar (Char.ofNat n) = [b, t, u, v] := by
  simp only [Continues, UInt8.le_iff_toNat_le, apply_ite UInt8.toNat, UInt8.reduceToNat,
    and_true] at ht
  simp only [valueAfter, List.foldl, payload] at hn
  obtain ⟨hnext, hlast⟩ := ht
  have hbounds : (0x80 ≤ t.toNat ∧ t.toNat ≤ 0xbf) ∧ (b.toNat = 0xf0 → 0x90 ≤ t.toNat) ∧
      (b.toNat = 0xf4 → t.toNat ≤ 0x8f) := by grind
  have hchar := toNat_charOfNat (n := n) (by omega)
  have h80 : ¬n < 0x80 := by omega
  have h800 : ¬n < 0x800 := by omega
  have h10000 : ¬n < 0x10000 := by omega
  have hlead : 0xf0 + n / 262144 = b.toNat := by omega
  have hnext : 0x80 + n / 4096 % 64 = t.toNat := by omega
  have hthird : 0x80 + n / 64 % 64 = u.toNat := by omega
  have hlast : 0x80 + n % 64 = v.toNat := by omega
  refine ⟨hchar, ?_⟩
  simp only [encodeChar, hchar, if_neg h80, if_neg h800, if_neg h10000, hlead, hnext, hthird,
    hlast, UInt8.ofNat_toNat]

end

/-- Whatever is spelled is a character, and the bytes are its encoding. -/
theorem Spells.encodeChar_ofNat {n : Nat} {bytes : Bytes} (h : Spells n bytes) :
    (Char.ofNat n).toNat = n ∧ encodeChar (Char.ofNat n) = bytes := by
  cases h with
  | @one b hb hn =>
    have hchar := toNat_charOfNat (n := n) (by omega)
    refine ⟨hchar, ?_⟩
    have hshort : n < 0x80 := by omega
    simp only [encodeChar, hchar, if_pos hshort]
    rw [hn, UInt8.ofNat_toNat]
  | @more b low high tail hb hshape htail hn =>
    rcases tailShape?_eq_some_iff.mp hshape with
      ⟨hlength, hlow, hhigh, rfl, rfl⟩ | ⟨hlength, hlow, hhigh, rfl, rfl⟩ |
      ⟨hlength, hlow, hhigh, rfl, rfl⟩
    · obtain ⟨t, rfl⟩ := List.length_eq_one_iff.mp hlength
      exact encodeChar_two hlow hhigh htail hn
    · obtain ⟨t, u, rfl⟩ := List.length_eq_two.mp hlength
      exact encodeChar_three hlow hhigh htail hn
    · obtain ⟨t, u, v, rfl⟩ := List.length_eq_three.mp hlength
      exact encodeChar_four hlow hhigh htail hn

theorem Spells.encodeChar_eq {c : Char} {bytes : Bytes} (h : Spells c.toNat bytes) :
    encodeChar c = bytes := by
  simpa using h.encodeChar_ofNat.2

theorem next_eq_some_iff {b : UInt8} {rest left : Bytes} {c : Char} :
    next b rest = (some c, left) ↔ ∃ tail, Spells c.toNat (b :: tail) ∧ rest = tail ++ left := by
  constructor
  · intro h
    unfold next at h
    split at h
    · rename_i hlt
      have hb : b.toNat < 0x80 := UInt8.lt_iff_toNat_lt.mp hlt
      obtain ⟨hc, rfl⟩ := Prod.mk.inj h
      obtain rfl := Option.some.inj hc
      exact ⟨[], .one hb (toNat_charOfNat (by omega)), rfl⟩
    · rename_i hlt
      have hb : 0x80 ≤ b.toNat := Nat.not_lt.mp fun hb => hlt (UInt8.lt_iff_toNat_lt.mpr hb)
      split at h
      · cases h
      · rename_i hshape
        obtain ⟨tail, rfl, htail, rfl, rfl⟩ := takeTail_eq_some_iff.mp h
        have hspells := Spells.more hb hshape htail rfl
        have hchar := hspells.encodeChar_ofNat.1
        exact ⟨tail, hchar.symm ▸ hspells, rfl⟩
  · rintro ⟨tail, hspells, rfl⟩
    cases hspells with
    | one hb hn =>
      have hlt : b < 0x80 := UInt8.lt_iff_toNat_lt.mpr hb
      rw [next, if_pos hlt, ← hn, Char.ofNat_toNat]
      rfl
    | more hb hshape htail hn =>
      have hlt : ¬b < 0x80 := fun hlt => Nat.not_lt.mpr hb (UInt8.lt_iff_toNat_lt.mp hlt)
      rw [next, if_neg hlt, hshape]
      have hc : c = Char.ofNat (valueAfter (b.toNat % leadOf tail.length) tail) := by
        rw [← hn, Char.ofNat_toNat]
      exact takeTail_eq_some_iff.mpr ⟨tail, rfl, htail, rfl, hc⟩

-- ---------------------------------------------------------------------------
-- Texts
-- ---------------------------------------------------------------------------

theorem next_encodeChar (c : Char) (bytes : Bytes) :
    ∃ b tail, encodeChar c = b :: tail ∧ next b (tail ++ bytes) = (some c, bytes) := by
  have hspells := spells_encodeChar c
  cases hbytes : encodeChar c with
  | nil =>
    rw [hbytes] at hspells
    cases hspells
  | cons b tail => exact ⟨b, tail, rfl, next_eq_some_iff.mpr ⟨tail, hbytes ▸ hspells, rfl⟩⟩

theorem decode?_encodeChar_append (c : Char) (bytes : Bytes) :
    decode? (encodeChar c ++ bytes) = (decode? bytes).map (c :: ·) := by
  obtain ⟨b, tail, hbytes, hnext⟩ := next_encodeChar c bytes
  rw [hbytes, List.cons_append, decode?]
  simp only [hnext]

/-- Decoding undoes encoding, and takes nothing else. -/
theorem decode?_eq_some_iff {bytes : Bytes} {text : List Char} :
    decode? bytes = some text ↔ bytes = text.flatMap encodeChar := by
  constructor
  · intro h
    fun_induction decode? bytes generalizing text with
    | case1 =>
      obtain rfl := Option.some.inj h
      rfl
    | case2 => cases h
    | case3 b rest _ c hnext ih =>
      obtain ⟨text, htext, rfl⟩ := Option.map_eq_some_iff.mp h
      have hpair : next b rest = (some c, (next b rest).2) := Prod.ext hnext rfl
      obtain ⟨tail, hspells, hrest⟩ := next_eq_some_iff.mp hpair
      rw [List.flatMap_cons, ← ih htext, hspells.encodeChar_eq, List.cons_append, ← hrest]
  · rintro rfl
    induction text with
    | nil => rw [List.flatMap_nil, decode?]
    | cons c text ih => rw [List.flatMap_cons, decode?_encodeChar_append, ih, Option.map_some]

theorem flatMap_encodeChar_inj {text other : List Char}
    (h : text.flatMap encodeChar = other.flatMap encodeChar) : text = other := by
  have hdecoded := decode?_eq_some_iff.mpr h
  rw [decode?_eq_some_iff.mpr rfl] at hdecoded
  exact Option.some.inj hdecoded

/-- Whether bytes are the encoding of a text. -/
def IsText (bytes : Bytes) : Prop :=
  ∃ text : List Char, bytes = text.flatMap encodeChar

theorem decode?_eq_none_iff {bytes : Bytes} : decode? bytes = none ↔ ¬IsText bytes := by
  rw [Option.eq_none_iff_forall_ne_some]
  simp only [ne_eq, decode?_eq_some_iff, IsText, not_exists]

-- ---------------------------------------------------------------------------
-- Texts among other bytes
-- ---------------------------------------------------------------------------

theorem decodeLossy_encode_append (text : String) (bytes : Bytes) :
    decodeLossy (encode text ++ bytes) = text.toList ++ decodeLossy bytes := by
  rw [encode]
  induction text.toList with
  | nil => rfl
  | cons c cs ih =>
    obtain ⟨b, tail, hbytes, hnext⟩ := next_encodeChar c (cs.flatMap encodeChar ++ bytes)
    rw [List.flatMap_cons, List.append_assoc, hbytes, List.cons_append, decodeLossy]
    simp only [hnext, ih, Option.getD_some, List.cons_append]

theorem decodeLossy_encode (text : String) : decodeLossy (encode text) = text.toList := by
  have hnil : decodeLossy [] = [] := by rw [decodeLossy]
  have hdecoded := decodeLossy_encode_append text []
  rwa [List.append_nil, hnil, List.append_nil] at hdecoded

section
variable {b low high : UInt8}

/-- A byte that is a character of its own belongs to no other, so that what stands before it is
read as if there were nothing after it. -/
theorem takeTail_append (hb : b.toNat < 0x80) (hlow : 0x80 ≤ low.toNat) (count value : Nat)
    (rest more : Bytes) :
    takeTail low high count value (rest ++ b :: more) =
      (takeTail low high count value rest).map id (· ++ b :: more) := by
  induction count generalizing low high value rest with
  | zero => rfl
  | succ count ih =>
    cases rest with
    | nil =>
      have hlt : ¬low ≤ b := fun h => by
        have hle := UInt8.le_iff_toNat_le.mp h
        omega
      simp [takeTail, hlt]
    | cons c rest =>
      rw [List.cons_append, takeTail, takeTail]
      split
      · exact ih (by decide) _ rest
      · rfl

theorem next_append (hb : b.toNat < 0x80) (c : UInt8) (rest more : Bytes) :
    next c (rest ++ b :: more) = (next c rest).map id (· ++ b :: more) := by
  unfold next
  split
  · rfl
  · split
    · rfl
    · rename_i hshape
      refine takeTail_append hb ?_ _ _ rest more
      rcases tailShape?_eq_some_iff.mp hshape with
        ⟨-, -, -, rfl, -⟩ | ⟨-, -, -, rfl, -⟩ | ⟨-, -, -, rfl, -⟩
      · decide
      · split <;> decide
      · split <;> decide

theorem decodeLossy_append (hb : b.toNat < 0x80) (bytes more : Bytes) :
    decodeLossy (bytes ++ b :: more) = decodeLossy bytes ++ decodeLossy (b :: more) := by
  fun_induction decodeLossy bytes with
  | case1 => rfl
  | case2 c rest _ ih =>
    rw [List.cons_append, decodeLossy, next_append hb]
    exact congrArg _ ih

end

end LintRun.Text.Utf8
