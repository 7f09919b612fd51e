import LintRun.Proofs.CheckLaws

/-!
# How many bytes a line takes

A batch keeps the number of characters of a line below the ceiling, which stands for a number of
bytes. Quoting adds nothing but ASCII, so the bytes that a line takes beyond its characters are
those of the interpreter and the files on it, and a line of several files fits exactly if there is
room left for them.
-/

namespace LintRun

-- ---------------------------------------------------------------------------
-- Bytes beyond characters
-- ---------------------------------------------------------------------------

namespace Text.Utf8

/-- The bytes that characters take beyond one for each of them. -/
def surplusChars (cs : List Char) : Nat :=
  (cs.map fun c => (encodeChar c).length - 1).sum

def surplus (s : String) : Nat :=
  surplusChars s.toList

@[simp] theorem surplusChars_nil : surplusChars [] = 0 := rfl

@[simp] theorem surplusChars_cons (c : Char) (cs : List Char) :
    surplusChars (c :: cs) = ((encodeChar c).length - 1) + surplusChars cs := rfl

@[simp] theorem surplusChars_append (cs ds : List Char) :
    surplusChars (cs ++ ds) = surplusChars cs + surplusChars ds := by
  simp [surplusChars]

theorem encodeChar_length (c : Char) :
    (encodeChar c).length =
      if c.toNat < 0x80 then 1
      else if c.toNat < 0x800 then 2
      else if c.toNat < 0x10000 then 3
      else 4 := by
  simp only [encodeChar, apply_ite List.length, List.length_cons, List.length_nil]

theorem encodeChar_length_pos (c : Char) : 0 < (encodeChar c).length := by
  rw [encodeChar_length]
  repeat' split
  all_goals decide

theorem size_eq (s : String) : size s = s.length + surplus s := by
  have hchars : ∀ cs : List Char, (cs.flatMap encodeChar).length = cs.length + surplusChars cs := by
    intro cs
    induction cs with
    | nil => rfl
    | cons c cs ih =>
      have hpos := encodeChar_length_pos c
      simp only [List.flatMap_cons, List.length_append, ih, List.length_cons, surplusChars_cons]
      omega
  rw [size, encode, hchars, String.length_toList]
  rfl

theorem surplus_eq_zero {s : String} (h : ∀ c ∈ s.toList, c.toNat < 128) : surplus s = 0 := by
  refine List.sum_eq_zero_iff_forall_eq_nat.mpr ?_
  intro n hn
  obtain ⟨c, hc, rfl⟩ := List.mem_map.mp hn
  rw [encodeChar_length, if_pos (h c hc)]

end Text.Utf8

open Text.Utf8 (size surplus surplusChars)

namespace Shell

theorem surplusChars_singleQuoted (cs : List Char) :
    surplusChars (singleQuoted cs) = surplusChars cs := by
  have hbody : surplusChars (cs.flatMap fun c => if c = '\'' then quotedQuote else [c]) =
      surplusChars cs := by
    induction cs with
    | nil => rfl
    | cons c cs ih =>
      rw [List.flatMap_cons, Text.Utf8.surplusChars_append, ih]
      -- What stands for a quote is ASCII, like the quote.
      split
      · subst c
        rfl
      · simp
  have hquote : surplusChars ['\''] = 0 := rfl
  rw [singleQuoted, Text.Utf8.surplusChars_append, Text.Utf8.surplusChars_cons, hbody, hquote]
  exact Nat.zero_add _

theorem surplusChars_quotePosix (cs : List Char) :
    surplusChars (quotePosix cs) = surplusChars cs := by
  unfold quotePosix
  split
  · rfl
  · exact surplusChars_singleQuoted cs

end Shell

namespace CommandLine

theorem surplusChars_tokens (texts : List String) :
    surplusChars (texts.flatMap fun text => ' ' :: Shell.quotePosix text.toList) =
      (texts.map surplus).sum := by
  induction texts with
  | nil => rfl
  | cons text texts ih =>
    have hspace : (Text.Utf8.encodeChar ' ').length = 1 := rfl
    simp [Shell.surplusChars_quotePosix, ih, surplus, hspace]

theorem surplus_render (php : String) (limit : Int) (files : List String) :
    surplus ((lintPacking php limit).render files) = surplus php + (files.map surplus).sum := by
  have hoptions : (Shell.lintOptions.map surplus).sum = 0 := by decide
  rw [surplus, toList_render, Text.Utf8.surplusChars_append, Shell.surplusChars_quotePosix,
    surplusChars_tokens, List.map_append, List.sum_append, hoptions, Nat.zero_add]
  rfl

end CommandLine

-- ---------------------------------------------------------------------------
-- Ceilings
-- ---------------------------------------------------------------------------

namespace Ceiling

theorem length_le_greatestLength (ceiling : Ceiling) : ceiling.length ≤ greatestLength := by
  cases ceiling with
  | fixed => decide
  | fallback failure => exact (by decide : posixLength ≤ greatestLength)
  | measured measure => exact Int.min_le_right _ _

/-- A line fits under the ceiling in bytes, and with a zero byte at its end it is not too long for
a single argument. -/
def Fits (ceiling : Ceiling) (line : String) : Prop :=
  (size line + 1 : Int) ≤ greatestLength ∧ (size line : Int) < ceiling.length

theorem fits_iff {ceiling : Ceiling} {line : String} :
    ceiling.Fits line ↔ (size line : Int) < ceiling.length := by
  -- No ceiling is above the length of a single argument.
  have hle := ceiling.length_le_greatestLength
  unfold Fits
  omega

end Ceiling

-- ---------------------------------------------------------------------------
-- Batch runs
-- ---------------------------------------------------------------------------

namespace Check

variable {σ : Type} {host : Host σ} {s : σ}

/-- The ceiling of a run that begins in a state, on a POSIX system. -/
def ceilingOf (host : Host σ) (s : σ) : Ceiling :=
  .ofProbe host.environment (host.probe Probe.argMaxCommand s).1

theorem limitOf_lt_of_lt (hposix : host.platform = .posix) {manyFiles : Bool} {n : Nat}
    (h : (n : Int) < limitOf host manyFiles s) : (n : Int) < (ceilingOf host s).length := by
  unfold limitOf at h
  cases manyFiles with
  | true => simpa [ceilingOf, hposix] using h
  | false => simp at h; omega

/-- A line of several files stays below the ceiling in characters. It fits in bytes exactly if what
the interpreter and the files take beyond their characters still stays below, which it does if all
of them are ASCII. -/
theorem fits_iff_of_launch {fuel : Nat} {options : Options} {php : String} {manyFiles : Bool}
    {verdict : Verdict} {invocation : Invocation} (hposix : host.platform = .posix)
    (hlaunch : Event.launch invocation ∈
      (runBatch host fuel options php manyFiles verdict s).events) :
    ∃ line files, invocation.command = .shell line ∧ CommandLine.operands? line = some files ∧
      (2 ≤ files.length →
        (line.length : Int) < (ceilingOf host s).length ∧
        ((ceilingOf host s).Fits line ↔
          ((line.length + surplus php + (files.map surplus).sum : Nat) : Int) <
            (ceilingOf host s).length) ∧
        ((∀ text ∈ php :: files, ∀ c ∈ text.toList, c.toNat < 128) →
          (ceilingOf host s).Fits line)) := by
  obtain ⟨line, hadmits, -, rfl⟩ :=
    (runBatch_soFar host options fuel php manyFiles verdict s).exists_line hlaunch
  refine ⟨line.text, line.files, rfl, operands?_of_admits hposix hadmits, fun htwo => ?_⟩
  have hlength := limitOf_lt_of_lt hposix (hadmits.lt_limit htwo)
  have hsize : size line.text =
      line.text.length + surplus php + (line.files.map surplus).sum := by
    have hsurplus := CommandLine.surplus_render php (limitOf host manyFiles s) line.files
    rw [Text.Utf8.size_eq, Nat.add_assoc, ← hsurplus, hadmits.text_eq, packingOf_posix hposix]
  refine ⟨hlength, by rw [Ceiling.fits_iff, hsize], fun hascii => ?_⟩
  have hphp : surplus php = 0 := Text.Utf8.surplus_eq_zero (hascii php (by simp))
  have hfiles : (line.files.map surplus).sum = 0 := by
    refine List.sum_eq_zero_iff_forall_eq_nat.mpr ?_
    intro n hn
    obtain ⟨file, hfile, rfl⟩ := List.mem_map.mp hn
    exact Text.Utf8.surplus_eq_zero (hascii file (by simp [hfile]))
  rw [Ceiling.fits_iff, hsize, hphp, hfiles]
  exact hlength

/-- A host with an empty directory, on which a line may have less than 112 bytes. -/
def narrowHost : Host Unit where
  platform := .posix
  environment := []
  helper := ""
  tree _ := {}
  probe _ s := (.ok { stdout := some "2160" }, s)
  list _ s := (.ok [], s)
  launch _ s := ({ result := .ok {} }, s)

/-- Two files whose names have five letters of two bytes each. -/
def accentedOptions : Options where
  directory := ⟨.root, []⟩
  included := ["ééééé.php", "èèèèè.php"]
  excluded := []
  failOnWarnings := false
  supportDuplicatedNames := false
  debug := false
  php := "php"
  timeout := none

def accentedInvocation : Invocation :=
  lineInvocation accentedOptions ((lintPacking "php" 112).line accentedOptions.included)

theorem accentedInvocation_launched : Event.launch accentedInvocation ∈
    (runBatch narrowHost 4 accentedOptions "php" true {} ()).events := by decide +kernel

theorem fits_iff_of_launch_accented :
    Event.launch accentedInvocation ∈
        (runBatch narrowHost 4 accentedOptions "php" true {} ()).events ∧
      ∃ line files, accentedInvocation.command = .shell line ∧
        CommandLine.operands? line = some files ∧
        (2 ≤ files.length →
          (line.length : Int) < (ceilingOf narrowHost ()).length ∧
          ((ceilingOf narrowHost ()).Fits line ↔
            ((line.length + surplus "php" + (files.map surplus).sum : Nat) : Int) <
              (ceilingOf narrowHost ()).length) ∧
          ((∀ text ∈ "php" :: files, ∀ c ∈ text.toList, c.toNat < 128) →
            (ceilingOf narrowHost ()).Fits line)) :=
  ⟨accentedInvocation_launched, fits_iff_of_launch rfl accentedInvocation_launched⟩

/-- The line of these two files has 104 characters but 114 bytes. -/
theorem accented_line_not_fits :
    ∃ invocation line files, Event.launch invocation ∈
        (runBatch narrowHost 4 accentedOptions "php" true {} ()).events ∧
      invocation.command = .shell line ∧ CommandLine.operands? line = some files ∧
      2 ≤ files.length ∧ ¬(ceilingOf narrowHost ()).Fits line := by
  refine ⟨accentedInvocation, _, accentedOptions.included, accentedInvocation_launched, rfl,
    CommandLine.operands?_render "php" 112 _, by decide, ?_⟩
  rw [Ceiling.fits_iff]
  decide +kernel

end Check

end LintRun
