import LintRun.Proofs.Shell.ReaderLaws

/-!
# Lines that start with a reserved word

A reserved word in front starts a compound command or is refused, so that no simple command is read
from such a line.
-/

namespace LintRun.Shell

def Script.isSimple : Script → Bool
  | .simple .. => true
  | _ => false

-- ---------------------------------------------------------------------------
-- What readers give
-- ---------------------------------------------------------------------------

namespace Reader

variable {α β : Type} {setting : Setting} {text : List Char} {P : α → Prop} {Q : β → Prop}

/-- Whatever a reader gives for a text meets `P`. -/
def Gives (reader : Reader α) (setting : Setting) (text : List Char) (P : α → Prop) : Prop :=
  ∀ a rest, reader setting text = .ok (a, rest) → P a

theorem Gives.pure {a : α} (h : P a) : Gives (pure a) setting text P := by
  rintro _ _ ⟨⟩
  exact h

theorem Gives.fail (message : String) : Gives (fail message) setting text P :=
  nofun

theorem Gives.bind {reader : Reader α} {next : α → Reader β} (h : Gives reader setting text P)
    (hnext : ∀ a, P a → ∀ setting middle, Gives (next a) setting middle Q) :
    Gives (reader >>= next) setting text Q := by
  intro b rest hb
  obtain ⟨a, middle, ha, hb⟩ := bind_ok.mp hb
  exact hnext a (h a middle ha) setting middle b rest hb

/-- What comes before is of no account. -/
theorem Gives.seq {reader : Reader α} {next : α → Reader β}
    (hnext : ∀ a setting middle, Gives (next a) setting middle Q) :
    Gives (reader >>= next) setting text Q :=
  Gives.bind (P := fun _ => True) (fun _ _ _ => trivial) fun a _ => hnext a

theorem Gives.after {reader : Reader α} {next : α → Reader β} {a : α} {middle : List Char}
    (h : reader setting text = .ok (a, middle)) (hnext : Gives (next a) setting middle Q) :
    Gives (reader >>= next) setting text Q := by
  unfold Gives
  rw [bind_of_ok h]
  exact hnext

theorem accept_gives (other : String) {next : Bool → Reader α}
    (haccepted : ∀ setting text, Gives (next true) setting text P)
    (hrejected : Gives (next false) setting text P) :
    Gives (accept other >>= next) setting text P := by
  by_cases h : other.toList.isPrefixOf text
  · exact Gives.after (by rw [accept_run, if_pos h]) (haccepted _ _)
  · exact Gives.after (by rw [accept_run, if_neg h]) hrejected

theorem acceptWord_gives (other : String) {next : Bool → Reader α}
    (hskip : skipSeparators text = text)
    (haccepted : ∀ setting text, Gives (next true) setting text P)
    (hrejected : Gives (next false) setting text P) :
    Gives (acceptWord other >>= next) setting text P := by
  by_cases h : bareWord? text = some other
  · exact Gives.after (by rw [acceptWord_run, hskip, if_pos h]) (haccepted _ _)
  · exact Gives.after (by rw [acceptWord_run, hskip, if_neg h]) hrejected

theorem unexpected_gives (wanted : Option String) :
    Gives (unexpected wanted) setting text P :=
  nofun

-- ---------------------------------------------------------------------------
-- Commands
-- ---------------------------------------------------------------------------

theorem withRedirections_not_simple {body : Script} (h : body.isSimple = false) (fuel : Nat) :
    ∀ setting text, Gives (withRedirections body fuel) setting text (·.isSimple = false) := by
  intro setting text
  cases fuel with
  | zero => exact Gives.fail _
  | succ fuel =>
    rw [withRedirections]
    refine Gives.seq fun redirections _ _ => Gives.pure ?_
    split
    · exact h
    · rfl

theorem conditional_not_simple (fuel : Nat) :
    ∀ setting text, Gives (conditional fuel) setting text (·.isSimple = false) := by
  intro setting text
  cases fuel with
  | zero => exact Gives.fail _
  | succ fuel =>
    rw [conditional]
    repeat' first | exact Gives.pure rfl | refine Gives.seq fun _ _ _ => ?_ | split

theorem loop_not_simple (untilSuccess : Bool) (fuel : Nat) :
    ∀ setting text, Gives (loop untilSuccess fuel) setting text (·.isSimple = false) := by
  intro setting text
  cases fuel with
  | zero => exact Gives.fail _
  | succ fuel =>
    rw [loop]
    repeat' first | exact Gives.pure rfl | refine Gives.seq fun _ _ _ => ?_

theorem each_not_simple (fuel : Nat) :
    ∀ setting text, Gives (each fuel) setting text (·.isSimple = false) := by
  intro setting text
  cases fuel with
  | zero => exact Gives.fail _
  | succ fuel =>
    rw [each]
    dsimp only
    repeat' first | exact Gives.pure rfl | refine Gives.seq fun _ _ _ => ?_ | split

theorem andOrAfter_not_simple {first : Script} (hfirst : first.isSimple = false) (fuel : Nat) :
    ∀ setting text, Gives (andOrAfter first fuel) setting text (·.isSimple = false) := by
  induction fuel generalizing first with
  | zero => exact fun _ _ => Gives.fail _
  | succ fuel ih =>
    intro setting text
    rw [andOrAfter]
    refine Gives.seq fun _ _ _ => Gives.seq fun both _ _ => ?_
    split
    · exact Gives.seq fun _ _ _ => Gives.seq fun _ => ih rfl
    · refine Gives.seq fun either _ _ => ?_
      split
      · exact Gives.seq fun _ _ _ => Gives.seq fun _ => ih rfl
      · exact Gives.pure hfirst

section
variable {word : String} (hskip : skipSeparators text = text) (hbare : bareWord? text = some word)
  (hreserved : word ∈ reservedWords)

include hskip hbare hreserved

/-- What starts with a reserved word is no simple command. -/
theorem command_not_simple (fuel : Nat) :
    Gives (command fuel) setting text (·.isSimple = false) := by
  cases fuel with
  | zero => exact Gives.fail _
  | succ fuel =>
    rw [command]
    refine Gives.after separators_run ?_
    rw [hskip]
    refine accept_gives "(" (fun _ _ => ?_) ?_
    · exact Gives.seq fun _ _ _ => Gives.seq fun _ _ _ => withRedirections_not_simple rfl _ _ _
    refine acceptWord_gives openBrace hskip (fun _ _ => ?_) ?_
    · exact Gives.seq fun _ _ _ => Gives.seq fun _ _ _ => withRedirections_not_simple rfl _ _ _
    refine acceptWord_gives "if" hskip (fun _ _ => ?_) ?_
    · exact Gives.bind (conditional_not_simple fuel _ _) fun _ h => withRedirections_not_simple h _
    refine acceptWord_gives "while" hskip (fun _ _ => ?_) ?_
    · exact Gives.bind (loop_not_simple false fuel _ _) fun _ h => withRedirections_not_simple h _
    refine acceptWord_gives "until" hskip (fun _ _ => ?_) ?_
    · exact Gives.bind (loop_not_simple true fuel _ _) fun _ h => withRedirections_not_simple h _
    refine acceptWord_gives "for" hskip (fun _ _ => ?_) ?_
    · exact Gives.bind (each_not_simple fuel _ _) fun _ h => withRedirections_not_simple h _
    refine acceptWord_gives "case" hskip (fun _ _ => ?_) ?_
    · dsimp only [if_true]
      repeat' first
        | exact withRedirections_not_simple rfl _ _ _
        | refine Gives.seq fun _ _ _ => ?_
        | split
    refine Gives.after look_run ?_
    dsimp only [Bool.false_eq_true, if_false]
    split
    · repeat' first | exact Gives.pure rfl | refine Gives.seq fun _ _ _ => ?_ | split
    · have hany : (bareWord? text).any reservedWords.contains = true := by
        rw [hbare]
        exact List.contains_iff_mem.mpr hreserved
      rw [hany]
      exact Gives.bind (P := fun _ => False) (unexpected_gives none) nofun

theorem pipeline_not_simple (fuel : Nat) :
    Gives (pipeline fuel) setting text (·.isSimple = false) := by
  cases fuel with
  | zero => exact Gives.fail _
  | succ fuel =>
    rw [pipeline]
    refine acceptWord_gives "!" hskip (fun _ _ => ?_) ?_
    · exact Gives.seq fun _ _ _ => Gives.seq fun _ _ _ => Gives.pure rfl
    · refine Gives.bind (command_not_simple hskip hbare hreserved fuel) fun first hfirst _ _ => ?_
      refine Gives.seq fun rest _ _ => Gives.pure ?_
      rw [if_neg Bool.false_ne_true]
      split
      · exact hfirst
      · rfl

theorem andOr_not_simple (fuel : Nat) :
    Gives (andOr fuel) setting text (·.isSimple = false) := by
  cases fuel with
  | zero => exact Gives.fail _
  | succ fuel =>
    rw [andOr]
    exact Gives.bind (pipeline_not_simple hskip hbare hreserved fuel) fun _ h =>
      andOrAfter_not_simple h fuel

end

end Reader

open Reader (Gives)

theorem lineCommands_not_simple (setting : Setting) {text : List Char} {word : String}
    (hskip : Reader.skipSeparators text = text) (hbare : Reader.bareWord? text = some word)
    (hreserved : word ∈ reservedWords) (fuel count : Nat) :
    Gives (lineCommands fuel count) setting text fun parts =>
      ∀ script, parts = [script] → script.isSimple = false := by
  cases count with
  | zero => exact Gives.fail _
  | succ count =>
    rw [lineCommands]
    refine Gives.after Reader.separators_run ?_
    rw [hskip]
    refine Gives.after Reader.get_run ?_
    split
    · exact Gives.pure nofun
    · exact Gives.seq fun _ _ _ => Gives.pure nofun
    · refine Gives.bind (Reader.andOr_not_simple hskip hbare hreserved fuel)
        fun first hfirst _ _ => ?_
      refine Gives.seq fun _ _ _ => Gives.seq fun after _ _ => ?_
      split
      · exact Reader.unexpected_gives none
      · refine Gives.seq fun _ _ _ => Gives.seq fun more _ _ => Gives.pure ?_
        rintro _ ⟨⟩
        exact hfirst
      · refine Gives.seq fun _ _ _ => Gives.seq fun more _ _ => Gives.pure ?_
        rintro _ ⟨⟩
        rfl
      · refine Gives.seq fun _ _ _ => Gives.pure ?_
        rintro _ ⟨⟩
        exact hfirst
      · refine Gives.pure ?_
        rintro _ ⟨⟩
        exact hfirst
      · exact Reader.unexpected_gives none

/-- A line that starts with a reserved word is not read as a simple command. -/
theorem nextScript_ne_simple {source text rest : List Char} {word : String} {script : Script}
    (hlines : Reader.skipLines text = text) (hskip : Reader.skipSeparators text = text)
    (hbare : Reader.bareWord? text = some word) (hreserved : word ∈ reservedWords)
    (hscript : nextScript source text = .ok (.sequence [script], rest)) :
    script.isSimple = false := by
  have hgives := lineCommands_not_simple ⟨source, 0⟩ hskip hbare hreserved (8 * text.length + 16)
    (8 * text.length + 16)
  rw [nextScript_eq source hlines] at hscript
  cases hparts : lineCommands (8 * text.length + 16) (8 * text.length + 16) ⟨source, 0⟩ text with
  | error fault =>
    rw [hparts] at hscript
    cases hscript
  | ok result =>
    obtain ⟨parts, after⟩ := result
    rw [hparts] at hscript
    cases hscript
    exact hgives _ _ hparts script rfl

end LintRun.Shell
