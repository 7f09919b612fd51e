import LintRun.Shell.Grammar

/-!
# Readers, run on a text

What the small readers of the grammar give for a text and leave of it, and when a reader that goes
on with another succeeds.
-/

namespace LintRun.Shell

namespace Reader

variable {α β : Type} {setting : Setting} {text rest : List Char}

-- ---------------------------------------------------------------------------
-- One after the other
-- ---------------------------------------------------------------------------

theorem pure_run (a : α) : (pure a : Reader α) setting text = .ok (a, text) := rfl

theorem bind_run (reader : Reader α) (next : α → Reader β) :
    (reader >>= next) setting text =
      (reader setting text).bind fun result => next result.1 setting result.2 := rfl

theorem bind_of_ok {reader : Reader α} {a : α} (h : reader setting text = .ok (a, rest))
    (next : α → Reader β) : (reader >>= next) setting text = next a setting rest := by
  rw [bind_run, h]
  rfl

theorem bind_ok {reader : Reader α} {next : α → Reader β} {b : β} :
    (reader >>= next) setting text = .ok (b, rest) ↔
      ∃ a middle, reader setting text = .ok (a, middle) ∧
        next a setting middle = .ok (b, rest) := by
  rw [bind_run]
  cases reader setting text with
  | error fault => simp [Except.bind]
  | ok result =>
    constructor
    · exact fun h => ⟨_, _, rfl, h⟩
    · rintro ⟨a, middle, hresult, h⟩
      cases hresult
      exact h

-- ---------------------------------------------------------------------------
-- Small readers
-- ---------------------------------------------------------------------------

theorem look_run : look setting text = .ok (text, text) := rfl

theorem get_run : (get : Reader (List Char)) setting text = .ok (text, text) := rfl

theorem drop_run (count : Nat) : drop count setting text = .ok ((), text.drop count) := rfl

theorem separators_run : separators setting text = .ok ((), skipSeparators text) := rfl

theorem takeRun_run (p : Char → Bool) :
    takeRun p setting text = .ok (String.ofList (text.takeWhile p), text.dropWhile p) := rfl

theorem accept_run (word : String) :
    accept word setting text =
      .ok (if word.toList.isPrefixOf text then (true, text.drop word.length)
        else (false, text)) := by
  rw [accept, bind_of_ok get_run]
  split <;> rfl

theorem acceptWord_run (word : String) :
    acceptWord word setting text =
      .ok (if bareWord? (skipSeparators text) = some word then
          (true, (skipSeparators text).drop word.length)
        else (false, skipSeparators text)) := by
  rw [acceptWord, bind_of_ok separators_run, bind_of_ok get_run]
  split <;> rfl

end Reader

theorem nextScript_eq (source : List Char) {text : List Char}
    (hlines : Reader.skipLines text = text) :
    nextScript source text =
      (lineCommands (8 * text.length + 16) (8 * text.length + 16) ⟨source, 0⟩ text).map
        fun result => (.sequence result.1, result.2) := by
  rw [nextScript, hlines]
  rfl

end LintRun.Shell
