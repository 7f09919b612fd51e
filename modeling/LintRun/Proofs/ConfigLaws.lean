import Mathlib
import LintRun.Failure
import LintRun.Proofs.Text.Utf8Laws

/-!
# Loading a configuration

A file gives the same table whether it was asked for or not. What gives none is reported if it was
asked for and else counts as empty, unless it is no text at all: then neither way has an answer
(`load_agrees`).
-/

namespace LintRun.Config

open Text (Bytes)
open Text.Utf8 (IsText)

-- ---------------------------------------------------------------------------
-- Documents
-- ---------------------------------------------------------------------------

/-- The bytes are a text, and the text is a document for the table. -/
def Describes (bytes : Bytes) (table : Table) : Prop :=
  ∃ text : List Char, bytes = text.flatMap Text.Utf8.encodeChar ∧
    Toml.parse? (Text.unifyNewlines text) = some table

theorem Describes.isText {bytes : Bytes} {table : Table} (h : Describes bytes table) :
    IsText bytes := by
  obtain ⟨text, htext, -⟩ := h
  exact ⟨text, htext⟩

/-- What bytes can be: a document, a text that is none, or no text. -/
theorem document_cases (bytes : Bytes) :
    (∃ table, document bytes = .ok table ∧ Describes bytes table) ∨
    (document bytes = .error .malformed ∧ IsText bytes ∧ ∀ table, ¬Describes bytes table) ∨
    (document bytes = .error .undecodable ∧ ¬IsText bytes) := by
  unfold document
  cases hdecoded : Text.Utf8.decode? bytes with
  | none => exact .inr (.inr ⟨rfl, Text.Utf8.decode?_eq_none_iff.mp hdecoded⟩)
  | some text =>
    have hbytes := Text.Utf8.decode?_eq_some_iff.mp hdecoded
    cases hparsed : Toml.parse? (Text.unifyNewlines text) with
    | some table => exact .inl ⟨table, by simp [hparsed], text, hbytes, hparsed⟩
    | none =>
      refine .inr (.inl ⟨by simp [hparsed], ⟨text, hbytes⟩, ?_⟩)
      rintro table ⟨other, hother, hdocument⟩
      obtain rfl := Text.Utf8.flatMap_encodeChar_inj (hbytes.symm.trans hother)
      rw [hparsed] at hdocument
      cases hdocument

theorem Describes.unique {bytes : Bytes} {table other : Table} (h : Describes bytes table)
    (hother : Describes bytes other) : table = other := by
  obtain ⟨text, htext, hparsed⟩ := h
  obtain ⟨text', htext', hparsed'⟩ := hother
  obtain rfl := Text.Utf8.flatMap_encodeChar_inj (htext.symm.trans htext')
  exact Option.some.inj (hparsed.symm.trans hparsed')

-- ---------------------------------------------------------------------------
-- The two ways to load a file
-- ---------------------------------------------------------------------------

section
variable {tree : Tree} {directory path : Path} (hpath : path.text.contains '\x00' = false)

include hpath

theorem reading_ok {bytes : Bytes} (h : tree.read path = .ok bytes) :
    reading tree path = .ok (.ok bytes) := by
  simp [reading, hpath, h]

theorem reading_error {e : Errno} (h : tree.read path = .error e) :
    reading tree path = .ok (.error (e.error (.name path.text))) := by
  simp [reading, hpath, h]

end

section
variable {tree asked : Tree} {directory cwd path : Path}
  (hname : (directory.child fileName).text.contains '\x00' = false)
  (hpath : path.text.contains '\x00' = false)
  (hsame : (tree.read (directory.child fileName)).toOption = (asked.read path).toOption)

include hname hpath hsame

/-- What becomes of a file in the directory, and of one with the same content that is asked for. -/
theorem load_cases :
    (∃ bytes table, asked.read path = .ok bytes ∧ Describes bytes table ∧
      load tree directory none = .ok table ∧ load asked cwd (some path) = .ok table) ∨
    (∃ failure, (∀ bytes, asked.read path = .ok bytes →
        IsText bytes ∧ ∀ table, ¬Describes bytes table) ∧
      (Failure.config failure).isReported = true ∧
      load tree directory none = .ok [] ∧ load asked cwd (some path) = .error failure) ∨
    (∃ bytes, asked.read path = .ok bytes ∧ ¬IsText bytes ∧
      load tree directory none = .error .undecodable ∧
      load asked cwd (some path) = .error .undecodable) := by
  cases hread : asked.read path with
  | error e =>
    obtain ⟨e', hread'⟩ : ∃ e', tree.read (directory.child fileName) = .error e' := by
      rw [hread] at hsame
      cases hread' : tree.read (directory.child fileName) with
      | ok => simp [hread', Except.toOption] at hsame
      | error e' => exact ⟨e', rfl⟩
    refine .inr (.inl ⟨.unreadable path (e.error (.name path.text)), by simp, rfl, ?_, ?_⟩)
    · simp [load, reading_error hname hread', Except.bind, implicit, ofReading]
    · simp [load, reading_error hpath hread, Except.bind, explicit, ofReading]
  | ok bytes =>
    have hread' : tree.read (directory.child fileName) = .ok bytes := by
      rw [hread] at hsame
      cases hread' : tree.read (directory.child fileName) with
      | ok => simpa [hread', Except.toOption] using hsame
      | error e' => simp [hread', Except.toOption] at hsame
    have himplicit : load tree directory none = implicit (.ok bytes) := by
      simp [load, reading_ok hname hread', Except.bind]
    have hexplicit : load asked cwd (some path) = explicit path (.ok bytes) := by
      simp [load, reading_ok hpath hread, Except.bind]
    rw [himplicit, hexplicit]
    rcases document_cases bytes with ⟨table, hdocument, htable⟩ | ⟨hdocument, htext, hnone⟩ |
      ⟨hdocument, htext⟩
    · exact .inl ⟨bytes, table, rfl, htable, by simp [implicit, ofReading, hdocument],
        by simp [explicit, ofReading, hdocument]⟩
    · refine .inr (.inl ⟨.malformed path, ?_, rfl, by simp [implicit, ofReading, hdocument],
        by simp [explicit, ofReading, hdocument]⟩)
      rintro _ ⟨⟩
      exact ⟨htext, hnone⟩
    · exact .inr (.inr ⟨bytes, rfl, htext, by simp [implicit, ofReading, hdocument],
        by simp [explicit, ofReading, hdocument]⟩)

end

/-- On any text, be it a document or not, and on what cannot be read the two ways to load a file
agree: the one that was not asked for always gives a table. Neither has an answer for what is no
text. -/
theorem load_agrees (tree asked : Tree) (directory cwd path : Path)
    (hname : (directory.child fileName).text.contains '\x00' = false)
    (hpath : path.text.contains '\x00' = false)
    (hsame : (tree.read (directory.child fileName)).toOption = (asked.read path).toOption) :
    ((∀ bytes, asked.read path = .ok bytes → IsText bytes) →
      (∃ table, load tree directory none = .ok table) ∧
      ((∃ table, load asked cwd (some path) = .ok table) ∨
        ∃ failure, load asked cwd (some path) = .error failure ∧
          (Failure.config failure).isReported = true) ∧
      (∀ table, load asked cwd (some path) = .ok table ↔
        ∃ bytes, asked.read path = .ok bytes ∧ Describes bytes table) ∧
      (∀ table, load asked cwd (some path) = .ok table →
        load tree directory none = .ok table) ∧
      ∀ failure, load asked cwd (some path) = .error failure →
        load tree directory none = .ok []) ∧
    ∀ bytes, asked.read path = .ok bytes → ¬IsText bytes →
      load tree directory none = .error .undecodable ∧
      load asked cwd (some path) = .error .undecodable := by
  rcases load_cases hname hpath hsame with
    ⟨bytes, table, hread, htable, himplicit, hexplicit⟩ |
    ⟨failure, hnone, hreported, himplicit, hexplicit⟩ |
    ⟨bytes, hread, htext, himplicit, hexplicit⟩
  · rw [himplicit, hexplicit, hread]
    refine ⟨fun _ => ⟨⟨table, rfl⟩, .inl ⟨table, rfl⟩, fun other => ?_, fun _ h => h, nofun⟩, ?_⟩
    · constructor
      · rintro ⟨⟩
        exact ⟨bytes, rfl, htable⟩
      · rintro ⟨_, ⟨⟩, hother⟩
        rw [htable.unique hother]
    · rintro _ ⟨⟩ htext
      exact absurd htable.isText htext
  · rw [himplicit, hexplicit]
    refine ⟨fun _ => ⟨⟨[], rfl⟩, .inr ⟨failure, rfl, hreported⟩, fun table => ?_, nofun,
      fun _ _ => rfl⟩, ?_⟩
    · constructor
      · rintro ⟨⟩
      · rintro ⟨bytes, hread, hdescribes⟩
        exact absurd hdescribes ((hnone bytes hread).2 table)
    · intro bytes hread htext
      exact absurd (hnone bytes hread).1 htext
  · refine ⟨fun hall => absurd (hall bytes hread) htext, fun _ _ _ => ⟨himplicit, hexplicit⟩⟩

/-- The bytes of `a=1`. -/
def shortContent : Bytes := [0x61, 0x3d, 0x31]

def shortTree : Tree where
  root := .directory [(fileName, .file shortContent false)]

theorem load_agrees_short :
    ∃ table, Describes shortContent table ∧ load shortTree ⟨.root, []⟩ none = .ok table ∧
      load shortTree ⟨.root, []⟩ (some ⟨.root, [fileName]⟩) = .ok table := by
  have hread : shortTree.read ⟨.root, [fileName]⟩ = .ok shortContent := by cbv
  have htext : ∀ bytes, shortTree.read ⟨.root, [fileName]⟩ = .ok bytes → IsText bytes := by
    intro bytes h
    obtain rfl := Except.ok.inj (hread.symm.trans h)
    exact ⟨['a', '=', '1'], by decide⟩
  have hdocument : Describes shortContent [("a", .int 1)] :=
    ⟨['a', '=', '1'], by decide, by cbv⟩
  obtain ⟨-, -, hiff, hsame, -⟩ := (load_agrees shortTree shortTree ⟨.root, []⟩ ⟨.root, []⟩
    ⟨.root, [fileName]⟩ (by cbv) (by cbv) rfl).1 htext
  have hasked := (hiff _).mpr ⟨_, hread, hdocument⟩
  exact ⟨_, hdocument, hsame _ hasked, hasked⟩

/-- A directory whose configuration file is a single byte that starts no character. -/
def binaryTree : Tree where
  root := .directory [("phpsyntax.toml", .file [0xff] false)]

theorem load_binary_fails :
    ¬∃ table, load binaryTree ⟨.root, []⟩ none = .ok table := by
  have hload : load binaryTree ⟨.root, []⟩ none = .error .undecodable := by cbv
  rw [hload]
  rintro ⟨table, ⟨⟩⟩

end LintRun.Config
