import LintRun.Check
import LintRun.Proofs.CommandLine
import LintRun.Proofs.FieldLaws
import LintRun.Proofs.Shell.ReservedWords
import LintRun.Proofs.Shell.SimpleCommands

/-!
# The program that a line runs

A shell reads a line of a batch as a simple command with the interpreter as its name, which is the
program that is asked for its version, unless the interpreter looks like a reserved word or an
assignment. Quoting leaves such a text as it is, and no line of it is such a command.
-/

namespace LintRun

namespace Shell

/-- A shell reads a whole line as one simple command without assignments and redirections, whose
words it expands to `fields`. -/
def ReadsAs (line : String) (fields : List String) : Prop :=
  ∃ number words,
    nextScript line.toList line.toList = .ok (.sequence [.simple number [] words []], []) ∧
    Machine.Exec.Settles (Machine.Interpreter.expandWords words) fields

/-- The text is written without quotes, but in front of a line it is no command's name. -/
def IsTaken (text : String) : Prop :=
  StaysBare text.toList ∧
    (text ∈ reservedWords ∨
      ∃ name value : String, isName name.toList = true ∧ text = name ++ "=" ++ value)

open Reader (assigned? assigned?_quotePosix apart_tokens)

theorem assigned?_eq_none {text : String} {texts : List String} (h : ¬IsTaken text) :
    assigned? (quotePosix text.toList ++ tokens texts) = none := by
  rw [Option.eq_none_iff_forall_ne_some]
  intro name hname
  obtain ⟨hbare, hisName, value, htext⟩ := (assigned?_quotePosix _ (apart_tokens texts)).mp hname
  refine h ⟨hbare, .inr ⟨name, String.ofList value, hisName, ?_⟩⟩
  rw [← String.toList_inj, htext]
  simp

/-- A line of quoted texts is a command with the first text as its name, unless that is taken. -/
theorem readsAs_line {line text : String} {texts : List String}
    (hline : line.toList = quotePosix text.toList ++ tokens texts) (h : ¬IsTaken text) :
    ReadsAs line (text :: texts) := by
  have hstarts : Reader.StartsSimple line.toList := by
    rw [hline]
    exact Reader.startsSimple_line fun hreserved => h ⟨hreserved.1, .inl hreserved.2⟩
  let number := Setting.line ⟨line.toList, 0⟩ line.toList.length
  obtain ⟨words, hwords, hsimple⟩ := Reader.simple_line ⟨line.toList, 0⟩ number text texts
    (assigned?_eq_none h) (show _ ≤ 8 * line.toList.length + 13 by rw [hline]; omega)
  rw [← hline] at hsimple
  exact ⟨number, words, nextScript_simple hstarts hsimple,
    Machine.Interpreter.expandWords_stands hwords⟩

section
variable {line text : String} {fields : List String}

theorem not_readsAs_reserved {texts : List String}
    (hline : line.toList = quotePosix text.toList ++ tokens texts)
    (hbare : StaysBare text.toList) (hreserved : text ∈ reservedWords) : ¬ReadsAs line fields := by
  rintro ⟨number, words, hscript, -⟩
  have hword : Reader.bareWord? line.toList = some text := by
    rw [hline, Reader.bareWord?_quotePosix _ (apart_tokens texts)]
    exact ⟨hbare, String.ofList_toList.symm⟩
  have hlines : Reader.skipLines line.toList = line.toList := by
    rw [hline, Reader.skipLines_quotePosix]
  have hskip : Reader.skipSeparators line.toList = line.toList := by
    rw [hline, Reader.skipSeparators_quotePosix]
  have hnever := nextScript_ne_simple hlines hskip hword hreserved hscript
  cases hnever

theorem not_readsAs_assignment {first : String} {texts : List String}
    (hline : line.toList = quotePosix text.toList ++ tokens (first :: texts))
    (hbare : StaysBare text.toList) (hreserved : text ∉ reservedWords) {name value : String}
    (hname : isName name.toList = true) (htext : text = name ++ "=" ++ value)
    (hfirst : ¬IsTaken first) : ¬ReadsAs line fields := by
  rintro ⟨number, words, hscript, -⟩
  have hassigned : assigned? (quotePosix text.toList ++ tokens (first :: texts)) = some name := by
    rw [assigned?_quotePosix _ (apart_tokens _)]
    exact ⟨hbare, hname, value.toList, by simp [htext]⟩
  have hstarts : Reader.StartsSimple line.toList := by
    rw [hline]
    exact Reader.startsSimple_line fun h => hreserved h.2
  let start := Setting.line ⟨line.toList, 0⟩ line.toList.length
  obtain ⟨assigned, others, -, hsimple⟩ := Reader.simple_assignment ⟨line.toList, 0⟩ start texts
    hassigned (assigned?_eq_none hfirst)
    (show _ ≤ 8 * line.toList.length + 13 by rw [hline]; omega)
  rw [← hline] at hsimple
  rw [nextScript_simple hstarts hsimple] at hscript
  simp at hscript

end

theorem exists_readsAs_iff {line text first : String} {texts : List String}
    (hline : line.toList = quotePosix text.toList ++ tokens (first :: texts))
    (hfirst : ¬IsTaken first) : (∃ fields, ReadsAs line fields) ↔ ¬IsTaken text := by
  constructor
  · rintro ⟨fields, hreads⟩ ⟨hbare, hused⟩
    by_cases hreserved : text ∈ reservedWords
    · exact not_readsAs_reserved hline hbare hreserved hreads
    · obtain ⟨name, value, hname, htext⟩ := hused.resolve_left hreserved
      exact not_readsAs_assignment hline hbare hreserved hname htext hfirst hreads
  · exact fun h => ⟨_, readsAs_line hline h⟩

end Shell

open Shell (IsTaken ReadsAs lintOptions)

theorem CommandLine.toList_render_tokens (php : String) (limit : Int) (files : List String) :
    ((lintPacking php limit).render files).toList =
      Shell.quotePosix php.toList ++ Shell.tokens (lintOptions ++ files) :=
  toList_render php limit files

theorem not_isTaken_dash : ¬IsTaken "-n" := by
  rintro ⟨-, hreserved | ⟨name, value, -, htext⟩⟩
  · revert hreserved
    decide
  · have hmem : '=' ∈ "-n".toList := by
      rw [htext]
      simp
    revert hmem
    decide

variable {σ : Type}

/-- A line of a batch is a command with the interpreter as its name, which is the program that is
asked for its version and that runs the helper script, exactly if the name is not taken. -/
theorem batch_runs_probed_iff (host : Host σ) (options : Options) (flags : List String)
    (php : String) (limit : Int) (files : List String) :
    let line := (lintPacking php limit).render files
    ((∃ fields, ReadsAs line fields) ↔ ¬IsTaken php) ∧
      (¬IsTaken php → ReadsAs line (php :: lintOptions ++ files)) ∧
      (Probe.versionCommand php).head? = some php ∧
      ∃ arguments, (Check.helperInvocation host options php flags).command =
        .exec (php :: arguments) := by
  intro line
  have hline := CommandLine.toList_render_tokens php limit files
  exact ⟨Shell.exists_readsAs_iff hline not_isTaken_dash, Shell.readsAs_line hline, rfl, _, rfl⟩

/-- What may be given as the interpreter and is probed as such: on a line of its own the first is
the start of a conditional that has no end, the second an assignment in front of a command `-n`. -/
theorem taken_interpreters :
    (∀ php ∈ ["if", "php=8.3/php"], Options.phpError? php = none ∧ Text.trim php = php ∧
      '\x00' ∉ php.toList ∧ (Probe.versionCommand php).head? = some php ∧
      ¬∃ fields, ReadsAs ((lintPacking php 4096).render ["a.php"]) fields) ∧
    ∃ fault, Shell.nextScript ((lintPacking "if" 4096).render ["a.php"]).toList
        ((lintPacking "if" 4096).render ["a.php"]).toList = .error fault ∧
      fault.message = "Syntax error: end of file unexpected (expecting \"then\")" := by
  have hif : IsTaken "if" := ⟨⟨by decide, List.all_eq_true.mp rfl⟩, .inl (by decide)⟩
  have hassignment : IsTaken "php=8.3/php" :=
    ⟨⟨by decide, List.all_eq_true.mp rfl⟩, .inr ⟨"php", "8.3/php", rfl, rfl⟩⟩
  refine ⟨fun php hphp => ?_, ⟨_, 1⟩, rfl, rfl⟩
  have hnone : IsTaken php → ¬∃ fields, ReadsAs ((lintPacking php 4096).render ["a.php"]) fields :=
    fun htaken hfields =>
      (Shell.exists_readsAs_iff (CommandLine.toList_render_tokens php 4096 ["a.php"])
        not_isTaken_dash).mp hfields htaken
  simp only [List.mem_cons, List.not_mem_nil, or_false] at hphp
  rcases hphp with rfl | rfl
  · exact ⟨by decide, by decide, by decide, rfl, hnone hif⟩
  · exact ⟨by decide, by decide, by decide, rfl, hnone hassignment⟩

end LintRun
