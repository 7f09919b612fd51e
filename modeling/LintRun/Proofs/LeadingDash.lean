import LintRun.Proofs.CliLaws
import LintRun.Proofs.Coverage

/-!
# Files that look like options

The files of a line follow the interpreter's options as they are, and quoting does not keep the
interpreter from taking one that starts with a dash for an option. Neither the walk nor the lines
change a name, so a run keeps clear of such words exactly if no entry included by name starts with
a dash, and nothing selected below the directory is at or under a name that does.
-/

namespace LintRun

open LintRun.Path (joined)

/-- Whether the interpreter takes a word for an option. -/
def IsFlag (word : String) : Prop :=
  word.toList.head? = some '-'

instance (word : String) : Decidable (IsFlag word) :=
  inferInstanceAs (Decidable (_ = _))

theorem isFlag_joined {first : String} (hfirst : first ≠ "") (rest : List String) :
    IsFlag (joined (first :: rest)) ↔ IsFlag first := by
  unfold IsFlag
  rw [Path.toList_joined]
  cases hcs : first.toList with
  | nil => exact absurd (String.toList_eq_nil_iff.mp hcs) hfirst
  | cons c cs =>
    cases rest with
    | nil => simp [hcs]
    | cons second rest => simp [hcs, List.intercalate_cons_cons]

namespace Check

/-- None of the files that a shell reads from a launched line looks like an option. -/
def NoFlags (events : List Event) : Prop :=
  ∀ invocation line operands, Event.launch invocation ∈ events →
    invocation.command = .shell line → CommandLine.operands? line = some operands →
    ∀ operand ∈ operands, ¬IsFlag operand

/-- No entry included by name starts with a dash, nor does the first name on the way to anything
that is selected below the directory. -/
structure ClearNames (tree : Tree) (options : Options) : Prop where
  included : ∀ entry ∈ options.included, ¬IsFlag entry
  selected : ∀ root first rest, tree.find options.directory = .ok root →
    (walkOf options).Selects root (first :: rest) → ¬IsFlag first

theorem clearNames_iff {tree : Tree} (hwell : tree.WellNamed) {options : Options} :
    ClearNames tree options ↔ ∀ file, MustCheck tree options file → ¬IsFlag file := by
  have hflag : ∀ {root first rest}, tree.find options.directory = .ok root →
      (walkOf options).Selects root (first :: rest) →
      (IsFlag (joined (first :: rest)) ↔ IsFlag first) := by
    intro root first rest hfind hselects
    obtain ⟨node, hget, -⟩ := hselects.exists_node
    have hname := (hwell.of_find hfind).forall_isEntryName hget first List.mem_cons_self
    exact isFlag_joined hname.1 rest
  constructor
  · rintro ⟨hincluded, hselected⟩ file (hfile | ⟨root, names, hfind, hselects, rfl⟩)
    · exact hincluded file hfile
    · cases names with
      | nil => decide
      | cons first rest =>
        rw [hflag hfind hselects]
        exact hselected root first rest hfind hselects
  · intro h
    refine ⟨fun entry hentry => h entry (.inl hentry), fun root first rest hfind hselects => ?_⟩
    rw [← hflag hfind hselects]
    exact h _ (.inr ⟨root, first :: rest, hfind, hselects, rfl⟩)

section
variable {σ : Type} {host : Host σ} {s : σ} {options : Options} {version : Version} {php : String}
  {manyFiles : Bool} {fuel : Nat}

theorem mustCheck_of_operand {events : List Event} (hposix : host.platform = .posix)
    (hsteady : host.Steady s events) (hwell : (host.tree s).WellNamed)
    (h : RunSoFar host options php manyFiles s events) {invocation : Invocation} {line : String}
    {operands : List String} (hlaunch : Event.launch invocation ∈ events)
    (hcommand : invocation.command = .shell line)
    (hoperands : CommandLine.operands? line = some operands) :
    ∀ operand ∈ operands, MustCheck (host.tree s) options operand := by
  obtain ⟨found, hadmits, hprovided, rfl⟩ := h.exists_line hlaunch
  obtain rfl : found.text = line := by simpa [lineInvocation] using hcommand
  rw [operands?_of_admits hposix hadmits] at hoperands
  obtain rfl := Option.some.inj hoperands
  exact fun operand hoperand =>
    mustCheck_of_mem_provisions hsteady hwell h (hprovided operand hoperand)

theorem exists_operand_of_mustCheck {events : List Event} (hposix : host.platform = .posix)
    (hsteady : host.Steady s events) (hwell : (host.tree s).WellNamed) {out : Verdict}
    (h : RunDone host options php manyFiles s events out) {file : String}
    (hfile : MustCheck (host.tree s) options file) :
    ∃ invocation line operands, Event.launch invocation ∈ events ∧
      invocation.command = .shell line ∧ CommandLine.operands? line = some operands ∧
      file ∈ operands := by
  obtain ⟨line, hadmits, hmem, hlaunch⟩ :=
    h.exists_launch ((mem_provisions_iff hsteady hwell h file).mpr hfile)
  exact ⟨_, line.text, line.files, hlaunch, rfl, operands?_of_admits hposix hadmits, hmem⟩

/-- A run stays clear of options if all names do, and one that comes to a verdict only then. -/
theorem noFlags_iff (hposix : host.platform = .posix)
    (hsteady : host.Steady s (run host fuel options s).events) (hwell : (host.tree s).WellNamed)
    (hversion : (host.version options.php s).result = .ok version)
    (hselect : Strategy.select version options.supportDuplicatedNames options.php =
      .batch php manyFiles) :
    (ClearNames (host.tree s) options → NoFlags (run host fuel options s).events) ∧
    ∀ verdict, (run host fuel options s).result = .ok verdict →
      (NoFlags (run host fuel options s).events ↔ ClearNames (host.tree s) options) := by
  have hclear : ClearNames (host.tree s) options → NoFlags (run host fuel options s).events := by
    intro hnames invocation line operands hlaunch hcommand hoperands operand hoperand
    have hmust := mustCheck_of_operand hposix hsteady hwell (run_soFar fuel hversion hselect)
      hlaunch hcommand hoperands operand hoperand
    exact (clearNames_iff hwell).mp hnames operand hmust
  refine ⟨hclear, fun verdict hverdict => ⟨fun hflags => ?_, hclear⟩⟩
  obtain ⟨joint, -, hdone⟩ := (run_triple fuel hversion hselect).of_ok hverdict
  refine (clearNames_iff hwell).mpr fun file hfile => ?_
  obtain ⟨invocation, line, operands, hlaunch, hcommand, hoperands, hmem⟩ :=
    exists_operand_of_mustCheck hposix hsteady hwell hdone hfile
  exact hflags invocation line operands hlaunch hcommand hoperands file hmem

end

theorem noFlags_iff_sample :
    (ClearNames (sampleHost.tree sampleScript) sampleOptions →
      NoFlags (run sampleHost 4 sampleOptions sampleScript).events) ∧
    ∀ verdict, (run sampleHost 4 sampleOptions sampleScript).result = .ok verdict →
      (NoFlags (run sampleHost 4 sampleOptions sampleScript).events ↔
        ClearNames (sampleHost.tree sampleScript) sampleOptions) := by
  have hsteady : sampleHost.Steady sampleScript
      (run sampleHost 4 sampleOptions sampleScript).events := Setting.steady _ rfl _
  exact noFlags_iff rfl hsteady sampleTree_wellNamed (sampleHost_version _) sampleOptions_select

/-- The directory has a single file, whose name starts with a dash. -/
def dashScript : Script where
  tree := { root := .directory [("w", .directory [("-n.php", .file [] false)])] }

theorem dashScript_wellNamed : (sampleHost.tree dashScript).WellNamed := by
  refine Node.wellNamed_directory (by decide) (by decide) ?_
  rintro _ (⟨⟩ | ⟨_, ⟨⟩⟩)
  refine Node.wellNamed_directory (by decide) (by decide) ?_
  rintro _ (⟨⟩ | ⟨_, ⟨⟩⟩)
  exact Node.wellNamed_file [] false

/-- This file reaches the interpreter as an option. -/
theorem exists_flag_of_dash :
    ∃ invocation line operands operand,
      Event.launch invocation ∈ (run sampleHost 4 sampleOptions dashScript).events ∧
      invocation.command = .shell line ∧ CommandLine.operands? line = some operands ∧
      operand ∈ operands ∧ IsFlag operand := by
  have hbatch : (runBatch sampleHost 4 sampleOptions "php" false {}
      (batchState sampleHost sampleOptions dashScript)).result =
      .ok ⟨.ok, 1, 0, 1⟩ := by cbv
  have hfind : (sampleHost.tree dashScript).find sampleOptions.directory =
      .ok (.directory [("-n.php", .file [] false)]) := by cbv
  have hselects : (walkOf sampleOptions).Selects
      (.directory [("-n.php", .file [] false)]) ["-n.php"] :=
    ⟨⟨.file [] false, rfl, rfl⟩, ⟨"-n.php", rfl, by decide⟩, by simp [walkOf, sampleOptions]⟩
  have hrun := run_result (sampleHost_version _) sampleOptions_select hbatch
  obtain ⟨joint, -, hdone⟩ :=
    (run_triple 4 (sampleHost_version dashScript) sampleOptions_select).of_ok hrun
  obtain ⟨invocation, line, operands, hlaunch, hcommand, hoperands, hmem⟩ :=
    exists_operand_of_mustCheck rfl (Setting.steady _ rfl _) dashScript_wellNamed hdone
      (.inr ⟨_, _, hfind, hselects, rfl⟩)
  exact ⟨invocation, line, operands, _, hlaunch, hcommand, hoperands, hmem, by decide⟩

end Check

end LintRun
