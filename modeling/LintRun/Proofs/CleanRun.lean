import LintRun.Proofs.CliLaws
import LintRun.Proofs.Coverage
import LintRun.Proofs.VerdictLaws

/-!
# A clean run has checked every file

The severity of a verdict is at least that of every outcome folded into it, so that no command that
finished with a complaint is left behind by an exit status of zero. With the walk, which comes to
every file, and the lines, from which a shell reads every file, no file is missing from a run that
is reported as clean.
-/

namespace LintRun

-- ---------------------------------------------------------------------------
-- Outcomes
-- ---------------------------------------------------------------------------

/-- The severity of the worst outcome that is no failure. -/
def Outcome.tolerated (failOnWarnings : Bool) : Nat :=
  if failOnWarnings then 0 else 1

/-- The command has exited with zero in time, and without a warning if warnings are failures. -/
structure InvocationResult.IsClean (result : InvocationResult) (failOnWarnings : Bool) : Prop where
  exitCode_eq : result.exitCode = some 0
  timedOut_eq : result.timedOut = false
  stderrSize_eq : failOnWarnings = true → result.stderrSize = 0

theorem InvocationResult.isClean_iff {result : InvocationResult} {failOnWarnings : Bool} :
    result.IsClean failOnWarnings ↔
      result.outcome.severity ≤ Outcome.tolerated failOnWarnings := by
  unfold outcome Outcome.classify
  constructor
  · rintro ⟨hexit, htime, hstderr⟩
    cases failOnWarnings with
    | true => simp [hexit, htime, hstderr rfl, Outcome.severity]
    | false =>
      simp only [hexit, htime, bne_self_eq_false, Bool.or_self, Bool.false_eq_true, if_false]
      split <;> decide
  · intro h
    by_cases hbad : (result.timedOut || result.exitCode != some 0) = true
    · rw [if_pos hbad] at h
      cases failOnWarnings <;> exact absurd h (by decide)
    · simp only [Bool.or_eq_true, bne_iff_ne, not_or, Bool.not_eq_true, not_not] at hbad
      refine ⟨hbad.2, hbad.1, ?_⟩
      rintro rfl
      by_cases hstderr : 0 < result.stderrSize
      · simp [hbad, hstderr, Outcome.severity, Outcome.tolerated] at h
      · omega

namespace Verdict

theorem exitStatus_eq_zero_iff {verdict : Verdict} {failOnWarnings : Bool} :
    verdict.exitStatus failOnWarnings = 0 ↔
      verdict.outcome.severity ≤ Outcome.tolerated failOnWarnings := by
  unfold exitStatus
  cases verdict.outcome <;> cases failOnWarnings <;> decide

end Verdict

-- ---------------------------------------------------------------------------
-- Batch runs
-- ---------------------------------------------------------------------------

namespace Check

variable {σ : Type} {host : Host σ} {s : σ} {options : Options} {packing : Packing}
  {tasks : List Walk.Task} {packer : Packer} {verdict out : Verdict} {events : List Event}

theorem BatchDone.isClean
    (h : BatchDone host options packing s tasks packer verdict events out)
    (hstatus : out.exitStatus options.failOnWarnings = 0) {invocation : Invocation}
    {result : InvocationResult} (hfinish : Event.finish invocation result ∈ events) :
    result.IsClean options.failOnWarnings := by
  rw [InvocationResult.isClean_iff]
  have hmem : result.outcome ∈ outcomes events :=
    List.mem_map.mpr ⟨(invocation, result), mem_finishes.mpr hfinish, rfl⟩
  have hle := (verdict.severity_le_foldAll (outcomes events)).2 _ hmem
  rw [← h.out_eq] at hle
  exact Nat.le_trans hle (Verdict.exitStatus_eq_zero_iff.mp hstatus)

theorem BatchDone.exists_finish
    (h : BatchDone host options packing s tasks packer verdict events out)
    {invocation : Invocation} (hlaunch : Event.launch invocation ∈ events) :
    ∃ result, Event.finish invocation result ∈ events := by
  have hmem := mem_launches.mpr hlaunch
  rw [← h.finishes_eq] at hmem
  obtain ⟨⟨_, result⟩, hfinish, rfl⟩ := List.mem_map.mp hmem
  exact ⟨result, mem_finishes.mp hfinish⟩

end Check

-- ---------------------------------------------------------------------------
-- The command
-- ---------------------------------------------------------------------------

namespace Cli

/-- If the command ends with status zero then every file that has to be checked is among the files
that a shell reads from a line which was launched, and however that line finished, it is clean. -/
theorem clean_check_covers {σ : Type} {host : Host σ} {s : σ} {fuel : Nat} {overrides : Overrides}
    {environment : Environment} {cwd : Path} {options : Options} {version : Version}
    {php : String} {manyFiles : Bool} {file : String} (hposix : host.platform = .posix)
    (hsteady : host.Steady s (check host fuel overrides environment cwd s).events)
    (hwell : (host.tree s).WellNamed)
    (hoptions : Options.resolve (host.tree s) overrides environment cwd = .ok options)
    (hversion : (host.version options.php s).result = .ok version)
    (hselect : Strategy.select version options.supportDuplicatedNames options.php =
      .batch php manyFiles)
    (hstatus : (check host fuel overrides environment cwd s).result = .ok 0)
    (hfile : Check.MustCheck (host.tree s) options file) :
    ∃ invocation line operands,
      Event.launch invocation ∈ (check host fuel overrides environment cwd s).events ∧
      invocation.command = .shell line ∧
      CommandLine.operands? line = some operands ∧ file ∈ operands ∧
      (∃ result,
        Event.finish invocation result ∈ (check host fuel overrides environment cwd s).events) ∧
      ∀ result,
        Event.finish invocation result ∈ (check host fuel overrides environment cwd s).events →
        result.IsClean options.failOnWarnings := by
  obtain ⟨joint, hjoint, hdone⟩ : ∃ joint : Verdict,
      joint.exitStatus options.failOnWarnings = 0 ∧ Check.RunDone host options php manyFiles s
        (check host fuel overrides environment cwd s).events joint := by
    rcases (check_triple hoptions hversion hselect).of_ok hstatus with
      ⟨joint, hjoint, hdone⟩ | ⟨hone, -⟩
    · exact ⟨joint, hjoint.symm, hdone⟩
    -- A run that broke off has status one.
    · cases hone
  have hprovided := (Check.mem_provisions_iff hsteady hwell hdone file).mpr hfile
  obtain ⟨line, hadmits, hmem, hlaunch⟩ := hdone.exists_launch hprovided
  exact ⟨Check.lineInvocation options line, line.text, line.files, hlaunch, rfl,
    Check.operands?_of_admits hposix hadmits, hmem, hdone.exists_finish hlaunch,
    fun result hfinish => hdone.isClean hjoint hfinish⟩

/-- In the sample a link below the directory is the only file that has to be checked. -/
theorem clean_check_covers_sample :
    ∃ invocation line operands,
      Event.launch invocation ∈
        (check sampleHost 4 sampleOverrides [] sampleDirectory sampleScript).events ∧
      invocation.command = .shell line ∧
      CommandLine.operands? line = some operands ∧ "b/c.php" ∈ operands ∧
      (∃ result, Event.finish invocation result ∈
        (check sampleHost 4 sampleOverrides [] sampleDirectory sampleScript).events) ∧
      ∀ result, Event.finish invocation result ∈
          (check sampleHost 4 sampleOverrides [] sampleDirectory sampleScript).events →
        result.IsClean false := by
  have hsteady : sampleHost.Steady sampleScript
      (check sampleHost 4 sampleOverrides [] sampleDirectory sampleScript).events :=
    Setting.steady _ rfl _
  have hwell : (sampleHost.tree sampleScript).WellNamed := sampleTree_wellNamed
  have hoptions : Options.resolve (sampleHost.tree sampleScript) sampleOverrides []
      sampleDirectory = .ok sampleOptions := by cbv
  have hbatch : (Check.runBatch sampleHost 4 sampleOptions "php" false {}
      (Check.batchState sampleHost sampleOptions sampleScript)).result =
      .ok ⟨.ok, 1, 0, 1⟩ := by cbv
  have hfind : (sampleHost.tree sampleScript).find sampleDirectory =
      .ok (.directory [("b", .directory [("c.php", .link "/nowhere")])]) := by cbv
  have hselects : (Check.walkOf sampleOptions).Selects
      (.directory [("b", .directory [("c.php", .link "/nowhere")])]) ["b", "c.php"] :=
    ⟨⟨.link "/nowhere", rfl, rfl⟩, ⟨"c.php", rfl, by decide⟩, by simp [Check.walkOf, sampleOptions]⟩
  have hrun := Check.run_result (sampleHost_version _) sampleOptions_select hbatch
  exact clean_check_covers rfl hsteady hwell hoptions (sampleHost_version _) sampleOptions_select
    (check_result hoptions hrun) (.inr ⟨_, _, hfind, hselects, by decide⟩)

end Cli

end LintRun
