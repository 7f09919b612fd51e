import LintRun.Cli
import LintRun.Proofs.CheckLaws

/-!
# Laws of the program

What a whole run tells if the version of the interpreter asks for a batch run: around the events of
the batch there are only quiet ones (`run_amid`, `resolveAndRun_amid`). Either the program gives the
exit status of the verdict on all files, or it broke off and the exit status is one.
-/

namespace LintRun

open Run (Triple)

section
variable {σ : Type} {host : Host σ} {s : σ} {options : Options} {version : Version} {php : String}
  {manyFiles : Bool}

namespace Check

-- ---------------------------------------------------------------------------
-- The check
-- ---------------------------------------------------------------------------

/-- The state in which the batch begins: the version has been asked for. -/
def batchState (host : Host σ) (options : Options) (s : σ) : σ :=
  (host.probe (Probe.versionCommand options.php) s).2

/-- The events of a batch run over all files, however far it has come. -/
def RunSoFar (host : Host σ) (options : Options) (php : String) (manyFiles : Bool) (s : σ)
    (events : List Event) : Prop :=
  BatchSoFar host options (packingOf host php manyFiles (batchState host options s)) s
    (walkOf options).tasks {} events

/-- The events of a batch run over all files that has come to a verdict. -/
def RunDone (host : Host σ) (options : Options) (php : String) (manyFiles : Bool) (s : σ)
    (events : List Event) (out : Verdict) : Prop :=
  BatchDone host options (packingOf host php manyFiles (batchState host options s)) s
    (walkOf options).tasks {} {} events out

theorem run_amid {fuel : Nat} {P : List Event → Verdict → σ → Prop}
    {D : List Event → Failure → σ → Prop}
    (hversion : (host.version options.php s).result = .ok version)
    (hselect : Strategy.select version options.supportDuplicatedNames options.php =
      .batch php manyFiles)
    (hbatch : Triple (runBatch host fuel options php manyFiles {}) (batchState host options s)
      P D) :
    Triple (run host fuel options) s (host.Amid s (batchState host options s) P)
      (host.Amid s (batchState host options s) D) := by
  unfold run
  refine Triple.seq ((host.version_triple s options.php).known hversion) ?_
  rintro probed detected t ⟨rfl, hprobed, ht⟩
  refine Triple.seq (Run.echo_still _ _ t) ?_
  rintro told _ u ⟨htold, hu⟩
  simp only [hselect]
  have hbefore : Quiet (probed ++ told) := by
    rw [hprobed]
    exact (Quiet.singleton rfl).append htold.quiet
  have hstate : host.after s (probed ++ told) = u := by
    rw [host.after_append, ← ht, host.after_writing t htold, hu]
  have hbegin : host.after s (probed ++ told) = batchState host options s := by
    rw [host.after_append, host.after_writing _ htold, hprobed]
    rfl
  rw [← hstate, hbegin]
  refine Triple.bind hbatch ?_ ?_
  · rintro events out v hP
    refine Triple.seq (Run.echoAll_still _ v) ?_
    rintro summary _ _ ⟨hsummary, rfl⟩
    exact Triple.pure
      ⟨probed ++ told, events, summary, hbefore, hsummary.quiet, hbegin, by simp, hP⟩
  · rintro events e v hD
    exact ⟨probed ++ told, events, [], hbefore, Quiet.nil, hbegin, by simp, hD⟩

theorem run_triple (fuel : Nat) (hversion : (host.version options.php s).result = .ok version)
    (hselect : Strategy.select version options.supportDuplicatedNames options.php =
      .batch php manyFiles) :
    Triple (run host fuel options) s
      (fun events out _ => ∃ joint, out.outcome = joint.outcome ∧
        RunDone host options php manyFiles s events joint)
      fun events _ _ => RunSoFar host options php manyFiles s events := by
  refine (run_amid hversion hselect
    (runBatch_done host options fuel php manyFiles {} (batchState host options s))).mono ?_ ?_
  · rintro _ out t
      ⟨before, events, later, hbefore, hlater, hstate, rfl, joint, houtcome, hdone⟩
    exact ⟨joint, houtcome, BatchDone.surround hbefore hlater (by rwa [hstate])⟩
  · rintro _ e t ⟨before, events, later, hbefore, hlater, hstate, rfl, hsoFar⟩
    exact BatchSoFar.surround hbefore hlater (by rwa [hstate])

theorem run_soFar (fuel : Nat) (hversion : (host.version options.php s).result = .ok version)
    (hselect : Strategy.select version options.supportDuplicatedNames options.php =
      .batch php manyFiles) :
    RunSoFar host options php manyFiles s (run host fuel options s).events := by
  refine (run_triple fuel hversion hselect).events ?_ ?_
  · rintro events out t ⟨joint, -, hdone⟩
    exact hdone.soFar
  · rintro events e t hsoFar
    exact hsoFar

theorem run_result {fuel : Nat} {out : Verdict}
    (hversion : (host.version options.php s).result = .ok version)
    (hselect : Strategy.select version options.supportDuplicatedNames options.php =
      .batch php manyFiles)
    (hbatch : (runBatch host fuel options php manyFiles {} (batchState host options s)).result =
      .ok out) :
    (run host fuel options s).result = .ok out := by
  refine ((run_amid hversion hselect (Triple.of_result hbatch)).mono ?_ ?_).result_eq
  · rintro _ verdict t ⟨-, -, -, -, -, -, -, hverdict⟩
    exact hverdict
  · rintro _ e t ⟨-, -, -, -, -, -, -, hfalse⟩
    exact hfalse

end Check

-- ---------------------------------------------------------------------------
-- The command
-- ---------------------------------------------------------------------------

namespace Cli

theorem recover_triple {α : Type} {run : Run σ α} {handle : Failure → Run σ α}
    {P Q : List Event → α → σ → Prop} {D E : List Event → Failure → σ → Prop}
    (h : Triple run s P D) (hok : ∀ events a t, P events a t → Q events a t)
    (herror : ∀ events e t, D events e t →
      Triple (handle e) t (fun later => Q (events ++ later)) (fun later => E (events ++ later))) :
    Triple (recover run handle) s Q E := by
  cases hr : (run s).result with
  | ok a =>
    have hrun : recover run handle s = ⟨(run s).events, .ok a, (run s).state⟩ := by
      simp [recover, hr]
    simpa [Triple, hrun] using hok _ _ _ (h.of_ok hr)
  | error e =>
    have hrun : recover run handle s =
        ⟨(run s).events ++ (handle e (run s).state).events, (handle e (run s).state).result,
          (handle e (run s).state).state⟩ := by
      simp [recover, hr]
    simpa [Triple, hrun] using herror _ _ _ (h.of_error hr)

theorem report_triple (failure : Failure) (s : σ) :
    Triple (report failure) s (fun events status _ => Quiet events ∧ status = 1)
      fun events _ _ => Quiet events := by
  unfold report
  split
  · refine Triple.seq (Run.echo_still _ _ s) ?_
    rintro first _ t ⟨hfirst, rfl⟩
    refine Triple.seq (Run.echo_still _ _ t) ?_
    rintro second _ u ⟨hsecond, rfl⟩
    exact Triple.pure ⟨hfirst.quiet.append (hsecond.quiet.append Quiet.nil), rfl⟩
  · exact Triple.fail Quiet.nil

variable {fuel : Nat} {overrides : Overrides} {environment : Environment} {cwd : Path}

theorem resolveAndRun_amid {P : List Event → Verdict → σ → Prop}
    {D : List Event → Failure → σ → Prop}
    (hoptions : Options.resolve (host.tree s) overrides environment cwd = .ok options)
    (hrun : Triple (Check.run host fuel options) s P D) :
    Triple (resolveAndRun host fuel overrides environment cwd) s
      (fun events status t => ∃ out, status = out.exitStatus options.failOnWarnings ∧
        host.Amid s s P events out t)
      (host.Amid s s D) := by
  unfold resolveAndRun
  refine Triple.seq (P := fun events state t => events = [] ∧ state = s ∧ t = s)
    (Triple.read ⟨rfl, rfl, rfl⟩) ?_
  rintro _ state _ ⟨rfl, hstate, rfl⟩
  rw [hstate, hoptions]
  refine Triple.seq (P := fun events resolved t => events = [] ∧ resolved = options ∧ t = _)
    (Triple.lift_ok ⟨rfl, rfl, rfl⟩) ?_
  rintro _ resolved u ⟨rfl, hresolved, rfl⟩
  rw [hresolved]
  refine Triple.seq (Check.explain_still options _ u) ?_
  rintro told _ _ ⟨htold, rfl⟩
  refine Triple.bind hrun ?_ ?_
  · rintro events out v hP
    exact Triple.pure
      ⟨out, rfl, told, events, [], htold.quiet, Quiet.nil, host.after_writing _ htold, by simp, hP⟩
  · rintro events e v hD
    exact ⟨told, events, [], htold.quiet, Quiet.nil, host.after_writing _ htold, by simp, hD⟩

theorem check_triple
    (hoptions : Options.resolve (host.tree s) overrides environment cwd = .ok options)
    (hversion : (host.version options.php s).result = .ok version)
    (hselect : Strategy.select version options.supportDuplicatedNames options.php =
      .batch php manyFiles) :
    Triple (check host fuel overrides environment cwd) s
      (fun events status _ =>
        (∃ joint, status = joint.exitStatus options.failOnWarnings ∧
          Check.RunDone host options php manyFiles s events joint) ∨
        (status = 1 ∧ Check.RunSoFar host options php manyFiles s events))
      fun events _ _ => Check.RunSoFar host options php manyFiles s events := by
  refine recover_triple (resolveAndRun_amid hoptions (Check.run_triple fuel hversion hselect)) ?_ ?_
  · rintro _ status t
      ⟨out, rfl, before, events, later, hbefore, hlater, hbegin, rfl, joint, houtcome, hdone⟩
    refine .inl ⟨joint, by simp [Verdict.exitStatus, houtcome], ?_⟩
    exact Check.BatchDone.surround hbefore hlater (by rwa [hbegin])
  · rintro _ e t ⟨before, events, later, hbefore, hlater, hbegin, rfl, hsoFar⟩
    have hrun : Check.RunSoFar host options php manyFiles s (before ++ (events ++ later)) :=
      Check.BatchSoFar.surround hbefore hlater (by rwa [hbegin])
    refine (report_triple e t).mono ?_ ?_
    · rintro told status u ⟨htold, hstatus⟩
      exact .inr ⟨hstatus, Check.BatchSoFar.surround Quiet.nil htold hrun⟩
    · rintro told e u htold
      exact Check.BatchSoFar.surround Quiet.nil htold hrun

theorem check_result {out : Verdict}
    (hoptions : Options.resolve (host.tree s) overrides environment cwd = .ok options)
    (hrun : (Check.run host fuel options s).result = .ok out) :
    (check host fuel overrides environment cwd s).result =
      .ok (out.exitStatus options.failOnWarnings) := by
  refine (recover_triple (D := fun _ _ _ => False)
    ((resolveAndRun_amid hoptions (Triple.of_result hrun)).mono ?_ ?_)
    (fun _ _ _ h => h) fun _ _ _ h => h.elim).result_eq
  · rintro _ status t ⟨verdict, rfl, -, -, -, -, -, -, -, rfl⟩
    rfl
  · rintro _ e t ⟨-, -, -, -, -, -, -, hfalse⟩
    exact hfalse

end Cli

end

end LintRun
