import LintRun.Proofs.BatchRuns
import LintRun.Proofs.CliLaws
import LintRun.Proofs.Emission

/-!
# Failing fast

The events of a whole run, from the options to the exit status. Before anything is listed or
launched the options are there, the version of the interpreter is known and the ceiling of a command
line has been asked for, if it is needed. A run either comes to a verdict, whose summary is told
last, or it breaks off and reports the failure last (`check_failFast`). No other line of a run can
be taken for a line of a summary or for such a report.
-/

namespace LintRun

open Run (Triple)

-- ---------------------------------------------------------------------------
-- Lines
-- ---------------------------------------------------------------------------

/-- The texts that tell how a run ended: the lines of a summary, and the command that reports an
error. -/
inductive Concluding : String → Prop
  | summary {verdict : Verdict} {text : String} : text ∈ verdict.summary → Concluding text
  | command {message : String} : Concluding (WorkflowCommand.error message)

/-- Whether a text starts like one that tells how a run ended. -/
def opensConcluding : List Char → Bool
  | [] | ':' :: _ | 'N' :: _ | 'W' :: _ | 'E' :: 'R' :: _ => true
  | _ => false

theorem Concluding.opens {text : String} (h : Concluding text) :
    opensConcluding text.toList = true := by
  cases h with
  | @summary verdict text hmem =>
    simp only [Verdict.summary, List.mem_cons, List.not_mem_nil, or_false] at hmem
    rcases hmem with rfl | rfl | rfl | rfl
    · rfl
    · rw [String.toList_append]; rfl
    · rw [String.toList_append]; rfl
    · unfold Verdict.headline
      cases verdict.outcome <;> rfl
  | command => rw [WorkflowCommand.error, String.toList_append]; rfl

/-- The event does not tell how the run ended. -/
def Event.IsPlain (event : Event) : Prop :=
  ∀ text, event = .echo text .stdout → ¬Concluding text

theorem Event.isPlain_of_opens {text : String} (h : opensConcluding text.toList = false)
    (channel : Channel) : (Event.echo text channel).IsPlain := by
  rintro _ ⟨⟩ hconcluding
  rw [hconcluding.opens] at h
  cases h

theorem Event.isPlain_of_not_echo {event : Event} (h : event.isEcho = false) : event.IsPlain := by
  rintro text rfl
  cases h

/-- Lines are told, none of them about how the run ended. -/
def Told (events : List Event) : Prop :=
  ∀ event ∈ events, event.isEcho = true ∧ event.IsPlain

/-- Nothing is probed, and nothing is told about how the run ended. -/
def Event.IsWork (event : Event) : Prop :=
  event.isProbe = false ∧ event.IsPlain

theorem Told.append {events later : List Event} (h : Told events) (hlater : Told later) :
    Told (events ++ later) :=
  List.forall_mem_append.mpr ⟨h, hlater⟩

theorem told_singleton {text : String} (h : opensConcluding text.toList = false)
    (channel : Channel) : Told [.echo text channel] :=
  List.forall_mem_singleton.mpr ⟨rfl, Event.isPlain_of_opens h channel⟩

theorem Event.isWork_of_told {event : Event} (hecho : event.isEcho = true)
    (hplain : event.IsPlain) : event.IsWork := by
  refine ⟨?_, hplain⟩
  cases event with
  | echo => rfl
  | _ => cases hecho

theorem Event.isWork_of_not_echo {event : Event} (hecho : event.isEcho = false)
    (hprobe : event.isProbe = false) : event.IsWork :=
  ⟨hprobe, Event.isPlain_of_not_echo hecho⟩

-- ---------------------------------------------------------------------------
-- Work
-- ---------------------------------------------------------------------------

section
variable {σ : Type} (host : Host σ)

namespace Check

variable (options : Options)

theorem isWork_covers : Covers options Event.IsWork where
  list _ := Event.isWork_of_not_echo rfl rfl
  provide _ := Event.isWork_of_not_echo rfl rfl
  executing line := by
    refine Event.isWork_of_told rfl (Event.isPlain_of_opens ?_ _)
    rw [String.toList_append]
    rfl
  launch _ _ := Event.isWork_of_not_echo rfl rfl
  forward _ _ := Event.isWork_of_not_echo rfl rfl
  finish _ _ := Event.isWork_of_not_echo rfl rfl

-- ---------------------------------------------------------------------------
-- Strategies
-- ---------------------------------------------------------------------------

/-- The probe for the ceiling, which is needed where a line may have many files. Windows has a fixed
one. -/
def ceilingProbe : Platform → Strategy → List Event
  | .posix, .batch _ true => [.probe Probe.argMaxCommand]
  | _, _ => []

/-- The events of a check once the version is known: if the ceiling is asked for then once, and
before that and up to the work there are only lines that are told. -/
def Works (strategy : Strategy) (events : List Event) : Prop :=
  ∃ before after work, Told before ∧ Told after ∧ (∀ event ∈ work, event.IsWork) ∧
    events = before ++ (ceilingProbe host.platform strategy ++ (after ++ work))

theorem Works.told_append {strategy : Strategy} {told events : List Event} (htold : Told told)
    (h : Works host strategy events) : Works host strategy (told ++ events) := by
  obtain ⟨before, after, work, hbefore, hafter, hwork, rfl⟩ := h
  exact ⟨told ++ before, after, work, htold.append hbefore, hafter, hwork, by simp⟩

theorem ceilingProbe_isPlain (platform : Platform) (strategy : Strategy) :
    ∀ event ∈ ceilingProbe platform strategy, event.IsPlain := by
  intro event hevent
  unfold ceilingProbe at hevent
  split at hevent
  · rw [List.mem_singleton.mp hevent]
    exact Event.isPlain_of_not_echo rfl
  · cases hevent

theorem Works.isPlain {strategy : Strategy} {events : List Event}
    (h : Works host strategy events) : ∀ event ∈ events, event.IsPlain := by
  obtain ⟨before, after, work, hbefore, hafter, hwork, rfl⟩ := h
  intro event hevent
  simp only [List.mem_append] at hevent
  rcases hevent with hevent | hevent | hevent | hevent
  · exact (hbefore event hevent).2
  · exact ceilingProbe_isPlain _ strategy event hevent
  · exact (hafter event hevent).2
  · exact (hwork event hevent).2

theorem explain_told {lines : List (String × Channel)}
    (h : ∀ line ∈ lines, opensConcluding line.1.toList = false) (s : σ) :
    Triple (explain options lines) s (fun events _ t => Told events ∧ t = s)
      fun _ _ _ => False := by
  unfold explain
  split
  · rw [Triple, Run.echoAll_eq]
    refine ⟨fun event hevent => ?_, rfl⟩
    obtain ⟨line, hline, rfl⟩ := List.mem_map.mp hevent
    exact ⟨rfl, Event.isPlain_of_opens (h line hline) _⟩
  · exact Triple.pure ⟨List.forall_mem_nil _, rfl⟩

theorem opensConcluding_report (ceiling : Ceiling) :
    ∀ line ∈ ceiling.report, opensConcluding line.1.toList = false := by
  intro line hline
  rcases List.mem_append.mp hline with hline | hline
  · cases hfailure : ceiling.failure? with
    | none => simp [hfailure] at hline
    | some text =>
      simp only [hfailure] at hline
      split at hline
      · cases hline
      · rw [List.mem_singleton.mp hline, String.toList_append]
        rfl
  · rw [List.mem_singleton.mp hline]
    simp only [String.toList_append]
    rfl

theorem ceiling_asks (php : String) (s : σ) :
    Triple host.ceiling s
      (fun events _ _ => events = ceilingProbe host.platform (.batch php true))
      fun _ _ _ => False := by
  unfold Host.ceiling
  cases host.platform with
  | windows => exact Triple.pure rfl
  | posix =>
    refine Triple.seq (host.runProbe_triple s Probe.argMaxCommand) ?_
    rintro _ completed _ ⟨rfl, -, -⟩
    exact Triple.pure rfl

theorem lineLimit_asks (php : String) (manyFiles : Bool) (s : σ) :
    Triple (lineLimit host options manyFiles) s
      (fun events _ _ => ∃ after, Told after ∧
        events = ceilingProbe host.platform (.batch php manyFiles) ++ after)
      fun _ _ _ => False := by
  cases manyFiles with
  | false =>
    refine Triple.pure ⟨[], List.forall_mem_nil _, ?_⟩
    cases host.platform <;> rfl
  | true =>
    refine Triple.seq (ceiling_asks host php s) ?_
    rintro _ ceiling t rfl
    refine Triple.seq (explain_told options (opensConcluding_report ceiling) t) ?_
    rintro told _ _ ⟨htold, rfl⟩
    exact Triple.pure ⟨told, htold, by simp⟩

theorem opensConcluding_describe (strategy : Strategy) :
    opensConcluding strategy.describe.toList = false := by
  rcases strategy with ⟨_, _ | _⟩ | _ <;> simp only [Strategy.describe] <;> decide

theorem runBatch_works (fuel : Nat) (php : String) (manyFiles : Bool) (verdict : Verdict) (s : σ) :
    Triple (runBatch host fuel options php manyFiles verdict) s
      (fun events _ _ => Works host (.batch php manyFiles) events)
      fun events _ _ => Works host (.batch php manyFiles) events := by
  unfold runBatch
  have hdescribe : ∀ line ∈ [((Strategy.batch php manyFiles).describe, Channel.stdout)],
      opensConcluding line.1.toList = false :=
    List.forall_mem_singleton.mpr (opensConcluding_describe _)
  refine Triple.seq (explain_told options hdescribe s) ?_
  rintro before _ t ⟨hbefore, -⟩
  refine Triple.seq (lineLimit_asks host options php manyFiles t) ?_
  rintro _ limit u ⟨after, hafter, rfl⟩
  refine Triple.bind (batchLoop_emits host (isWork_covers options) _ fuel _ {} {} verdict u) ?_ ?_
  · rintro work ⟨joint, counters⟩ v hwork
    exact Triple.pure ⟨before, after, work, hbefore, hafter, hwork, by simp⟩
  · intro work e v hwork
    exact ⟨before, after, work, hbefore, hafter, hwork, by simp⟩

theorem ceilingProbe_aggregate (platform : Platform) (php : String) (flags : List String) :
    ceilingProbe platform (.aggregate php flags) = [] := by
  cases platform <;> rfl

theorem runAggregate_isWork (php : String) (flags : List String) (verdict : Verdict) :
    Run.Emits (runAggregate host options php flags verdict) Event.IsWork := by
  have hdescribe := Event.isPlain_of_opens (opensConcluding_describe (.aggregate php flags)) .stdout
  have hadvice : (Event.echo cacheAdvice .stderr).IsWork := ⟨rfl, by rintro _ ⟨⟩⟩
  exact runAggregate_emits host (isWork_covers options) (Event.isWork_of_told rfl hdescribe) hadvice
    verdict

theorem runStrategy_works (fuel : Nat) (verdict : Verdict) (strategy : Strategy) (s : σ) :
    Triple (runStrategy host fuel options verdict strategy) s
      (fun events _ _ => Works host strategy events)
      fun events _ _ => Works host strategy events := by
  cases strategy with
  | batch php manyFiles => exact runBatch_works host options fuel php manyFiles verdict s
  | aggregate php flags =>
    have hworks : ∀ {events : List Event}, (∀ event ∈ events, event.IsWork) →
        Works host (.aggregate php flags) events := fun {events} hevents =>
      ⟨[], [], events, List.forall_mem_nil _, List.forall_mem_nil _, hevents, by
        simp [ceilingProbe_aggregate]⟩
    exact (runAggregate_isWork host options php flags verdict s).mono
      (fun _ _ _ => hworks) fun _ _ _ => hworks

-- ---------------------------------------------------------------------------
-- Whole runs
-- ---------------------------------------------------------------------------

/-- What the strategy for a version does with the options. -/
def StrategyRun (fuel : Nat) (s : σ) (version : Version) (events : List Event)
    (result : Except Failure Verdict) : Prop :=
  let strategy := Strategy.select version options.supportDuplicatedNames options.php
  Works host strategy events ∧
    (runStrategy host fuel options {} strategy (batchState host options s)).result = result

/-- A check that comes to a verdict: the version is asked for first, and the summary comes last. -/
def Completes (fuel : Nat) (s : σ) (events : List Event) (out : Verdict) : Prop :=
  ∃ version work, (host.version options.php s).result = .ok version ∧
    StrategyRun host options fuel s version work (.ok out) ∧
    events = .probe (Probe.versionCommand options.php) ::
      (work ++ out.summary.map fun line => .echo line .stdout)

theorem length_summary (verdict : Verdict) : verdict.summary.length = 4 := rfl

/-- The four lines of the summary are the last events, and no event before them tells such a
line. -/
theorem Completes.exists_lines {fuel : Nat} {s : σ} {events : List Event} {out : Verdict}
    (h : Completes host options fuel s events out) :
    ∃ (before : List Event) (lines : List String),
      (∀ event ∈ before, event.IsPlain) ∧ lines.length = 4 ∧
      (∀ line ∈ lines, Concluding line) ∧ lines.getLast? = some out.headline ∧
      events = before ++ lines.map fun line => .echo line .stdout := by
  obtain ⟨version, work, -, ⟨hworks, -⟩, rfl⟩ := h
  refine ⟨.probe (Probe.versionCommand options.php) :: work, out.summary, ?_, length_summary out,
    fun line hline => .summary hline, rfl, rfl⟩
  exact List.forall_mem_cons.mpr ⟨Event.isPlain_of_not_echo rfl, hworks.isPlain⟩

/-- A check that breaks off, either at the version, which is asked for first, or later. -/
inductive BreaksOff (fuel : Nat) (s : σ) : List Event → Failure → Prop
  | unversioned {failure : Failure} : (host.version options.php s).result = .error failure →
      BreaksOff fuel s [.probe (Probe.versionCommand options.php)] failure
  | unchecked {version : Version} {work : List Event} {failure : Failure} :
      (host.version options.php s).result = .ok version →
      StrategyRun host options fuel s version work (.error failure) →
      BreaksOff fuel s (.probe (Probe.versionCommand options.php) :: work) failure

theorem greeting_told (version : Version) :
    Told [.echo ("Checking files with PHP " ++ version.text) .stdout] := by
  refine told_singleton ?_ _
  rw [String.toList_append]
  rfl

theorem run_log (fuel : Nat) (s : σ) :
    Triple (run host fuel options) s
      (fun events out _ => Completes host options fuel s events out)
      fun events failure _ => BreaksOff host options fuel s events failure := by
  unfold run
  refine Triple.bind (host.version_triple s options.php).result ?_ ?_
  · rintro _ version _ ⟨hversion, rfl, rfl⟩
    -- The greeting leaves the state as it is, and counts as told before the strategy begins.
    refine Triple.seq (P := fun events _ t => Told events ∧ t = batchState host options s)
      (Triple.emit ⟨greeting_told version, rfl⟩) ?_
    rintro told _ _ ⟨htold, rfl⟩
    refine Triple.bind (runStrategy_works host options fuel {} _ _).result ?_ ?_
    · rintro work out t ⟨hout, hwork⟩
      have hworks := hwork.told_append host htold
      refine Triple.seq (P := fun events _ _ => events =
        out.summary.map fun line => .echo line .stdout) ?_ ?_
      · simp [Triple, Run.echoAll_eq]
      · rintro _ _ _ rfl
        exact Triple.pure
          ⟨version, told ++ work, hversion, ⟨hworks, hout⟩, by simp⟩
    · rintro work failure t ⟨hfailure, hwork⟩
      have hworks := hwork.told_append host htold
      exact .unchecked hversion ⟨hworks, hfailure⟩
  · rintro _ failure _ ⟨hfailure, rfl⟩
    exact .unversioned hfailure

end Check

namespace Cli

/-- What is told of a failure: the command for the build server and the message. -/
def notice (failure : Failure) : List Event :=
  [.echo (WorkflowCommand.error failure.message) .stdout, .echo failure.message .stderr]

theorem report_notice {failure : Failure} (h : failure.isReported = true) (s : σ) :
    report failure s = ⟨notice failure, .ok 1, s⟩ := by
  simp [report, h]
  rfl

theorem opensConcluding_options (options : Options) :
    ∀ line ∈ options.describe.map fun text => (text, Channel.stdout),
      opensConcluding line.1.toList = false := by
  intro line hline
  simp only [Options.describe, List.map_cons, List.map_nil, List.mem_cons, List.not_mem_nil,
    or_false] at hline
  rcases hline with rfl | rfl | rfl | rfl | rfl | rfl | rfl | rfl
  · rfl
  all_goals
    simp only [String.toList_append]
    rfl

variable (fuel : Nat) (overrides : Overrides) (environment : Environment) (cwd : Path) (s : σ)

/-- A run that comes to a verdict. -/
def Completes (options : Options) (events : List Event) (out : Verdict) : Prop :=
  Options.resolve (host.tree s) overrides environment cwd = .ok options ∧
    ∃ told checking, Told told ∧ Check.Completes host options fuel s checking out ∧
      events = told ++ checking

/-- A run that breaks off: without options nothing is done at all. -/
inductive BreaksOff : List Event → Failure → Prop
  | unresolved {failure : ResolveFailure} :
      Options.resolve (host.tree s) overrides environment cwd = .error failure →
      BreaksOff [] (.ofResolve failure)
  | checking {options : Options} {told events : List Event} {failure : Failure} :
      Options.resolve (host.tree s) overrides environment cwd = .ok options → Told told →
      Check.BreaksOff host options fuel s events failure → BreaksOff (told ++ events) failure

theorem resolveAndRun_log :
    Triple (resolveAndRun host fuel overrides environment cwd) s
      (fun events status _ => ∃ options out,
        Completes host fuel overrides environment cwd s options events out ∧
        status = out.exitStatus options.failOnWarnings)
      fun events failure _ => BreaksOff host fuel overrides environment cwd s events failure := by
  unfold resolveAndRun
  refine Triple.seq (P := fun events state t => events = [] ∧ state = s ∧ t = s)
    (Triple.read ⟨rfl, rfl, rfl⟩) ?_
  rintro _ state _ ⟨rfl, hstate, rfl⟩
  rw [hstate]
  cases hresolved : Options.resolve (host.tree _) overrides environment cwd with
  | error failure =>
    refine Triple.bind (P := fun _ _ _ => False)
      (D := fun events e _ => events = [] ∧ e = .ofResolve failure) (Triple.fail ⟨rfl, rfl⟩)
      (fun _ _ _ hfalse => hfalse.elim) ?_
    rintro _ _ _ ⟨rfl, rfl⟩
    exact .unresolved hresolved
  | ok options =>
    refine Triple.seq (P := fun events found t => events = [] ∧ found = options ∧ t = _)
      (Triple.lift_ok ⟨rfl, rfl, rfl⟩) ?_
    rintro _ found t ⟨rfl, rfl, rfl⟩
    refine Triple.seq (Check.explain_told found (opensConcluding_options found) _) ?_
    rintro told _ _ ⟨htold, rfl⟩
    refine Triple.bind (Check.run_log host found fuel _) ?_ ?_
    · rintro checking out u hcompletes
      exact Triple.pure ⟨found, out, ⟨hresolved, told, checking, htold, hcompletes, by simp⟩, rfl⟩
    · rintro checking failure u hbreaksOff
      simpa using BreaksOff.checking hresolved htold hbreaksOff

theorem exitStatus_eq (out : Verdict) (failOnWarnings : Bool) :
    out.exitStatus failOnWarnings = if out.outcome = .errors ∨
      out.outcome = .warnings ∧ failOnWarnings = true then 1 else 0 := by
  unfold Verdict.exitStatus
  cases out.outcome <;> simp

/-- A run ends with the summary of its verdict or with the report of the failure that broke it off,
and the exit status says which. The ceiling is asked for before anything is listed or launched. -/
theorem check_failFast
    (hreported : ∀ failure, (resolveAndRun host fuel overrides environment cwd s).result =
      .error failure → failure.isReported = true) :
    let trace := check host fuel overrides environment cwd s
    (∃ options out, Completes host fuel overrides environment cwd s options trace.events out ∧
      trace.result = .ok (if out.outcome = .errors ∨
        out.outcome = .warnings ∧ options.failOnWarnings = true then 1 else 0)) ∨
    ∃ events failure, BreaksOff host fuel overrides environment cwd s events failure ∧
      trace.events = events ++ notice failure ∧ trace.result = .ok 1 := by
  intro trace
  have hlog := (resolveAndRun_log host fuel overrides environment cwd s).result
  have htriple : Triple (check host fuel overrides environment cwd) s
      (fun events status _ =>
        (∃ options out, Completes host fuel overrides environment cwd s options events out ∧
          status = out.exitStatus options.failOnWarnings) ∨
        ∃ before failure, BreaksOff host fuel overrides environment cwd s before failure ∧
          events = before ++ notice failure ∧ status = 1) fun _ _ _ => False := by
    -- The report is all that comes after a failure.
    refine recover_triple hlog ?_ ?_
    · rintro events status t ⟨-, hcompletes⟩
      exact .inl hcompletes
    · rintro before failure t ⟨hfailure, hbreaksOff⟩
      rw [Triple, report_notice (hreported failure hfailure)]
      exact .inr ⟨before, failure, hbreaksOff, rfl, rfl⟩
  obtain ⟨status, hstatus, ⟨options, out, hcompletes, rfl⟩ |
    ⟨before, failure, hbreaksOff, hevents, rfl⟩⟩ := htriple.exists_ok
  · exact .inl ⟨options, out, hcompletes, hstatus.trans (by rw [exitStatus_eq])⟩
  · exact .inr ⟨before, failure, hbreaksOff, hevents, hstatus⟩

/-- With the inner directory of the sample closed, the run breaks off in the middle of the walk. -/
theorem check_failFast_closed :
    let trace := check Check.closedSetting.host 8 sampleOverrides [] sampleDirectory sampleScript
    (∃ options out, Completes Check.closedSetting.host 8 sampleOverrides [] sampleDirectory
      sampleScript options trace.events out ∧
      trace.result = .ok (if out.outcome = .errors ∨
        out.outcome = .warnings ∧ options.failOnWarnings = true then 1 else 0)) ∨
    ∃ events failure, BreaksOff Check.closedSetting.host 8 sampleOverrides [] sampleDirectory
      sampleScript events failure ∧
      trace.events = events ++ notice failure ∧ trace.result = .ok 1 := by
  have hresult : (resolveAndRun Check.closedSetting.host 8 sampleOverrides [] sampleDirectory
      sampleScript).result = .error (.listing ⟨⟨.root, ["w", "b"]⟩, Check.closedError⟩) := by cbv
  apply check_failFast
  rw [hresult]
  rintro _ ⟨⟩
  rfl

end Cli

end

end LintRun
