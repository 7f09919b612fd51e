import LintRun.Check
import LintRun.Proofs.CommandLine
import LintRun.Proofs.Iteration

/-!
# Laws of a batch run

A batch run launches the lines of the files that the walk has come to, at most one in each round
(`round_triple`). If it ends with a verdict then the walk is over and every line was launched
(`BatchRun`), all have finished, and the verdict joins what they came to (`Settled`). A run that
breaks off has launched some of these lines from the first on, and `Breach` tells which, and why it
broke off. Nothing is assumed of what probes, listings and launches give. `BatchDone` and
`BatchSoFar` are what remains of this with any quiet events around.
-/

namespace LintRun

open Run (Triple)

namespace Check

section
variable {σ : Type} (host : Host σ) {s : σ}

-- ---------------------------------------------------------------------------
-- Launching lines
-- ---------------------------------------------------------------------------

variable (options : Options)

theorem explain_still (lines : List (String × Channel)) (s : σ) :
    Triple (explain options lines) s (Run.Still s) fun _ _ _ => False := by
  unfold explain
  split
  · exact Run.echoAll_still lines s
  · exact Triple.pure ⟨List.forall_mem_nil _, rfl⟩

def outcomes (events : List Event) : List Outcome :=
  (finishes events).map fun finished => finished.2.outcome

@[simp] theorem outcomes_append (events later : List Event) :
    outcomes (events ++ later) = outcomes events ++ outcomes later := by
  simp [outcomes]

/-- All launched commands have finished, and their outcomes are folded into the verdict. -/
structure Settled (s : σ) (verdict : Verdict) (events : List Event) (out : Verdict) : Prop where
  finished : host.AllFinished s events
  out_eq : out = verdict.foldAll (outcomes events)

variable {host} in
theorem Settled.of_quiet {events : List Event} (h : Quiet events) (s : σ) (verdict : Verdict) :
    Settled host s verdict events verdict :=
  ⟨.of_quiet h, by simp [outcomes, h.finishes_eq, Verdict.foldAll]⟩

variable {host} in
theorem Settled.append {verdict middle out : Verdict} {events later : List Event}
    (h : Settled host s verdict events middle)
    (hlater : Settled host (host.after s events) middle later out) :
    Settled host s verdict (events ++ later) out := by
  refine ⟨h.finished.append hlater.finished, ?_⟩
  rw [hlater.out_eq, h.out_eq, outcomes_append]
  exact (List.foldl_append).symm

/-- The events in which at most one line is launched, and nothing else is done. -/
structure LineEvents (s : σ) (line : Option Line) (events : List Event) : Prop where
  launches_eq : launches events = line.toList.map (lineInvocation options)
  provisions_eq : provisions events = []
  listed_eq : host.listed s events = []

/-- Unless its launch fails, the line finishes, and its outcome is folded into the verdict. -/
theorem launchLine?_triple (verdict : Verdict) (line : Option Line) (s : σ) :
    Triple (launchLine? host options verdict line) s
      (fun events out t => t = host.after s events ∧ LineEvents host options s line events ∧
        Settled host s verdict events out)
      fun events _ _ => LineEvents host options s line events ∧
        ∃ failure, .error failure ∈ host.results s events := by
  cases line with
  | none => exact Triple.pure ⟨rfl, ⟨rfl, rfl, rfl⟩, .of_quiet Quiet.nil s verdict⟩
  | some line =>
    refine Triple.seq (explain_still options _ s) ?_
    rintro told _ t ⟨htold, rfl⟩
    have hquiet := htold.quiet
    have hline : ∀ {answer events},
        host.LaunchOf t (lineInvocation options line) answer events →
        LineEvents host options t (some line) (told ++ events) := by
      intro answer events hevents
      refine ⟨?_, ?_, ?_⟩
      · simp [hquiet.launches_eq, hevents.launches_eq]
      · simp [hquiet.provisions_eq, hevents.provisions_eq]
      · simp [host.listed_of_idle t htold.idle, host.after_writing t htold, hevents.listed_eq]
    refine Triple.bind (host.runLaunch_triple t (lineInvocation options line)) ?_ ?_
    · rintro events result _ ⟨hevents, hfinishes, rfl⟩
      have hfinished : host.AllFinished t events :=
        ⟨by simp [hfinishes, hevents.launches_eq], by simp [hfinishes, hevents.results_eq]⟩
      have hsettled : Settled host t verdict events (verdict.fold result.outcome) :=
        ⟨hfinished, by simp [outcomes, hfinishes, Verdict.foldAll]⟩
      refine Triple.pure ⟨?_, ?_, ?_⟩
      · simp [host.after_writing t htold]
      · simpa using hline hevents
      · rw [List.append_nil]
        exact (Settled.of_quiet hquiet t verdict).append (by rwa [host.after_writing t htold])
    · rintro events e u ⟨failure, hevents⟩
      refine ⟨hline hevents, failure, ?_⟩
      simp [host.after_writing t htold, hevents.results_eq]

-- ---------------------------------------------------------------------------
-- The loop
-- ---------------------------------------------------------------------------

/-- A round of a batch run: the walk has come to one more file, and the line that the file completes
has been launched. -/
structure Round (packing : Packing) (s : σ) (tasks : List Walk.Task) (packer : Packer)
    (path : String) (rest : List Walk.Task) (log : Walk.Log) (events : List Event) : Prop where
  course : (walkOf options).Course tasks log [path] rest
  listed_eq : host.listed s events = (walkOf options).answers log
  provisions_eq : provisions events = [path]
  launches_eq : launches events = (packer.push packing path).1.toList.map (lineInvocation options)

/-- What a batch run that is over has done: the walk has no task left, and all lines of its files
have been launched. -/
structure BatchRun (packing : Packing) (s : σ) (tasks : List Walk.Task) (packer : Packer)
    (log : Walk.Log) (events : List Event) : Prop where
  course : (walkOf options).Course tasks log (provisions events) []
  listed_eq : host.listed s events = (walkOf options).answers log
  launches_eq : launches events =
    (packer.linesFrom packing (provisions events)).map (lineInvocation options)

/-- The lines that the files have completed are launched, and have finished. -/
structure UpToLast (packing : Packing) (s : σ) (packer : Packer) (events : List Event) :
    Prop where
  launches_eq : launches events =
    (packer.pushAll packing (provisions events)).1.map (lineInvocation options)
  finished : host.AllFinished s events

/-- Why a walk that ends like this breaks a batch run off. -/
def failure? : Walk.Pull → Option Failure
  | .failed failure => some (.listing failure)
  | .exhausted => some .unfinished
  | .file .. | .finished => none

/-- Why a batch run broke off, and what it has done until then. -/
inductive Breach (packing : Packing) (s : σ) (tasks : List Walk.Task) (packer : Packer)
    (fuel : Nat) (events : List Event) (failure : Failure) : Prop
  | walk {log : Walk.Log} {pull : Walk.Pull} :
      (walkOf options).Ends fuel tasks log (provisions events) (host.listed s events) pull →
      failure? pull = some failure → UpToLast host options packing s packer events →
      Breach packing s tasks packer fuel events failure
  | launch {log : Walk.Log} {left : List Walk.Task} :
      (walkOf options).Course tasks log (provisions events) left →
      host.listed s events = (walkOf options).answers log →
      launches events <+:
        (packer.linesFrom packing (provisions events)).map (lineInvocation options) →
      (∃ refusal, .error refusal ∈ host.results s events) →
      Breach packing s tasks packer fuel events failure

variable {host} {options} {packing : Packing} {tasks rest : List Walk.Task} {packer : Packer}
  {log later : Walk.Log} {events more : List Event} {path : String} {fuel : Nat}
  {failure : Failure}

section
variable (hquiet : Quiet events) (hlisted : host.listed s events = (walkOf options).answers log)

include hquiet hlisted

theorem Round.of_line (hcourse : (walkOf options).Course tasks log [path] rest)
    (hline : LineEvents host options (host.after s events) (packer.push packing path).1 more) :
    Round host options packing s tasks packer path rest log
      (events ++ ([.provide path] ++ more)) := by
  refine ⟨hcourse, ?_, ?_, ?_⟩
  · simpa [hlisted, Host.perform] using hline.listed_eq
  · simp [hquiet.provisions_eq, hline.provisions_eq]
  · simp [hquiet.launches_eq, hline.launches_eq]

/-- What a round does once the walk has come to a file. -/
theorem round_triple (hcourse : (walkOf options).Course tasks log [path] rest)
    (verdict : Verdict) :
    Triple (do
        Run.emit (.provide path)
        launchLine? host options verdict (packer.push packing path).1) (host.after s events)
      (fun later out t => t = host.after s (events ++ later) ∧
        Round host options packing s tasks packer path rest log (events ++ later) ∧
        Settled host s verdict (events ++ later) out)
      fun later _ _ =>
        Round host options packing s tasks packer path rest log (events ++ later) ∧
        ∃ refusal, .error refusal ∈ host.results s (events ++ later) := by
  refine Triple.seq (P := fun later _ t => later = [.provide path] ∧ t = host.after s events)
    (Triple.emit ⟨rfl, rfl⟩) ?_
  rintro _ _ _ ⟨rfl, rfl⟩
  refine (launchLine?_triple host options verdict (packer.push packing path).1 _).mono ?_ ?_
  · rintro later out _ ⟨rfl, hline, hsettled⟩
    have hprovide : Settled host (host.after s events) verdict [.provide path] verdict :=
      ⟨⟨rfl, rfl⟩, rfl⟩
    refine ⟨?_, Round.of_line hquiet hlisted hcourse hline, ?_⟩
    · simp [Host.perform]
    · exact (Settled.of_quiet hquiet s verdict).append (hprovide.append hsettled)
  · rintro later e t ⟨hline, refusal, hrefusal⟩
    refine ⟨Round.of_line hquiet hlisted hcourse hline, refusal, ?_⟩
    simp [Host.perform, hrefusal]

theorem BatchRun.of_line (hcourse : (walkOf options).Course tasks log [] [])
    (hline : LineEvents host options (host.after s events) (packer.finish packing) more) :
    BatchRun host options packing s tasks packer log (events ++ more) := by
  have hfiles : provisions (events ++ more) = [] := by
    simp [hquiet.provisions_eq, hline.provisions_eq]
  refine ⟨by rwa [hfiles], ?_, ?_⟩
  · simp [hlisted, hline.listed_eq]
  · rw [hfiles]
    simp [hquiet.launches_eq, hline.launches_eq]

/-- What is done once the walk is over. -/
theorem lastLine_triple (hcourse : (walkOf options).Course tasks log [] []) (verdict : Verdict) :
    Triple (launchLine? host options verdict (packer.finish packing)) (host.after s events)
      (fun later out _ => BatchRun host options packing s tasks packer log (events ++ later) ∧
        provisions (events ++ later) = [] ∧ Settled host s verdict (events ++ later) out)
      fun later failure _ =>
        Breach host options packing s tasks packer fuel (events ++ later) failure := by
  refine (launchLine?_triple host options verdict (packer.finish packing) _).mono ?_ ?_
  · rintro later out _ ⟨-, hline, hsettled⟩
    refine ⟨BatchRun.of_line hquiet hlisted hcourse hline, ?_,
      (Settled.of_quiet hquiet s verdict).append hsettled⟩
    simp [hquiet.provisions_eq, hline.provisions_eq]
  · rintro later failure t ⟨hline, refusal, hrefusal⟩
    have hrun := BatchRun.of_line hquiet hlisted hcourse hline
    exact .launch hrun.course hrun.listed_eq (hrun.launches_eq ▸ List.prefix_rfl)
      ⟨refusal, by simp [hrefusal]⟩

end

section
variable (hround : Round host options packing s tasks packer path rest log events)

include hround

theorem Round.course_append {left : List Walk.Task}
    (h : (walkOf options).Course rest later (provisions more) left) :
    (walkOf options).Course tasks (log ++ later) (provisions (events ++ more)) left := by
  rw [provisions_append, hround.provisions_eq]
  exact hround.course.trans h

theorem Round.listed_append
    (h : host.listed (host.after s events) more = (walkOf options).answers later) :
    host.listed s (events ++ more) = (walkOf options).answers (log ++ later) := by
  rw [Host.listed_append, hround.listed_eq, h, Walk.answers_append]

theorem Round.linesFrom_eq :
    (packer.linesFrom packing (provisions (events ++ more))).map (lineInvocation options) =
      launches events ++
        ((packer.push packing path).2.linesFrom packing (provisions more)).map
          (lineInvocation options) := by
  rw [provisions_append, hround.provisions_eq, hround.launches_eq, List.singleton_append,
    Packer.linesFrom_cons, List.map_append]

theorem BatchRun.cons (h : BatchRun host options packing (host.after s events) rest
      (packer.push packing path).2 later more) :
    BatchRun host options packing s tasks packer (log ++ later) (events ++ more) := by
  refine ⟨hround.course_append h.course, hround.listed_append h.listed_eq, ?_⟩
  rw [launches_append, hround.linesFrom_eq, h.launches_eq]

theorem UpToLast.cons (hfinished : host.AllFinished s events)
    (h : UpToLast host options packing (host.after s events) (packer.push packing path).2 more) :
    UpToLast host options packing s packer (events ++ more) := by
  refine ⟨?_, hfinished.append h.finished⟩
  rw [launches_append, provisions_append, hround.launches_eq, hround.provisions_eq,
    h.launches_eq, List.singleton_append, Packer.pushAll_cons, List.map_append]

theorem Breach.cons (hfinished : host.AllFinished s events)
    (h : Breach host options packing (host.after s events) rest (packer.push packing path).2 fuel
      more failure) :
    Breach host options packing s tasks packer (fuel + 1) (events ++ more) failure := by
  cases h with
  | walk hends hfailure hlines =>
    have hall := hends.cons hround.course
    rw [← hround.listed_eq, ← Host.listed_append] at hall
    have hfiles : provisions (events ++ more) = path :: provisions more := by
      rw [provisions_append, hround.provisions_eq, List.singleton_append]
    exact .walk (by rwa [hfiles]) hfailure (hlines.cons hround hfinished)
  | launch hcourse hlisted hlines hrefused =>
    refine .launch (hround.course_append hcourse) (hround.listed_append hlisted) ?_ ?_
    · rw [launches_append, hround.linesFrom_eq]
      exact (List.prefix_append_right_inj _).mpr hlines
    · obtain ⟨refusal, hrefusal⟩ := hrefused
      exact ⟨refusal, by simp [hrefusal]⟩

/-- The launch of the line did not give a result. -/
theorem Round.breach (hrefused : ∃ refusal, .error refusal ∈ host.results s events) :
    Breach host options packing s tasks packer fuel events failure := by
  refine .launch (hround.provisions_eq ▸ hround.course) hround.listed_eq ?_ hrefused
  have hnone : events = events ++ [] := (List.append_nil _).symm
  rw [hnone, hround.linesFrom_eq]
  simp

end

section
variable {before : List Event} (hidle : Idle before)

include hidle

theorem BatchRun.idle_append
    (h : BatchRun host options packing (host.after s before) tasks packer log events) :
    BatchRun host options packing s tasks packer log (before ++ events) := by
  obtain ⟨hcourse, hlisted, hlaunches⟩ := h
  have hquiet := hidle.quiet
  refine ⟨?_, ?_, ?_⟩
  · simpa [hquiet.provisions_eq] using hcourse
  · simpa [host.listed_of_idle s hidle] using hlisted
  · simpa [hquiet.launches_eq, hquiet.provisions_eq] using hlaunches

theorem UpToLast.idle_append
    (h : UpToLast host options packing (host.after s before) packer events) :
    UpToLast host options packing s packer (before ++ events) := by
  obtain ⟨hlaunches, hfinished⟩ := h
  have hquiet := hidle.quiet
  refine ⟨?_, (Host.AllFinished.of_quiet hquiet).append hfinished⟩
  simpa [hquiet.launches_eq, hquiet.provisions_eq] using hlaunches

theorem Breach.idle_append
    (h : Breach host options packing (host.after s before) tasks packer fuel events failure) :
    Breach host options packing s tasks packer fuel (before ++ events) failure := by
  have hquiet := hidle.quiet
  have hfiles : provisions (before ++ events) = provisions events := by
    simp [hquiet.provisions_eq]
  have hlist : host.listed s (before ++ events) = host.listed (host.after s before) events := by
    simp [host.listed_of_idle s hidle]
  cases h with
  | walk hends hfailure hlines =>
    exact .walk (by rwa [hfiles, hlist]) hfailure (hlines.idle_append hidle)
  | launch hcourse hlisted hlines hrefused =>
    obtain ⟨refusal, hrefusal⟩ := hrefused
    refine .launch (by rwa [hfiles]) (hlist.trans hlisted) ?_ ⟨refusal, by simp [hrefusal]⟩
    simpa [hfiles, hquiet.launches_eq] using hlines

end

theorem batchLoop_file (packing : Packing) (fuel : Nat) (path : String) (rest : List Walk.Task)
    (counters : Counters) (packer : Packer) (verdict : Verdict) :
    batchLoop host options packing (fuel + 1) (.file path :: rest) counters packer verdict = (do
      Run.emit (.provide path)
      let verdict ← launchLine? host options verdict (packer.push packing path).1
      batchLoop host options packing fuel rest
        { counters with provided := counters.provided + 1 } (packer.push packing path).2
        verdict) := by
  rw [batchLoop, Walk.next]
  rfl

variable (host) in
theorem batchLoop_triple (packing : Packing) (fuel : Nat) (tasks : List Walk.Task)
    (counters : Counters) (packer : Packer) (verdict : Verdict) (s : σ) :
    Triple (batchLoop host options packing fuel tasks counters packer verdict) s
      (fun events out _ => ∃ log, BatchRun host options packing s tasks packer log events ∧
        Settled host s verdict events out.1 ∧
        out.2 = (walkOf options).countersAfter counters log (provisions events))
      fun events e _ => Breach host options packing s tasks packer fuel events e := by
  induction fuel generalizing tasks counters packer verdict s with
  | zero =>
    exact Triple.fail (.walk (.exhausted (.stop tasks) (Nat.zero_le _)) rfl
      ⟨rfl, .of_quiet Quiet.nil⟩)
  | succ fuel ih =>
    rw [batchLoop]
    refine Triple.seq (Walk.next_triple host _ fuel tasks counters) ?_
    rintro pulled ⟨pull, counted⟩ _ ⟨hquiet, rfl, log, hpulls, hcounted⟩
    dsimp only at hpulls hcounted ⊢
    generalize hlisted : host.listed s pulled = answers at hpulls
    cases hpulls with
    | ended hends =>
      -- The walk has only listed directories, and there is no file to launch a line for.
      have hnone := hquiet.provisions_eq
      have hbroken : ∀ {failure}, failure? pull = some failure →
          Breach host options packing s tasks packer (fuel + 1) (pulled ++ []) failure := by
        intro failure hfailure
        rw [List.append_nil]
        refine .walk (by rwa [hnone, hlisted]) hfailure ⟨?_, .of_quiet hquiet⟩
        simp [hquiet.launches_eq, hnone]
      cases hends with
      | finished hcourse =>
        refine Triple.bind (lastLine_triple hquiet hlisted hcourse verdict) ?_ fun _ _ _ h => h
        rintro events out _ ⟨hrun, hfiles, hsettled⟩
        refine Triple.pure ⟨log, ?_⟩
        rw [List.append_nil, hfiles]
        exact ⟨hrun, hsettled, hcounted⟩
      | failed => exact Triple.fail (hbroken rfl)
      | exhausted => exact Triple.fail (hbroken rfl)
    | @file path rest hcourse =>
      dsimp only
      rw [← Run.bind_assoc]
      refine Triple.bind (round_triple hquiet hlisted hcourse verdict) ?_ ?_
      · rintro events verdict _ ⟨rfl, hround, hsettled⟩
        refine (ih rest counted (packer.push packing path).2 verdict _).mono ?_ ?_
        · rintro more out u ⟨later, hrun, hlater, hcounters⟩
          rw [← List.append_assoc]
          refine ⟨log ++ later, hrun.cons hround, hsettled.append hlater, ?_⟩
          rw [provisions_append, hround.provisions_eq, Walk.countersAfter_append, hcounters,
            hcounted, Walk.Pull.files]
        · intro more e u hbreach
          rw [← List.append_assoc]
          exact hbreach.cons hround hsettled.finished
      · rintro events e t ⟨hround, hrefusal⟩
        exact hround.breach hrefusal

-- ---------------------------------------------------------------------------
-- The run
-- ---------------------------------------------------------------------------

/-- The length that the lines must not reach in a run that begins in a state. -/
def limitOf (host : Host σ) (manyFiles : Bool) (s : σ) : Int :=
  if manyFiles then
    match host.platform with
    | .windows => Ceiling.fixed.length
    | .posix => (Ceiling.ofProbe host.environment (host.probe Probe.argMaxCommand s).1).length
  else 0

def packingOf (host : Host σ) (php : String) (manyFiles : Bool) (s : σ) : Packing :=
  ⟨Shell.lintOpening host.platform php, Shell.quote host.platform, limitOf host manyFiles s⟩

theorem packingOf_posix (hposix : host.platform = .posix) (php : String) (manyFiles : Bool)
    (s : σ) : packingOf host php manyFiles s = lintPacking php (limitOf host manyFiles s) := by
  simp [packingOf, lintPacking, hposix]

theorem operands?_of_admits (hposix : host.platform = .posix) {php : String} {manyFiles : Bool}
    {line : Line} (h : (packingOf host php manyFiles s).Admits line) :
    CommandLine.operands? line.text = some line.files := by
  rw [h.text_eq, packingOf_posix hposix, CommandLine.operands?_render]

variable (host)

theorem ceiling_triple (s : σ) :
    Triple host.ceiling s
      (fun events ceiling t => Idle events ∧ t = host.after s events ∧
        ceiling.length = limitOf host true s)
      fun _ _ _ => False := by
  unfold Host.ceiling limitOf
  cases host.platform with
  | windows => exact Triple.pure ⟨Idle.nil, rfl, rfl⟩
  | posix =>
    refine Triple.seq (host.runProbe_triple s Probe.argMaxCommand) ?_
    rintro _ completed _ ⟨rfl, rfl, rfl⟩
    exact Triple.pure ⟨List.forall_mem_singleton.mpr rfl, rfl, rfl⟩

variable (options)

theorem lineLimit_triple (manyFiles : Bool) (s : σ) :
    Triple (lineLimit host options manyFiles) s
      (fun events limit t => Idle events ∧ t = host.after s events ∧
        limit = limitOf host manyFiles s)
      fun _ _ _ => False := by
  cases manyFiles with
  | false => exact Triple.pure ⟨Idle.nil, rfl, rfl⟩
  | true =>
    refine Triple.seq (ceiling_triple host s) ?_
    rintro events ceiling _ ⟨hidle, rfl, hlength⟩
    refine Triple.seq (explain_still options ceiling.report _) ?_
    rintro told _ _ ⟨htold, rfl⟩
    refine Triple.pure ⟨?_, ?_, hlength⟩
    · simpa using hidle.append htold.idle
    · simp [host.after_writing _ htold]

/-- What a batch run does before its loop is idle. -/
theorem runBatch_triple (fuel : Nat) (php : String) (manyFiles : Bool) (verdict : Verdict) (s : σ) :
    Triple (runBatch host fuel options php manyFiles verdict) s
      (fun events out _ => ∃ log,
        BatchRun host options (packingOf host php manyFiles s) s (walkOf options).tasks {} log
          events ∧
        ∃ joint, Settled host s verdict events joint ∧
          out = joint.withCounts (provisions events).length
            ((walkOf options).skippedItems log).length)
      fun events e _ => Breach host options (packingOf host php manyFiles s) s
        (walkOf options).tasks {} fuel events e := by
  unfold runBatch
  refine Triple.seq (explain_still options _ s) ?_
  rintro told _ t ⟨htold, ht⟩
  refine Triple.seq (lineLimit_triple host options manyFiles t) ?_
  rintro asked limit u ⟨hasked, hu, rfl⟩
  have hidle := htold.idle.append hasked
  have hstate : u = host.after s (told ++ asked) := by
    rw [hu, ht, host.after_append, host.after_writing s htold]
  rw [ht]
  refine Triple.bind (batchLoop_triple host _ fuel _ {} {} verdict u) ?_ ?_
  · rintro events ⟨joint, counters⟩ _ ⟨log, hrun, hsettled, hcounters⟩
    rw [hstate] at hrun hsettled
    have hquiet := hidle.quiet
    refine Triple.pure ⟨log, ?_, joint, ?_, ?_⟩
    · simpa [packingOf] using hrun.idle_append hidle
    · simpa using (Settled.of_quiet hquiet s verdict).append hsettled
    · have hfiles : provisions (told ++ (asked ++ (events ++ []))) = provisions events := by
        simp [htold.quiet.provisions_eq, hasked.quiet.provisions_eq]
      dsimp only at hcounters
      rw [hfiles, hcounters]
      simp [Walk.countersAfter]
  · intro events e _ hbreach
    rw [hstate] at hbreach
    simpa [packingOf] using hbreach.idle_append hidle

-- ---------------------------------------------------------------------------
-- Among other events
-- ---------------------------------------------------------------------------

/-- What the events of a batch run tell, however far it has come: the walk has come to the files,
with listings that are among the events, and of their lines those from the first on have been
launched. -/
structure BatchSoFar (options : Options) (packing : Packing) (s : σ) (tasks : List Walk.Task)
    (packer : Packer) (events : List Event) : Prop where
  exists_course : ∃ log left, (walkOf options).Course tasks log (provisions events) left ∧
    (walkOf options).answers log ⊆ host.listed s events
  launches_initial : launches events <+:
    (packer.linesFrom packing (provisions events)).map (lineInvocation options)

/-- What the events of a batch run tell once it has a verdict: the walk is over, and all lines of
its files have been launched, have finished and count in the verdict. -/
structure BatchDone (options : Options) (packing : Packing) (s : σ) (tasks : List Walk.Task)
    (packer : Packer) (verdict : Verdict) (events : List Event) (out : Verdict) : Prop where
  exists_course : ∃ log, (walkOf options).Course tasks log (provisions events) [] ∧
    (walkOf options).answers log ⊆ host.listed s events
  launches_eq : launches events =
    (packer.linesFrom packing (provisions events)).map (lineInvocation options)
  finishes_eq : (finishes events).map Prod.fst = launches events
  out_eq : out = verdict.foldAll (outcomes events)

variable {host} {options} {verdict out : Verdict}

theorem BatchDone.soFar (h : BatchDone host options packing s tasks packer verdict events out) :
    BatchSoFar host options packing s tasks packer events := by
  obtain ⟨log, hcourse, hlisted⟩ := h.exists_course
  exact ⟨⟨log, [], hcourse, hlisted⟩, h.launches_eq ▸ List.prefix_rfl⟩

theorem BatchRun.done (h : BatchRun host options packing s tasks packer log events)
    (hsettled : Settled host s verdict events out) :
    BatchDone host options packing s tasks packer verdict events out :=
  ⟨⟨log, h.course, h.listed_eq ▸ List.Subset.refl _⟩, h.launches_eq,
    hsettled.finished.finishes_eq, hsettled.out_eq⟩

theorem UpToLast.launches_initial (h : UpToLast host options packing s packer events) :
    launches events <+:
      (packer.linesFrom packing (provisions events)).map (lineInvocation options) := by
  rw [h.launches_eq, Packer.linesFrom_eq, List.map_append]
  exact List.prefix_append _ _

theorem Breach.soFar (h : Breach host options packing s tasks packer fuel events failure) :
    BatchSoFar host options packing s tasks packer events := by
  cases h with
  | walk hends _ hlines =>
    obtain ⟨left, hcourse, hlisted⟩ := hends.exists_course
    exact ⟨⟨_, left, hcourse, hlisted.subset⟩, hlines.launches_initial⟩
  | launch hcourse hlisted hlines =>
    exact ⟨⟨_, _, hcourse, hlisted ▸ List.Subset.refl _⟩, hlines⟩

theorem BatchSoFar.exists_line {invocation : Invocation}
    (h : BatchSoFar host options packing s tasks {} events)
    (hlaunch : Event.launch invocation ∈ events) :
    ∃ line, packing.Admits line ∧ (∀ file ∈ line.files, file ∈ provisions events) ∧
      invocation = lineInvocation options line := by
  obtain ⟨line, hline, rfl⟩ :=
    List.mem_map.mp (h.launches_initial.subset (mem_launches.mpr hlaunch))
  refine ⟨line, Packing.admits_of_mem_lines hline, fun file hfile => ?_, rfl⟩
  rw [← packing.flatMap_files_lines (provisions events)]
  exact List.mem_flatMap.mpr ⟨line, hline, hfile⟩

theorem BatchDone.exists_launch
    (h : BatchDone host options packing s tasks {} verdict events out) {file : String}
    (hfile : file ∈ provisions events) :
    ∃ line, packing.Admits line ∧ file ∈ line.files ∧
      Event.launch (lineInvocation options line) ∈ events := by
  rw [← packing.flatMap_files_lines (provisions events), List.mem_flatMap] at hfile
  obtain ⟨line, hline, hmem⟩ := hfile
  refine ⟨line, Packing.admits_of_mem_lines hline, hmem, mem_launches.mp ?_⟩
  rw [h.launches_eq]
  exact List.mem_map.mpr ⟨line, hline, rfl⟩

section
variable {before after : List Event} (hbefore : Quiet before) (hafter : Quiet after)

include hbefore hafter

/-- Quiet events before and after tell nothing more. -/
theorem BatchSoFar.surround
    (h : BatchSoFar host options packing (host.after s before) tasks packer events) :
    BatchSoFar host options packing s tasks packer (before ++ (events ++ after)) := by
  obtain ⟨⟨log, left, hcourse, hlisted⟩, hinitial⟩ := h
  refine ⟨⟨log, left, ?_, ?_⟩, ?_⟩
  · rwa [hbefore.provisions_surround hafter]
  · exact List.Subset.trans hlisted (host.listed_subset_surround s before events after)
  · rwa [hbefore.provisions_surround hafter, hbefore.launches_surround hafter]

theorem BatchDone.surround
    (h : BatchDone host options packing (host.after s before) tasks packer verdict events out) :
    BatchDone host options packing s tasks packer verdict (before ++ (events ++ after)) out := by
  obtain ⟨⟨log, hcourse, hlisted⟩, hlaunches, hfinishes, hout⟩ := h
  refine ⟨⟨log, ?_, ?_⟩, ?_, ?_, ?_⟩
  · rwa [hbefore.provisions_surround hafter]
  · exact List.Subset.trans hlisted (host.listed_subset_surround s before events after)
  · rwa [hbefore.provisions_surround hafter, hbefore.launches_surround hafter]
  · rwa [hbefore.finishes_surround hafter, hbefore.launches_surround hafter]
  · rwa [outcomes, hbefore.finishes_surround hafter]

end

variable (host) (options)

/-- The counts apart, a batch run ends with the verdict of its loop over all files. -/
theorem runBatch_done (fuel : Nat) (php : String) (manyFiles : Bool) (verdict : Verdict) (s : σ) :
    Triple (runBatch host fuel options php manyFiles verdict) s
      (fun events out _ => ∃ joint, out.outcome = joint.outcome ∧
        BatchDone host options (packingOf host php manyFiles s) s (walkOf options).tasks {} verdict
          events joint)
      fun events _ _ => BatchSoFar host options (packingOf host php manyFiles s) s
        (walkOf options).tasks {} events := by
  refine (runBatch_triple host options fuel php manyFiles verdict s).mono ?_ ?_
  · rintro events _ t ⟨log, hrun, joint, hsettled, rfl⟩
    exact ⟨joint, rfl, hrun.done hsettled⟩
  · rintro events e t hbreach
    exact hbreach.soFar

theorem runBatch_soFar (fuel : Nat) (php : String) (manyFiles : Bool) (verdict : Verdict) (s : σ) :
    BatchSoFar host options (packingOf host php manyFiles s) s (walkOf options).tasks {}
      (runBatch host fuel options php manyFiles verdict s).events := by
  refine (runBatch_done host options fuel php manyFiles verdict s).events ?_ ?_
  · rintro events out t ⟨joint, -, hdone⟩
    exact hdone.soFar
  · rintro events e t hsoFar
    exact hsoFar

end

end Check

end LintRun
