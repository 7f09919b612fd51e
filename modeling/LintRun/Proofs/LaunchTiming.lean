import LintRun.Proofs.CheckLaws
import LintRun.Proofs.Streaming

/-!
# When lines are launched

In a batch run the files come from the walk. A line is launched when the walk has come to the file
after it, and only then the walk goes on; the last line is launched when the walk is over
(`Check.batchLoop_timely`). This is so for any listings and any results of launches, also in a run
that breaks off. So a line that is launched never depends on files that come more than one position
later (`Check.lines_in_time`).
-/

namespace LintRun

open Run (Triple)

/-- `P` holds of each launch, with the events before it and after it. -/
def EachLaunch (P : List Event → Invocation → List Event → Prop) (events : List Event) : Prop :=
  ∀ before invocation after, events = before ++ .launch invocation :: after →
    P before invocation after

namespace EachLaunch

variable {P Q : List Event → Invocation → List Event → Prop} {events later : List Event}

theorem of_none (h : launches events = []) : EachLaunch P events := by
  rintro before invocation after rfl
  simp at h

theorem mono (h : EachLaunch P events)
    (hP : ∀ before invocation after, P before invocation after → Q before invocation after) :
    EachLaunch Q events :=
  fun before invocation after hevents => hP _ _ _ (h before invocation after hevents)

theorem append
    (h : EachLaunch (fun before invocation after => P before invocation (after ++ later)) events)
    (hlater : EachLaunch (fun before => P (events ++ before)) later) :
    EachLaunch P (events ++ later) := by
  intro before invocation after hevents
  rcases List.append_eq_append_iff.mp hevents with ⟨middle, rfl, hrest⟩ | ⟨middle, rfl, hrest⟩
  · exact hlater middle invocation after hrest
  · cases middle with
    | nil => simpa using hlater [] invocation after (by simpa using hrest.symm)
    | cons event middle =>
      obtain ⟨rfl, rfl⟩ := List.cons.inj hrest
      exact h before invocation middle rfl

end EachLaunch

theorem Host.list_not_mem {σ : Type} (host : Host σ) {s : σ} {events : List Event}
    (h : host.listed s events = []) (path : Path) : Event.list path ∉ events := by
  intro hmem
  obtain ⟨before, later, rfl⟩ := List.append_of_mem hmem
  simp at h

namespace Check

section
variable {σ : Type} {host : Host σ} {s : σ} {options : Options} {packing : Packing}
  {tasks rest : List Walk.Task} {packer : Packer} {log : Walk.Log}
  {before after events later pulled told : List Event} {invocation : Invocation}
  {line : Option Line} {path : String}

/-- When a line is launched that a file has completed, that file is the last one the walk has come
to. -/
structure Completed (options : Options) (packing : Packing) (packer : Packer)
    (before : List Event) (invocation : Invocation) : Prop where
  launches_eq : launches before ++ [invocation] =
    (packer.pushAll packing (provisions before)).1.map (lineInvocation options)
  length_eq : (packer.pushAll packing (provisions before)).2.files.length = 1

/-- What has been done when a line is launched: the walk has come to the file after it, or, if the
line is the last one, the walk is over. -/
inductive Timely (host : Host σ) (options : Options) (packing : Packing) (s : σ)
    (tasks : List Walk.Task) (packer : Packer) (before : List Event) (invocation : Invocation)
    (after : List Event) : Prop
  | complete : Completed options packing packer before invocation →
      Timely host options packing s tasks packer before invocation after
  | last {log : Walk.Log} :
      BatchRun host options packing s tasks packer log (before ++ [.launch invocation]) →
      provisions after = [] → (∀ path, Event.list path ∉ after) →
      Timely host options packing s tasks packer before invocation after

namespace LineEvents

theorem launch (h : LineEvents host options s line events)
    (hevents : events = before ++ .launch invocation :: after) :
    LineEvents host options s line (before ++ [.launch invocation]) ∧ provisions after = [] ∧
      ∀ path, Event.list path ∉ after := by
  subst hevents
  obtain ⟨hlaunches, hprovisions, hlisted⟩ := h
  have hnone := host.list_not_mem hlisted
  simp only [provisions_append, provisions_cons, List.append_eq_nil_iff] at hprovisions
  rw [host.listed_append, List.append_eq_nil_iff] at hlisted
  have hlength : (launches (before ++ .launch invocation :: after)).length ≤ 1 := by
    rw [hlaunches]
    cases line <;> simp
  have hafter : launches after = [] := by
    rw [← List.length_eq_zero_iff]
    simp at hlength
    omega
  refine ⟨⟨?_, ?_, ?_⟩, hprovisions.2.2, fun path hpath => hnone path (by simp [hpath])⟩
  · simpa [hafter] using hlaunches
  · simp [hprovisions.1]
  · simp [hlisted.1]

/-- A line is launched right after the file that has completed it. -/
theorem completed (h : LineEvents host options s (packer.push packing path).1 told)
    (hquiet : Quiet pulled) :
    EachLaunch (fun before invocation _ => Completed options packing packer before invocation)
      (pulled ++ ([.provide path] ++ told)) := by
  refine .append (.of_none hquiet.launches_eq) (.append (.of_none rfl) ?_)
  intro before invocation after htold
  obtain ⟨⟨hlaunches, hprovisions, -⟩, -, -⟩ := h.launch htold
  have hfiles : provisions (pulled ++ ([.provide path] ++ before)) = [path] := by
    simpa [hquiet.provisions_eq] using hprovisions
  refine ⟨?_, ?_⟩
  · rw [hfiles]
    simpa [hquiet.launches_eq] using hlaunches
  · rw [hfiles, Packer.pushAll_cons, Packer.pushAll_nil]
    cases hpush : packer.push packing path with
    | mk line next =>
      cases line with
      | none => simp [hpush] at hlaunches
      | some line => rw [Packer.files_of_push_some hpush]; rfl

theorem timely (h : LineEvents host options (host.after s pulled) (packer.finish packing) told)
    (hquiet : Quiet pulled) (hlisted : host.listed s pulled = (walkOf options).answers log)
    (hcourse : (walkOf options).Course tasks log [] []) :
    EachLaunch (Timely host options packing s tasks packer) (pulled ++ told) := by
  refine .append (.of_none hquiet.launches_eq) ?_
  intro before invocation after htold
  obtain ⟨hline, hafter, hnone⟩ := h.launch htold
  have hrun := BatchRun.of_line hquiet hlisted hcourse hline
  rw [← List.append_assoc] at hrun
  exact .last hrun hafter hnone

end LineEvents

theorem Timely.cons (hround : Round host options packing s tasks packer path rest log events)
    (h : Timely host options packing (host.after s events) rest (packer.push packing path).2 before
      invocation after) :
    Timely host options packing s tasks packer (events ++ before) invocation after := by
  cases h with
  | complete hcompleted =>
    have hfiles : provisions (events ++ before) = path :: provisions before := by
      rw [provisions_append, hround.provisions_eq, List.singleton_append]
    refine .complete ⟨?_, ?_⟩
    · rw [hfiles, launches_append, List.append_assoc, hcompleted.launches_eq, hround.launches_eq,
        Packer.pushAll_cons, List.map_append]
    · rw [hfiles]
      exact hcompleted.length_eq
  | last hrun hafter hnone =>
    have hall := hrun.cons hround
    rw [← List.append_assoc] at hall
    exact .last hall hafter hnone

theorem Timely.idle_append {idle : List Event} (hidle : Idle idle)
    (h : EachLaunch (Timely host options packing (host.after s idle) tasks packer) events) :
    EachLaunch (Timely host options packing s tasks packer) (idle ++ events) := by
  have hquiet := hidle.quiet
  refine .append (.of_none hquiet.launches_eq) (h.mono fun before invocation after htimely => ?_)
  cases htimely with
  | complete hcompleted =>
    obtain ⟨hlaunches, hlength⟩ := hcompleted
    refine .complete ⟨?_, ?_⟩
    · simpa [hquiet.launches_eq, hquiet.provisions_eq] using hlaunches
    · simpa [hquiet.provisions_eq] using hlength
  | last hrun hafter hnone =>
    have hall := hrun.idle_append hidle
    rw [← List.append_assoc] at hall
    exact .last hall hafter hnone

variable (host) (options)

theorem batchLoop_timely (packing : Packing) (fuel : Nat) (tasks : List Walk.Task)
    (counters : Counters) (packer : Packer) (verdict : Verdict) (s : σ) :
    Triple (batchLoop host options packing fuel tasks counters packer verdict) s
      (fun events _ _ => EachLaunch (Timely host options packing s tasks packer) events)
      fun events _ _ => EachLaunch (Timely host options packing s tasks packer) events := by
  induction fuel generalizing tasks counters packer verdict s with
  | zero => exact Triple.fail (.of_none rfl)
  | succ fuel ih =>
    rw [batchLoop]
    refine Triple.seq (Walk.next_triple host _ fuel tasks counters) ?_
    rintro pulled ⟨pull, counted⟩ _ ⟨hquiet, rfl, log, hpulls, -⟩
    dsimp only at hpulls ⊢
    generalize hlisted : host.listed s pulled = answers at hpulls
    cases hpulls with
    | ended hends =>
      have hnone : EachLaunch (Timely host options packing s tasks packer) (pulled ++ []) :=
        .of_none (hquiet.append Quiet.nil).launches_eq
      cases hends with
      | finished hcourse =>
        refine Triple.bind (launchLine?_triple host options verdict _ _) ?_ ?_
        · rintro told out _ ⟨-, htold, -⟩
          refine Triple.pure ?_
          rw [List.append_nil]
          exact htold.timely hquiet hlisted hcourse
        · rintro told e t ⟨htold, -⟩
          exact htold.timely hquiet hlisted hcourse
      | failed | exhausted => exact Triple.fail hnone
    | @file path rest hcourse =>
      dsimp only
      refine Triple.seq (P := fun events _ t => events = [.provide path] ∧
        t = host.after s pulled) (Triple.emit ⟨rfl, rfl⟩) ?_
      rintro _ _ _ ⟨rfl, rfl⟩
      refine Triple.bind (launchLine?_triple host options verdict _ _) ?_ ?_
      · rintro told verdict _ ⟨rfl, htold, -⟩
        have hround := Round.of_line hquiet hlisted hcourse htold
        have hstate : host.after (host.after s pulled) told =
            host.after s (pulled ++ ([.provide path] ++ told)) := by
          simp [Host.perform]
        have hjoin : ∀ later, EachLaunch (Timely host options packing
              (host.after s (pulled ++ ([.provide path] ++ told))) rest
              (packer.push packing path).2) later →
            EachLaunch (Timely host options packing s tasks packer)
              (pulled ++ ([.provide path] ++ (told ++ later))) := by
          intro later hlater
          have hall := EachLaunch.append ((htold.completed hquiet).mono fun _ _ _ => .complete)
            (hlater.mono fun _ _ _ => Timely.cons hround)
          simpa only [List.append_assoc] using hall
        rw [hstate]
        exact (ih rest counted _ verdict _).mono (fun later _ _ => hjoin later)
          fun later _ _ => hjoin later
      · rintro told e t ⟨htold, -⟩
        exact (htold.completed hquiet).mono fun _ _ _ => .complete

theorem runBatch_timely (fuel : Nat) (php : String) (manyFiles : Bool) (verdict : Verdict) (s : σ) :
    EachLaunch (Timely host options (packingOf host php manyFiles s) s (walkOf options).tasks {})
      (runBatch host fuel options php manyFiles verdict s).events := by
  have hrun : Triple (runBatch host fuel options php manyFiles verdict) s
      (fun events _ _ => EachLaunch (Timely host options (packingOf host php manyFiles s) s
        (walkOf options).tasks {}) events)
      fun events _ _ => EachLaunch (Timely host options (packingOf host php manyFiles s) s
        (walkOf options).tasks {}) events := by
    unfold runBatch
    refine Triple.seq (explain_still options _ s) ?_
    rintro told _ t ⟨htold, ht⟩
    refine Triple.seq (lineLimit_triple host options manyFiles t) ?_
    rintro asked limit u ⟨hasked, hu, rfl⟩
    have hidle := htold.idle.append hasked
    have hstate : u = host.after s (told ++ asked) := by
      rw [hu, ht, host.after_append, host.after_writing s htold]
    rw [ht, hstate]
    refine Triple.bind (batchLoop_timely host options _ fuel _ {} {} verdict _) ?_ ?_
    · rintro later ⟨joint, counters⟩ v hloop
      refine Triple.pure ?_
      simpa [packingOf] using Timely.idle_append hidle hloop
    · intro later e v hloop
      simpa [packingOf] using Timely.idle_append hidle hloop
  exact hrun.events (fun _ _ _ h => h) fun _ _ _ h => h

end

/-- What has been done in a batch when a line is launched. Either the walk has come to the files of
the lines so far and to one file more, or it is over, having listed what it was to list, and all
lines have been launched. -/
inductive InTime {σ : Type} (host : Host σ) (options : Options) (p : Packing) (s : σ)
    (before : List Event) (invocation : Invocation) (after : List Event) : Prop
  | complete (lines : List Line) (file : String) :
      lines = (p.lines (provisions before)).dropLast →
      launches before ++ [invocation] = lines.map (lineInvocation options) →
      provisions before = lines.flatMap Line.files ++ [file] →
      InTime host options p s before invocation after
  | last (log : Walk.Log) :
      launches before ++ [invocation] =
        (p.lines (provisions before)).map (lineInvocation options) →
      (walkOf options).Course (walkOf options).tasks log (provisions before) [] →
      host.listed s before = (walkOf options).answers log →
      provisions after = [] → (∀ path, Event.list path ∉ after) →
      InTime host options p s before invocation after

theorem Timely.inTime {σ : Type} {host : Host σ} {options : Options} {p : Packing} {s : σ}
    {before after : List Event} {invocation : Invocation}
    (h : Timely host options p s (walkOf options).tasks {} before invocation after) :
    InTime host options p s before invocation after := by
  cases h with
  | complete hcompleted =>
    obtain ⟨hlines, hlength⟩ := hcompleted
    obtain ⟨file, hfile⟩ := List.length_eq_one_iff.mp hlength
    have hfiles := Packer.flatMap_files_pushAll p {} (provisions before)
    rw [hfile] at hfiles
    refine .complete _ file rfl ?_ ?_
    · rw [p.dropLast_lines, hlines]
    · rw [p.dropLast_lines]
      simpa using hfiles.symm
  | @last log hrun hafter hnone =>
    obtain ⟨hcourse, hlisted, hlines⟩ := hrun
    refine .last log ?_ ?_ ?_ hafter hnone
    · simpa [Packing.lines] using hlines
    · simpa using hcourse
    · simpa using hlisted

/-- A line is given, and in a batch it is launched, when one file more has been asked for than there
are on the lines so far, or when there are no more files. Hence the lines that have been given are
those of any beginning of the files that has the next file in it, and more files change no line but
the last one. -/
theorem lines_in_time {σ : Type} (p : Packing) (files : Stream'.Seq String) (count : Nat)
    (host : Host σ) (fuel : Nat) (options : Options) (php : String) (manyFiles : Bool)
    (verdict : Verdict) (s : σ) :
    (∀ before line asked after, p.given files count = before ++ (line, asked) :: after →
      Packer.Lookahead files (before.map Prod.fst ++ [line]) asked) ∧
    ((p.given files count).length < count →
      files.get? (((p.given files count).map Prod.fst).flatMap Line.files).length = none) ∧
    (∀ n, (∀ x ∈ p.given files count, x.2 ≤ n) →
      (p.given files count).map Prod.fst = (p.lines (files.take n)).take count) ∧
    (∀ xs ys, (p.lines xs).dropLast <+: p.lines (xs ++ ys)) ∧
    EachLaunch (InTime host options (packingOf host php manyFiles s) s)
      (runBatch host fuel options php manyFiles verdict s).events := by
  have hstreams := (Packer.Taken.start p files).streams count
  refine ⟨?_, hstreams.get?_eq_none, fun n hn => hstreams.map_fst_eq hn, fun xs ys => ?_, ?_⟩
  · intro before line asked after hgiven
    exact hstreams.lookahead hgiven
  · exact (p.dropLast_lines_mono (List.prefix_append xs ys)).trans (List.dropLast_prefix _)
  · exact (runBatch_timely host options fuel php manyFiles verdict s).mono
      fun before invocation after h => h.inTime

end Check

end LintRun
