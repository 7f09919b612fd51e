import Mathlib.Data.List.Basic
import LintRun.Proofs.Coverage
import LintRun.Proofs.Iteration

/-!
# Interleaved iterations

Any number of iterations of a provider take their steps in any order, and between two steps the
world may change. As they share the counters, these count what all of them do from the first step of
the iteration that was begun last (`Session.counters_eq`).
-/

namespace LintRun

-- ---------------------------------------------------------------------------
-- What is listed is known from the answers
-- ---------------------------------------------------------------------------

namespace Walk

variable {walk : Walk} {tasks left last : List Task} {log log' : Log} {files files' : List String}
  {fuel fuel' : Nat} {answers : List (Path × Except OsError (List Entry))} {pull : Pull}

theorem Course.log_unique (h : Course walk tasks log files left)
    (hother : Course walk tasks log' files' last)
    (hanswers : walk.answers log' = walk.answers log) : log' = log := by
  induction h generalizing log' files' with
  | stop => exact List.map_eq_nil_iff.mp hanswers
  | file _ ih =>
    cases hother with
    | stop => exact (List.map_eq_nil_iff.mp hanswers.symm).symm
    | file hother => exact ih hother hanswers
  | directory _ ih =>
    cases hother with
    | stop => cases hanswers
    | directory hother =>
      obtain ⟨hfirst, hrest⟩ := List.cons.inj hanswers
      obtain rfl := Except.ok.inj (Prod.mk.inj hfirst).2
      rw [ih hother hrest]

theorem Pulls.exists_course (h : Pulls walk fuel tasks log answers pull) :
    ∃ left, Course walk tasks log pull.files left ∧
      ((∀ failure, pull ≠ .failed failure) ∧ answers = walk.answers log ∨
        ∃ failure, pull = .failed failure ∧
          answers = walk.answers log ++ [(failure.path, .error failure.error)]) := by
  cases h with
  | file hcourse => exact ⟨_, hcourse, .inl ⟨fun _ h => (nomatch h), rfl⟩⟩
  | ended hends =>
    cases hends with
    | finished hcourse => exact ⟨_, hcourse, .inl ⟨fun _ h => (nomatch h), rfl⟩⟩
    | failed error hcourse => exact ⟨_, hcourse, .inr ⟨_, rfl, rfl⟩⟩
    | exhausted hcourse => exact ⟨_, hcourse, .inl ⟨fun _ h => (nomatch h), rfl⟩⟩

theorem Pulls.log_unique (h : Pulls walk fuel tasks log answers pull)
    (hother : Pulls walk fuel' tasks log' answers pull) : log' = log := by
  obtain ⟨left, hcourse, hanswers⟩ := h.exists_course
  obtain ⟨last, hcourse', hanswers'⟩ := hother.exists_course
  refine hcourse.log_unique hcourse' ?_
  rcases hanswers with ⟨hnone, rfl⟩ | ⟨failure, rfl, rfl⟩
  · rcases hanswers' with ⟨-, hsame⟩ | ⟨failure, hfailed, -⟩
    · exact hsame.symm
    · exact absurd hfailed (hnone failure)
  · rcases hanswers' with ⟨hnone, -⟩ | ⟨other, -, hsame⟩
    · exact absurd rfl (hnone failure)
    · exact (List.append_inj' hsame rfl).1.symm

end Walk

-- ---------------------------------------------------------------------------
-- Moves
-- ---------------------------------------------------------------------------

namespace Provider

/-- What can be done with a provider: an iteration is started or takes a step, in which directories
are listed with some entries, or the world changes. -/
inductive Move
  | start (name : String)
  | advance (name : String) (log : Walk.Log) (pull : Walk.Pull)
  | change

namespace Move

def name? : Move → Option String
  | .start name => some name
  | .advance name _ _ => some name
  | .change => none

def log : Move → Walk.Log
  | .advance _ log _ => log
  | _ => []

def files : Move → List String
  | .advance _ _ pull => pull.files
  | _ => []

end Move

variable {moves before later : List Move} {move first : Move} {name : String}

def listings (moves : List Move) : Walk.Log :=
  moves.flatMap Move.log

def yielded (moves : List Move) : List String :=
  moves.flatMap Move.files

/-- The iteration has been started and has not taken a step since. -/
def IsFresh (moves : List Move) (name : String) : Prop :=
  ∃ before later, moves = before ++ .start name :: later ∧ ∀ move ∈ later, move.name? ≠ some name

def Begins (before : List Move) (move : Move) : Prop :=
  ∃ name log pull, move = .advance name log pull ∧ IsFresh before name

def NoneBegins (before later : List Move) : Prop :=
  ∀ earlier move rest, later = earlier ++ move :: rest → ¬Begins (before ++ earlier) move

theorem isFresh_concat : IsFresh (moves ++ [move]) name ↔
    move = .start name ∨ move.name? ≠ some name ∧ IsFresh moves name := by
  constructor
  · rintro ⟨before, later, hsplit, hlater⟩
    rcases List.eq_nil_or_concat later with rfl | ⟨init, last, rfl⟩
    · obtain ⟨-, hmove⟩ := List.append_inj' hsplit rfl
      exact .inl (List.singleton_inj.mp hmove)
    · rw [List.concat_eq_append, ← List.cons_append, ← List.append_assoc] at hsplit
      obtain ⟨rfl, hmove⟩ := List.append_inj' hsplit rfl
      obtain rfl := List.singleton_inj.mp hmove
      rw [List.concat_eq_append] at hlater
      exact .inr ⟨hlater move (by simp), before, init, rfl,
        fun other hmem => hlater other (List.mem_append_left _ hmem)⟩
  · rintro (rfl | ⟨hother, before, later, rfl, hlater⟩)
    · exact ⟨moves, [], rfl, List.forall_mem_nil _⟩
    · refine ⟨before, later ++ [move], by simp, ?_⟩
      exact List.forall_mem_append.mpr ⟨hlater, List.forall_mem_singleton.mpr hother⟩

theorem noneBegins_nil (before : List Move) : NoneBegins before [] := by
  intro earlier move rest hsplit
  cases earlier <;> cases hsplit

theorem noneBegins_concat : NoneBegins before (later ++ [move]) ↔
    NoneBegins before later ∧ ¬Begins (before ++ later) move := by
  constructor
  · intro h
    refine ⟨fun earlier other rest hsplit => ?_, h later move [] rfl⟩
    exact h earlier other (rest ++ [move]) (by simp [hsplit])
  · rintro ⟨hlater, hmove⟩ earlier other rest hsplit
    rcases List.eq_nil_or_concat rest with rfl | ⟨init, last, rfl⟩
    · obtain ⟨rfl, hlast⟩ := List.append_inj' hsplit rfl
      obtain rfl := List.singleton_inj.mp hlast
      exact hmove
    · rw [List.concat_eq_append, ← List.cons_append, ← List.append_assoc] at hsplit
      obtain ⟨rfl, -⟩ := List.append_inj' hsplit rfl
      exact hlater earlier other init rfl

section
variable {σ : Type} (host : Host σ) (walk : Walk)

/-- What a step lists and how it ends, as the tasks of its iteration have it. An iteration that is
over lists nothing. -/
def Meets (fuel : Nat) (provider : Provider) (name : String) (log : Walk.Log)
    (answers : List (Path × Except OsError (List Entry))) (pull : Walk.Pull) : Prop :=
  match provider.begun? walk name with
  | none => log = [] ∧ answers = [] ∧ pull = .finished
  | some (tasks, _) => walk.Pulls (fuel + 1) tasks log answers pull

inductive Takes : Provider → σ → Move → Provider → σ → Prop
  | start (provider : Provider) (s : σ) (name : String) :
      Takes provider s (.start name) (provider.start name) s
  | advance {provider after : Provider} {s t : σ} {name : String} {fuel : Nat}
      {events : List Event} {log : Walk.Log} {pull : Walk.Pull} :
      provider.advance walk host.runList fuel name s = ⟨events, .ok (pull, after), t⟩ →
      Meets walk fuel provider name log (host.listed s events) pull →
      Takes provider s (.advance name log pull) after t
  | change (provider : Provider) (s t : σ) : Takes provider s .change provider t

inductive Session : List Move → Provider → σ → Prop
  | new (s : σ) : Session [] {} s
  | move {moves : List Move} {move : Move} {provider after : Provider} {s t : σ} :
      Session moves provider s → Takes host walk provider s move after t →
      Session (moves ++ [move]) after t

variable {host} {walk} {provider after : Provider} {s t : σ} {fuel : Nat} {events : List Event}
  {log : Walk.Log} {pull : Walk.Pull}

-- ---------------------------------------------------------------------------
-- One move
-- ---------------------------------------------------------------------------

theorem progress_setProgress_of_ne {other : String} (h : other ≠ name) (progress : Progress) :
    (provider.setProgress name progress).progress other = provider.progress other := by
  have hname : (other == name) = false := by simpa using h
  have hkept : ∀ iterations : List (String × Progress),
      (iterations.filter fun iteration => iteration.1 != name).lookup other =
        iterations.lookup other := by
    intro iterations
    induction iterations with
    | nil => rfl
    | cons first rest ih =>
      obtain ⟨key, value⟩ := first
      by_cases hkey : key = name
      · simp [hkey, List.lookup_cons, hname, ← ih]
      · simp [hkey, List.lookup_cons, ih]
  unfold Provider.progress setProgress
  rw [List.lookup_cons, hname]
  exact congrArg (Option.getD · .over) (hkept provider.iterations)

@[simp] theorem progress_withCounters (counters : Counters) (name : String) :
    Provider.progress { provider with counters } name = provider.progress name := rfl

theorem begun?_eq_none_iff : provider.begun? walk name = none ↔ provider.progress name = .over := by
  unfold begun?
  cases provider.progress name <;> simp

theorem progressAfter_ne_fresh (pull : Walk.Pull) : progressAfter pull ≠ .fresh := by
  cases pull <;> exact fun h => by cases h

variable (host) in
theorem exists_advance {tasks : List Walk.Task} {counters : Counters}
    (hbegun : provider.begun? walk name = some (tasks, counters)) (fuel : Nat) (s : σ) :
    ∃ events pull t log,
      provider.advance walk host.runList fuel name s =
        ⟨events, .ok (pull, { provider.setProgress name (progressAfter pull) with
          counters := walk.countersAfter counters log pull.files }), t⟩ ∧
      walk.Pulls (fuel + 1) tasks log (host.listed s events) pull := by
  obtain ⟨⟨pull, counted⟩, hresult, -, -, log, hpulls, hcounted⟩ :=
    (walk.next_triple host fuel tasks counters (s := s)).exists_ok
  dsimp only at hcounted
  refine ⟨_, pull, (walk.next host.runList fuel tasks counters s).state, log, ?_, hpulls⟩
  unfold advance
  rw [hbegun, ← hcounted]
  simp [Bind.bind, Run.andThen, hresult, Pure.pure, Run.done]

theorem after_advance {tasks : List Walk.Task} {counters : Counters}
    (hbegun : provider.begun? walk name = some (tasks, counters))
    (h : provider.advance walk host.runList fuel name s = ⟨events, .ok (pull, after), t⟩)
    (hpulls : walk.Pulls (fuel + 1) tasks log (host.listed s events) pull) :
    after = { provider.setProgress name (progressAfter pull) with
      counters := walk.countersAfter counters log pull.files } := by
  obtain ⟨_, _, _, log', hadvance, hpulls'⟩ := exists_advance host hbegun fuel s
  rw [h] at hadvance
  obtain ⟨rfl, hvalue, rfl⟩ := Trace.mk.inj hadvance
  obtain ⟨rfl, rfl⟩ := Prod.mk.inj (Except.ok.inj hvalue)
  rw [hpulls.log_unique hpulls']

variable (host) in
theorem advance_over (hbegun : provider.begun? walk name = none) (fuel : Nat) (s : σ) :
    provider.advance walk host.runList fuel name s = ⟨[], .ok (.finished, provider), s⟩ := by
  unfold advance
  rw [hbegun]
  rfl

/-- What a move does to the progress of iterations and to the counters. -/
inductive Effect (walk : Walk) (provider : Provider) : Move → Provider → Prop
  | start (name : String) : Effect walk provider (.start name) (provider.start name)
  | idle {name : String} : provider.begun? walk name = none →
      Effect walk provider (.advance name [] .finished) provider
  | step {name : String} {fuel : Nat} {tasks : List Walk.Task} {counters : Counters}
      {log : Walk.Log} {answers : List (Path × Except OsError (List Entry))} {pull : Walk.Pull} :
      provider.begun? walk name = some (tasks, counters) →
      walk.Pulls fuel tasks log answers pull →
      Effect walk provider (.advance name log pull)
        { provider.setProgress name (progressAfter pull) with
          counters := walk.countersAfter counters log pull.files }
  | change : Effect walk provider .change provider

theorem Takes.effect (h : Takes host walk provider s move after t) :
    Effect walk provider move after := by
  cases h with
  | start => exact .start _
  | change => exact .change
  | @advance _ _ _ name _ _ _ _ hadvance hmeets =>
    unfold Meets at hmeets
    cases hbegun : provider.begun? walk name with
    | none =>
      rw [hbegun] at hmeets
      obtain ⟨rfl, -, rfl⟩ := hmeets
      rw [advance_over host hbegun] at hadvance
      obtain ⟨-, hvalue, -⟩ := Trace.mk.inj hadvance
      obtain ⟨-, rfl⟩ := Prod.mk.inj (Except.ok.inj hvalue)
      exact .idle hbegun
    | some begun =>
      obtain ⟨tasks, counters⟩ := begun
      rw [hbegun] at hmeets
      dsimp only at hmeets
      rw [after_advance hbegun hadvance hmeets]
      exact .step hbegun hmeets

-- ---------------------------------------------------------------------------
-- All moves
-- ---------------------------------------------------------------------------

/-- An iteration waits for its first step just if it has been started and has taken none since. -/
theorem Session.fresh_iff (h : Session host walk moves provider s) (name : String) :
    provider.progress name = .fresh ↔ IsFresh moves name := by
  induction h with
  | new =>
    refine iff_of_false (fun hfresh => by cases hfresh) ?_
    rintro ⟨before, later, hsplit, -⟩
    cases before <;> cases hsplit
  | move _ hmove ih =>
    rw [isFresh_concat, ← ih]
    cases hmove.effect with
    | start other =>
      by_cases hother : name = other
      · subst hother
        simp [Provider.start]
      · simp [Provider.start, progress_setProgress_of_ne hother, Move.name?, Ne.symm hother]
    | change => simp [Move.name?]
    | @idle other hover =>
      by_cases hother : name = other
      · subst hother
        have hold := (begun?_eq_none_iff.mp hover)
        simp [Move.name?, hold]
      · simp [Move.name?, Ne.symm hother]
    | @step other _ _ _ _ _ pull _ _ =>
      by_cases hother : name = other
      · subst hother
        simp [Move.name?, progressAfter_ne_fresh pull]
      · simp [Move.name?, Ne.symm hother, progress_setProgress_of_ne hother]

theorem Effect.counters_eq_of_not_fresh (h : Effect walk provider move after)
    (hold : ∀ name log pull, move = .advance name log pull → provider.progress name ≠ .fresh) :
    after.counters = walk.countersAfter provider.counters move.log move.files := by
  cases h with
  | start | change | idle => rfl
  | @step name _ _ _ _ _ _ hbegun hpulls =>
    have hrunning := hold name _ _ rfl
    unfold begun? at hbegun
    split at hbegun
    · contradiction
    · obtain ⟨-, rfl⟩ := Prod.mk.inj (Option.some.inj hbegun)
      rfl
    · cases hbegun

/-- While no iteration is running, a move that is no first step counts nothing, and none is running
after it. -/
theorem Effect.keeps (h : Effect walk provider move after)
    (hold : ∀ name log pull, move = .advance name log pull → provider.progress name ≠ .fresh)
    (hidle : ∀ name tasks, provider.progress name ≠ .running tasks) :
    after.counters = provider.counters ∧ ∀ name tasks, after.progress name ≠ .running tasks := by
  cases h with
  | start name =>
    refine ⟨rfl, fun other tasks hrunning => ?_⟩
    by_cases hother : other = name
    · subst hother
      simp [Provider.start] at hrunning
    · rw [Provider.start, progress_setProgress_of_ne hother] at hrunning
      exact hidle other tasks hrunning
  | change => exact ⟨rfl, hidle⟩
  | idle => exact ⟨rfl, hidle⟩
  | @step name _ _ _ _ _ _ hbegun _ =>
    -- An iteration that is neither new nor running takes no step.
    have hover : provider.progress name = .over := by
      cases hprogress : provider.progress name with
      | fresh => exact absurd hprogress (hold name _ _ rfl)
      | running tasks => exact absurd hprogress (hidle name tasks)
      | _ => rfl
    rw [begun?_eq_none_iff.mpr hover] at hbegun
    cases hbegun

theorem Effect.counters_eq_of_fresh (h : Effect walk provider (.advance name log pull) after)
    (hfresh : provider.progress name = .fresh) :
    after.counters = walk.countersAfter {} log pull.files := by
  cases h with
  | idle hover =>
    rw [begun?_eq_none_iff, hfresh] at hover
    cases hover
  | step hbegun hpulls =>
    unfold begun? at hbegun
    rw [hfresh] at hbegun
    obtain ⟨-, rfl⟩ := Prod.mk.inj (Option.some.inj hbegun)
    rfl

theorem countersAfter_concat (moves : List Move) (move : Move) (counters : Counters) :
    walk.countersAfter counters (listings (moves ++ [move])) (yielded (moves ++ [move])) =
      walk.countersAfter (walk.countersAfter counters (listings moves) (yielded moves)) move.log
        move.files := by
  rw [← Walk.countersAfter_append]
  simp [listings, yielded]

/-- No iteration has been begun, and nothing is counted; or the counters count what has been done
since the latest first step. -/
theorem Session.counted (h : Session host walk moves provider s) :
    (NoneBegins [] moves ∧ provider.counters = {} ∧
      ∀ name tasks, provider.progress name ≠ .running tasks) ∨
    ∃ before first later, moves = before ++ first :: later ∧ Begins before first ∧
      NoneBegins (before ++ [first]) later ∧
      provider.counters =
        walk.countersAfter {} (listings (first :: later)) (yielded (first :: later)) := by
  induction h with
  | new => exact .inl ⟨noneBegins_nil [], rfl, fun name tasks hrunning => by cases hrunning⟩
  | @move moves move provider after s t hsession hmove ih =>
    have heffect := hmove.effect
    by_cases hbegins : Begins moves move
    · obtain ⟨name, log, pull, rfl, hfresh⟩ := hbegins
      refine .inr ⟨moves, _, [], rfl, ⟨name, log, pull, rfl, hfresh⟩, noneBegins_nil _, ?_⟩
      rw [heffect.counters_eq_of_fresh ((hsession.fresh_iff name).mpr hfresh)]
      simp [listings, yielded, Move.log, Move.files]
    · have hold : ∀ name log pull, move = .advance name log pull →
          provider.progress name ≠ .fresh := by
        rintro name log pull rfl hfresh
        exact hbegins ⟨name, log, pull, rfl, (hsession.fresh_iff name).mp hfresh⟩
      rcases ih with ⟨hnone, hzero, hidle⟩ | ⟨before, first, later, rfl, hfirst, hnone, hcounters⟩
      · obtain ⟨hsame, hstill⟩ := heffect.keeps hold hidle
        exact .inl ⟨noneBegins_concat.mpr ⟨hnone, hbegins⟩, hsame.trans hzero, hstill⟩
      · refine .inr ⟨before, first, later ++ [move], by simp, hfirst, ?_, ?_⟩
        · refine noneBegins_concat.mpr ⟨hnone, ?_⟩
          simpa using hbegins
        · rw [heffect.counters_eq_of_not_fresh hold, hcounters, ← List.cons_append,
            countersAfter_concat]

-- ---------------------------------------------------------------------------
-- One iteration alone
-- ---------------------------------------------------------------------------

/-- No iteration takes a step but one, which is not started anew and does not fail. -/
structure Alone (name : String) (moves : List Move) : Prop where
  name_eq : ∀ {other log pull}, .advance other log pull ∈ moves → other = name
  not_restarted : .start name ∉ moves
  unbroken : ∀ {log pull}, .advance name log pull ∈ moves →
    (∃ path rest, pull = .file path rest) ∨ pull = .finished

theorem Alone.of_append (h : Alone name (moves ++ later)) : Alone name moves where
  name_eq hmem := h.name_eq (List.mem_append_left _ hmem)
  not_restarted hmem := h.not_restarted (List.mem_append_left _ hmem)
  unbroken hmem := h.unbroken (List.mem_append_left _ hmem)

variable (walk) in
/-- The moves are a course of the walk, and the iteration goes on with the tasks that are left or is
over and has none left. -/
def Stage (provider : Provider) (name : String) (moves : List Move) : Prop :=
  ∃ left, walk.Course walk.tasks (listings moves) (yielded moves) left ∧
    (provider.progress name = .running left ∧ (∀ log, .advance name log .finished ∉ moves) ∨
      provider.progress name = .over ∧ left = [])

theorem Stage.step {tasks : List Walk.Task} {counters : Counters}
    {answers : List (Path × Except OsError (List Entry))}
    (hcourse : walk.Course walk.tasks (listings moves) (yielded moves) tasks)
    (hunfinished : ∀ log, .advance name log .finished ∉ moves)
    (hpulls : walk.Pulls fuel tasks log answers pull)
    (hpull : (∃ path rest, pull = .file path rest) ∨ pull = .finished) :
    Stage walk { provider.setProgress name (progressAfter pull) with counters } name
      (moves ++ [.advance name log pull]) := by
  have hlistings : listings (moves ++ [.advance name log pull]) = listings moves ++ log := by
    simp [listings, Move.log]
  have hyielded : yielded (moves ++ [.advance name log pull]) = yielded moves ++ pull.files := by
    simp [yielded, Move.files]
  unfold Stage
  rw [hlistings, hyielded, progress_withCounters, progress_setProgress]
  cases hpulls with
  | @file path rest hnext =>
    refine ⟨rest, hcourse.trans hnext, .inl ⟨rfl, fun other hmem => ?_⟩⟩
    rcases List.mem_append.mp hmem with hmem | hmem
    · exact hunfinished other hmem
    · cases List.mem_singleton.mp hmem
  | ended hends =>
    cases hends with
    | finished hlast => exact ⟨[], hcourse.trans hlast, .inr ⟨rfl, rfl⟩⟩
    | failed => rcases hpull with ⟨_, _, heq⟩ | heq <;> cases heq
    | exhausted => rcases hpull with ⟨_, _, heq⟩ | heq <;> cases heq

theorem Stage.keep (h : Stage walk provider name moves) (hlog : move.log = [])
    (hfiles : move.files = []) (hprogress : after.progress name = provider.progress name)
    (hunfinished : provider.progress name = .over ∨
      ∀ log, move ≠ .advance name log .finished) :
    Stage walk after name (moves ++ [move]) := by
  obtain ⟨left, hcourse, hstage⟩ := h
  have hlistings : listings (moves ++ [move]) = listings moves := by simp [listings, hlog]
  have hyielded : yielded (moves ++ [move]) = yielded moves := by simp [yielded, hfiles]
  refine ⟨left, by rwa [hlistings, hyielded], ?_⟩
  rw [hprogress]
  rcases hstage with ⟨hrunning, hnone⟩ | hover
  · refine .inl ⟨hrunning, fun log hmem => ?_⟩
    rcases List.mem_append.mp hmem with hmem | hmem
    · exact hnone log hmem
    · rcases hunfinished with hover | hother
      · rw [hrunning] at hover
        cases hover
      · exact hother log (List.mem_singleton.mp hmem).symm
  · exact .inr hover

/-- An iteration that takes its steps alone, from its first step on, is in a course of the walk. -/
theorem Session.stage (h : Session host walk moves provider s) (hfresh : IsFresh before name)
    (hsplit : moves = before ++ .advance name log pull :: later)
    (halone : Alone name (.advance name log pull :: later)) :
    Stage walk provider name (.advance name log pull :: later) := by
  induction h generalizing later with
  | new => cases before <;> cases hsplit
  | @move moves move provider after s t hsession hmove ih =>
    have heffect := hmove.effect
    rcases List.eq_nil_or_concat later with rfl | ⟨init, last, rfl⟩
    · obtain ⟨rfl, hmove⟩ := List.append_inj' hsplit rfl
      obtain rfl := List.singleton_inj.mp hmove
      have hnew := (hsession.fresh_iff name).mpr hfresh
      have hpull := halone.unbroken (List.mem_singleton_self _)
      cases heffect with
      | idle hover =>
        rw [begun?_eq_none_iff, hnew] at hover
        cases hover
      | step hbegun hpulls =>
        unfold begun? at hbegun
        rw [hnew] at hbegun
        obtain ⟨rfl, -⟩ := Prod.mk.inj (Option.some.inj hbegun)
        exact Stage.step (.stop walk.tasks) (fun _ => List.not_mem_nil) hpulls hpull
    · rw [List.concat_eq_append] at hsplit halone ⊢
      rw [← List.cons_append, ← List.append_assoc] at hsplit
      obtain ⟨rfl, hmove⟩ := List.append_inj' hsplit rfl
      obtain rfl := List.singleton_inj.mp hmove
      rw [← List.cons_append] at halone ⊢
      have hstage := ih rfl halone.of_append
      have hlast : move ∈ .advance name log pull :: init ++ [move] := by simp
      cases heffect with
      | start other =>
        have hother : name ≠ other := by
          rintro rfl
          exact halone.not_restarted hlast
        exact hstage.keep rfl rfl (progress_setProgress_of_ne hother _)
          (.inr fun _ h => by cases h)
      | change => exact hstage.keep rfl rfl rfl (.inr fun _ h => by cases h)
      | idle hover =>
        obtain rfl := halone.name_eq hlast
        exact hstage.keep rfl rfl rfl (.inl (begun?_eq_none_iff.mp hover))
      | step hbegun hpulls =>
        obtain rfl := halone.name_eq hlast
        obtain ⟨left, hcourse, ⟨hrunning, hnone⟩ | ⟨hover, -⟩⟩ := hstage
        · unfold begun? at hbegun
          rw [hrunning] at hbegun
          obtain ⟨rfl, -⟩ := Prod.mk.inj (Option.some.inj hbegun)
          exact Stage.step hcourse hnone hpulls (halone.unbroken hlast)
        · rw [begun?_eq_none_iff.mpr hover] at hbegun
          cases hbegun

-- ---------------------------------------------------------------------------
-- The counters
-- ---------------------------------------------------------------------------

/-- An iteration that has taken a step is new again only if it has been started since. -/
theorem start_mem_of_isFresh (hname : move.name? = some name) (hmove : move ≠ .start name)
    (h : IsFresh (moves ++ move :: later) name) : .start name ∈ later := by
  induction later using List.reverseRecOn with
  | nil =>
    rcases isFresh_concat.mp h with hstart | ⟨hother, -⟩
    · exact absurd hstart hmove
    · exact absurd hname hother
  | append_singleton init last ih =>
    rw [← List.cons_append, ← List.append_assoc] at h
    rcases isFresh_concat.mp h with rfl | ⟨-, hinit⟩
    · exact List.mem_append_right _ (List.mem_singleton_self _)
    · exact List.mem_append_left _ (ih hinit)

theorem Alone.noneBegins (h : Alone name (.advance name log pull :: later)) :
    NoneBegins (before ++ [.advance name log pull]) later := by
  rintro earlier move rest rfl ⟨other, log', pull', rfl, hfresh⟩
  obtain rfl := h.name_eq (List.mem_cons_of_mem _ (List.mem_append_right _ List.mem_cons_self))
  rw [List.append_assoc, List.singleton_append] at hfresh
  have hstart := start_mem_of_isFresh rfl (fun heq => by cases heq) hfresh
  exact h.not_restarted (List.mem_cons_of_mem _ (List.mem_append_left _ hstart))

theorem latest_unique {before' later' : List Move} {first' : Move}
    (hsplit : before ++ first :: later = before' ++ first' :: later')
    (hfirst : Begins before first) (hnone : NoneBegins (before ++ [first]) later)
    (hfirst' : Begins before' first') (hnone' : NoneBegins (before' ++ [first']) later') :
    first :: later = first' :: later' := by
  rcases List.append_eq_append_iff.mp hsplit with ⟨more, rfl, hmore⟩ | ⟨more, rfl, hmore⟩
  · cases more with
    | nil => exact hmore
    | cons other more =>
      obtain ⟨rfl, rfl⟩ := List.cons.inj hmore
      exact absurd (by simpa using hfirst') (hnone more first' later' rfl)
  · cases more with
    | nil => exact hmore.symm
    | cons other more =>
      obtain ⟨rfl, rfl⟩ := List.cons.inj hmore
      exact absurd (by simpa using hfirst) (hnone' more first later rfl)

/-- The counters count what all iterations have done since the latest first step of one. In whatever
way steps are taken, they can all be taken, and an iteration that comes to its end alone is counted
as it is, whatever came before it. -/
theorem Session.counters_eq (h : Session host walk moves provider s) :
    (NoneBegins [] moves ∧ provider.counters = ⟨0, 0⟩ ∨
      ∃ before first later, moves = before ++ first :: later ∧ Begins before first ∧
        NoneBegins (before ++ [first]) later ∧
        provider.counters = ⟨(yielded (first :: later)).length,
          (walk.skippedItems (listings (first :: later))).length⟩) ∧
    (∀ name, (provider.start name).counters = provider.counters ∧
      ∀ other, other ≠ name → (provider.start name).progress other = provider.progress other) ∧
    (∀ name fuel, ∃ log pull after,
      (provider.advance walk host.runList fuel name s).result = .ok (pull, after) ∧
      Takes host walk provider s (.advance name log pull) after
        (provider.advance walk host.runList fuel name s).state) ∧
    ∀ before name log pull later, moves = before ++ .advance name log pull :: later →
      IsFresh before name → Alone name (.advance name log pull :: later) →
      (∃ log', .advance name log' .finished ∈ .advance name log pull :: later) →
      walk.Course walk.tasks (listings (.advance name log pull :: later))
        (yielded (.advance name log pull :: later)) [] ∧
      provider.counters = ⟨(yielded (.advance name log pull :: later)).length,
        (walk.skippedItems (listings (.advance name log pull :: later))).length⟩ := by
  have hcounters : ∀ moves, walk.countersAfter {} (listings moves) (yielded moves) =
      ⟨(yielded moves).length, (walk.skippedItems (listings moves)).length⟩ := by
    intro moves
    simp [Walk.countersAfter]
  refine ⟨?_, fun _ => ⟨rfl, fun _ hother => progress_setProgress_of_ne hother _⟩, ?_, ?_⟩
  · rcases h.counted with ⟨hnone, hzero, -⟩ | ⟨before, first, later, hsplit, hfirst, hnone, hcount⟩
    · exact .inl ⟨hnone, hzero⟩
    · exact .inr ⟨before, first, later, hsplit, hfirst, hnone, hcount.trans (hcounters _)⟩
  · intro name fuel
    cases hbegun : provider.begun? walk name with
    | none =>
      have hadvance := advance_over host hbegun fuel s
      refine ⟨[], .finished, provider, by rw [hadvance], ?_⟩
      rw [hadvance]
      refine .advance hadvance ?_
      simp [Meets, hbegun]
    | some begun =>
      obtain ⟨tasks, counters⟩ := begun
      obtain ⟨events, pull, t, log, hadvance, hpulls⟩ := exists_advance host hbegun fuel s
      refine ⟨log, pull, _, by rw [hadvance], ?_⟩
      rw [hadvance]
      refine .advance hadvance ?_
      simpa [Meets, hbegun] using hpulls
  · rintro before name log pull later rfl hfresh halone ⟨log', hfinished⟩
    have hbegins : Begins before (.advance name log pull) := ⟨name, log, pull, rfl, hfresh⟩
    refine ⟨?_, ?_⟩
    · obtain ⟨left, hcourse, ⟨-, hnone⟩ | ⟨-, rfl⟩⟩ := h.stage hfresh rfl halone
      · exact absurd hfinished (hnone log')
      · exact hcourse
    · rcases h.counted with ⟨hnone, -⟩ | ⟨before', first, later', hsplit, hfirst, hnone, hcount⟩
      · exact absurd hbegins (hnone before _ later rfl)
      · rw [hcount, ← latest_unique hsplit hbegins halone.noneBegins hfirst hnone]
        exact hcounters _

end

def skippingWalk : Walk := ⟨sampleDirectory, ["a.php"], ["b/c.php"], "/"⟩

def sampleLog : Walk.Log := [("", [⟨"b", true⟩]), ("b", [⟨"c.php", false⟩])]

def sampleFailure : ListingFailure :=
  ⟨sampleDirectory, .numbered 2 (some "No such file or directory") (some (.name "/w"))⟩

def emptyScript : Script := { tree := { root := .directory [] } }

def failingMoves : List Move := [
  .start "x", .start "y",
  .advance "y" [] (.file "a.php" [.directory ""]),
  .advance "y" [] (.failed sampleFailure),
  .change]

def finishingMoves : List Move := [
  .advance "x" [] (.file "a.php" [.directory ""]),
  .advance "x" sampleLog .finished]

/-- The second step of an iteration fails. Then there is a directory to list. -/
theorem failingMoves_session : Session sampleHost skippingWalk failingMoves
    ⟨[("y", .over), ("x", .fresh)], ⟨1, 0⟩⟩ sampleScript := by
  have hstarted : Session sampleHost skippingWalk [.start "x", .start "y"]
      ⟨[("y", .fresh), ("x", .fresh)], ⟨0, 0⟩⟩ emptyScript :=
    ((Session.new emptyScript).move (.start _ _ "x")).move (.start _ _ "y")
  have hfile : Provider.advance skippingWalk sampleHost.runList 2
      ⟨[("y", .fresh), ("x", .fresh)], ⟨0, 0⟩⟩ "y" emptyScript =
      ⟨[], .ok (.file "a.php" [.directory ""],
        ⟨[("y", .running [.directory ""]), ("x", .fresh)], ⟨1, 0⟩⟩), emptyScript⟩ := by cbv
  have hfailure : Provider.advance skippingWalk sampleHost.runList 2
      ⟨[("y", .running [.directory ""]), ("x", .fresh)], ⟨1, 0⟩⟩ "y" emptyScript =
      ⟨[.list sampleDirectory], .ok (.failed sampleFailure,
        ⟨[("y", .over), ("x", .fresh)], ⟨1, 0⟩⟩), emptyScript⟩ := by cbv
  have hlisted : sampleHost.listed emptyScript [.list sampleDirectory] =
      [(skippingWalk.pathOf "", .error sampleFailure.error)] := by cbv
  have hpulls : skippingWalk.Pulls 3 [.directory ""] []
      (sampleHost.listed emptyScript [.list sampleDirectory]) (.failed sampleFailure) := by
    rw [hlisted]
    exact .ended (.failed sampleFailure.error (.stop [.directory ""]))
  have hrunning := hstarted.move (.advance hfile (Walk.Pulls.file (.file (.stop _))))
  exact (hrunning.move (.advance hfailure hpulls)).move (.change _ _ sampleScript)

theorem sampleLog_course : skippingWalk.Course [.directory ""] sampleLog [] [] := by
  have houter : skippingWalk.expand "" [⟨"b", true⟩] = [.directory "b"] := by cbv
  have hinner : skippingWalk.expand "b" [⟨"c.php", false⟩] = [] := by cbv
  refine .directory ?_
  rw [houter]
  refine .directory ?_
  rw [hinner]
  exact .stop []

theorem finishingMoves_session : Session sampleHost skippingWalk (failingMoves ++ finishingMoves)
    ⟨[("x", .over), ("y", .over)], ⟨1, 1⟩⟩ sampleScript := by
  have hfile : Provider.advance skippingWalk sampleHost.runList 2
      ⟨[("y", .over), ("x", .fresh)], ⟨1, 0⟩⟩ "x" sampleScript =
      ⟨[], .ok (.file "a.php" [.directory ""],
        ⟨[("x", .running [.directory ""]), ("y", .over)], ⟨1, 0⟩⟩), sampleScript⟩ := by cbv
  have hfinished : Provider.advance skippingWalk sampleHost.runList 2
      ⟨[("x", .running [.directory ""]), ("y", .over)], ⟨1, 0⟩⟩ "x" sampleScript =
      ⟨[.list sampleDirectory, .list ⟨.root, ["w", "b"]⟩], .ok (.finished,
        ⟨[("x", .over), ("y", .over)], ⟨1, 1⟩⟩), sampleScript⟩ := by cbv
  have hlisted : sampleHost.listed sampleScript
      [.list sampleDirectory, .list ⟨.root, ["w", "b"]⟩] = skippingWalk.answers sampleLog := by cbv
  have hpulls : skippingWalk.Pulls 3 [.directory ""] sampleLog (sampleHost.listed sampleScript
      [.list sampleDirectory, .list ⟨.root, ["w", "b"]⟩]) .finished := by
    rw [hlisted]
    exact .ended (.finished sampleLog_course)
  have hrunning := failingMoves_session.move (.advance hfile (Walk.Pulls.file (.file (.stop _))))
  exact hrunning.move (.advance hfinished hpulls)

theorem Session.counters_eq_sample :
    ∃ provider, Session sampleHost skippingWalk (failingMoves ++ finishingMoves) provider
        sampleScript ∧
      (∃ name, IsFresh failingMoves name ∧ Alone name finishingMoves) ∧
      skippingWalk.Course skippingWalk.tasks (listings finishingMoves) (yielded finishingMoves) [] ∧
      provider.counters = ⟨1, 1⟩ := by
  have hfresh : IsFresh failingMoves "x" := by
    refine ⟨[], failingMoves.drop 1, rfl, ?_⟩
    simp [failingMoves, Move.name?]
  have halone : Alone "x" finishingMoves := by
    refine ⟨fun hmem => ?_, by simp [finishingMoves], fun hmem => ?_⟩
    · rcases List.mem_pair.mp hmem with heq | heq <;> cases heq <;> rfl
    · rcases List.mem_pair.mp hmem with heq | heq <;> cases heq <;> simp
  obtain ⟨-, -, -, halone'⟩ := Session.counters_eq finishingMoves_session
  obtain ⟨hcourse, hcounters⟩ := halone' failingMoves "x" [] _ _ rfl hfresh halone
    ⟨sampleLog, by simp⟩
  exact ⟨_, finishingMoves_session, ⟨"x", hfresh, halone⟩, hcourse, hcounters.trans (by cbv)⟩

end Provider

end LintRun
