import LintRun.Check
import LintRun.Proofs.RunLaws

/-!
# What runs emit

`run.Emits P`: all events of a run satisfy `P`, however it ends. Once its strategy is known, a check
lists, comes to files and launches commands; what holds of these events, of what follows a launch
and of the line that is told before it holds of all its events (`Check.Covers`).
-/

namespace LintRun

open Run (Triple)

variable {σ α β : Type}

namespace Run

/-- All events of a run satisfy `P`, however it ends. -/
def Emits (run : Run σ α) (P : Event → Prop) : Prop :=
  ∀ s, Triple run s (fun events _ _ => ∀ event ∈ events, P event)
    fun events _ _ => ∀ event ∈ events, P event

variable {P : Event → Prop} {run : Run σ α} {f : α → Run σ β}

theorem Emits.pure (a : α) : Emits (pure a : Run σ α) P :=
  fun _ => Triple.pure (List.forall_mem_nil _)

theorem Emits.fail (failure : Failure) : Emits (Run.fail failure : Run σ α) P :=
  fun _ => Triple.fail (List.forall_mem_nil _)

theorem Emits.act (g : σ → α × σ) : Emits (Run.act g) P :=
  fun _ => Triple.act (List.forall_mem_nil _)

theorem Emits.lift (a : Except Failure α) : Emits (Run.lift a : Run σ α) P := by
  cases a with
  | ok a => exact .pure a
  | error failure => exact .fail failure

theorem Emits.emit {event : Event} (h : P event) : Emits (Run.emit event : Run σ Unit) P :=
  fun _ => Triple.emit (List.forall_mem_singleton.mpr h)

theorem Emits.bind (h : run.Emits P) (hnext : ∀ a, (f a).Emits P) : (run >>= f).Emits P := by
  intro s
  refine Triple.bind (h s) ?_ fun _ _ _ herror => herror
  intro events a t hevents
  refine (hnext a t).mono ?_ ?_
  · intro later b u hlater
    exact List.forall_mem_append.mpr ⟨hevents, hlater⟩
  · intro later e u hlater
    exact List.forall_mem_append.mpr ⟨hevents, hlater⟩

theorem echoAll_emits {lines : List (String × Channel)}
    (h : ∀ line ∈ lines, P (.echo line.1 line.2)) : Emits (echoAll lines : Run σ Unit) P := by
  induction lines with
  | nil => exact .pure ()
  | cons line rest ih =>
    refine (Emits.emit (h line List.mem_cons_self)).bind fun _ => ?_
    exact ih fun other hmem => h other (List.mem_cons_of_mem _ hmem)

theorem forwardAll_emits (h : ∀ bytes channel, P (.forward bytes channel))
    (pieces : List (Text.Bytes × Channel)) : Emits (forwardAll pieces : Run σ Unit) P := by
  induction pieces with
  | nil => exact .pure ()
  | cons piece rest ih => exact (Emits.emit (h piece.1 piece.2)).bind fun _ => ih

end Run

open Run (Emits)

variable (host : Host σ) {P : Event → Prop}

theorem Host.runProbe_emits (hprobe : ∀ command, P (.probe command)) (command : List String) :
    Emits (host.runProbe command) P :=
  (Emits.emit (hprobe command)).bind fun _ => .act _

theorem Host.version_emits (hprobe : ∀ command, P (.probe command)) {php : String} :
    Emits (host.version php) P := by
  refine (host.runProbe_emits hprobe _).bind fun answer => ?_
  cases answer with
  | ok completed => exact .lift _
  | error failure => cases failure <;> exact .fail _

theorem Host.ceiling_emits (hprobe : ∀ command, P (.probe command)) : Emits host.ceiling P := by
  unfold Host.ceiling
  cases host.platform with
  | windows => exact .pure _
  | posix => exact (host.runProbe_emits hprobe _).bind fun answer => .pure _

theorem Host.runLaunch_emits {invocation : Invocation} (hlaunch : P (.launch invocation))
    (hforward : ∀ bytes channel, P (.forward bytes channel))
    (hfinish : ∀ result, P (.finish invocation result)) :
    Emits (host.runLaunch invocation) P := by
  refine (Emits.emit hlaunch).bind fun _ => ?_
  refine (Emits.act _).bind fun launched => ?_
  refine (Run.forwardAll_emits hforward _).bind fun _ => ?_
  cases launched.result with
  | ok result => exact (Emits.emit (hfinish result)).bind fun _ => .pure result
  | error failure => cases failure <;> exact .fail _

theorem Walk.next_emits (hlist : ∀ path, P (.list path)) (walk : Walk) (fuel : Nat)
    (tasks : List Walk.Task) (counters : Counters) :
    Emits (walk.next host.runList fuel tasks counters) P := by
  fun_induction Walk.next walk host.runList fuel tasks counters with
  | case1 | case2 | case3 => exact .pure _
  | case4 fuel path rest counters ih =>
    have hlisting : Emits (host.runList (walk.pathOf path)) P :=
      (Emits.emit (hlist _)).bind fun _ => .act _
    refine hlisting.bind fun listing => ?_
    cases listing with
    | error e => exact .pure _
    | ok entries => exact ih entries

namespace Check

/-- What holds of the events of a check once its strategy is known. -/
structure Covers (options : Options) (P : Event → Prop) : Prop where
  list : ∀ path, P (.list path)
  provide : ∀ file, P (.provide file)
  executing : ∀ line, P (.echo ("Executing: " ++ line) .stdout)
  launch : ∀ invocation, invocation.timeout = options.timeout → P (.launch invocation)
  forward : ∀ bytes channel, P (.forward bytes channel)
  finish : ∀ invocation result, P (.finish invocation result)

variable {options : Options}

theorem explain_emits {lines : List (String × Channel)}
    (h : ∀ line ∈ lines, P (.echo line.1 line.2)) :
    Emits (explain options lines : Run σ Unit) P := by
  unfold explain
  split
  · exact Run.echoAll_emits h
  · exact .pure ()

theorem readCounts_emits (output : Text.Bytes) :
    Emits (readCounts output : Run σ (Nat × Nat)) P := by
  unfold readCounts
  cases Report.counts output with
  | ok counts => exact .pure _
  | error number => exact .fail _

variable (h : Covers options P)

include h

theorem launchLine?_emits (verdict : Verdict) (line : Option Line) :
    Emits (launchLine? host options verdict line) P := by
  cases line with
  | none => exact .pure verdict
  | some line =>
    refine (explain_emits (List.forall_mem_singleton.mpr (h.executing _))).bind fun _ => ?_
    exact (host.runLaunch_emits (h.launch _ rfl) h.forward (h.finish _)).bind fun _ => .pure _

theorem batchLoop_emits (packing : Packing) (fuel : Nat) (tasks : List Walk.Task)
    (counters : Counters) (packer : Packer) (verdict : Verdict) :
    Emits (batchLoop host options packing fuel tasks counters packer verdict) P := by
  induction fuel generalizing tasks counters packer verdict with
  | zero => exact .fail _
  | succ fuel ih =>
    rw [batchLoop]
    refine (Walk.next_emits host h.list _ fuel tasks counters).bind ?_
    rintro ⟨pull, counters⟩
    cases pull with
    | file path rest =>
      refine (Emits.emit (h.provide path)).bind fun _ => ?_
      refine (launchLine?_emits host h verdict _).bind fun verdict => ?_
      exact ih rest counters _ verdict
    | finished => exact (launchLine?_emits host h verdict _).bind fun _ => .pure _
    | failed failure => exact .fail _
    | exhausted => exact .fail _

theorem runAggregate_emits {php : String} {flags : List String}
    (hdescribe : P (.echo (Strategy.aggregate php flags).describe .stdout))
    (hadvice : P (.echo cacheAdvice .stderr)) (verdict : Verdict) :
    Emits (runAggregate host options php flags verdict) P := by
  refine (explain_emits (List.forall_mem_singleton.mpr hdescribe)).bind fun _ => ?_
  refine (explain_emits (List.forall_mem_singleton.mpr (h.executing _))).bind fun _ => ?_
  refine (host.runLaunch_emits (h.launch _ rfl) h.forward (h.finish _)).bind fun result => ?_
  have hverdict : Emits (do
      let counts ← readCounts result.stdout
      return (verdict.fold result.outcome).withCounts counts.1 counts.2 : Run σ Verdict) P :=
    (readCounts_emits result.stdout).bind fun _ => .pure _
  dsimp only
  split
  · exact (Emits.emit hadvice).bind fun _ => hverdict
  · exact hverdict

-- ---------------------------------------------------------------------------
-- Whole checks
-- ---------------------------------------------------------------------------

variable (hprobe : ∀ command, P (.probe command)) (hecho : ∀ text channel, P (.echo text channel))

include hprobe hecho

theorem runStrategy_emits (fuel : Nat) (verdict : Verdict) (strategy : Strategy) :
    Emits (runStrategy host fuel options verdict strategy) P := by
  cases strategy with
  | batch php manyFiles =>
    have hlimit : Emits (lineLimit host options manyFiles) P := by
      cases manyFiles with
      | false => exact .pure _
      | true =>
        refine (host.ceiling_emits hprobe).bind fun ceiling => ?_
        exact (explain_emits fun _ _ => hecho _ _).bind fun _ => .pure _
    refine (explain_emits fun _ _ => hecho _ _).bind fun _ => ?_
    refine hlimit.bind fun limit => ?_
    exact (batchLoop_emits host h _ fuel _ {} {} verdict).bind fun _ => .pure _
  | aggregate php flags => exact runAggregate_emits host h (hecho _ _) (hecho _ _) verdict

theorem run_emits (fuel : Nat) : Emits (run host fuel options) P := by
  refine (host.version_emits hprobe).bind fun version => ?_
  refine (Emits.emit (hecho _ _)).bind fun _ => ?_
  refine (runStrategy_emits host h hprobe hecho fuel {} _).bind fun verdict => ?_
  exact (Run.echoAll_emits fun _ _ => hecho _ _).bind fun _ => .pure verdict

end Check

end LintRun
