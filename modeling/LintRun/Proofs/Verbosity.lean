import LintRun.Check
import LintRun.Proofs.RunLaws

/-!
# Debug mode

A run in debug mode is the run without it, with some more lines told on the way: it does the same in
the same order, and ends in the same way (`run_debug`). `Elaborates` says this of two runs, and
every part of a check keeps it: whatever follows two such runs cannot tell them apart.
-/

namespace LintRun

variable {σ α β : Type}

/-- What events do, apart from telling lines. -/
def deeds (events : List Event) : List Event :=
  events.filter fun event => !event.isEcho

def echoes (events : List Event) : List Event :=
  events.filter Event.isEcho

@[simp] theorem deeds_append (events later : List Event) :
    deeds (events ++ later) = deeds events ++ deeds later :=
  List.filter_append ..

/-- A trace that is another one with more lines told. -/
structure Trace.Elaborates (loud quiet : Trace σ α) : Prop where
  result_eq : loud.result = quiet.result
  state_eq : loud.state = quiet.state
  deeds_eq : deeds loud.events = deeds quiet.events
  sublist : quiet.events.Sublist loud.events

theorem Trace.Elaborates.echoes_sublist {loud quiet : Trace σ α} (h : loud.Elaborates quiet) :
    (echoes quiet.events).Sublist (echoes loud.events) :=
  h.sublist.filter _

namespace Run

/-- From whatever state it starts, a run is another one with more lines told. -/
def Elaborates (loud quiet : Run σ α) : Prop :=
  ∀ s, (loud s).Elaborates (quiet s)

theorem Elaborates.refl (run : Run σ α) : run.Elaborates run :=
  fun _ => ⟨rfl, rfl, rfl, List.Sublist.refl _⟩

theorem Elaborates.bind {loud quiet : Run σ α} {f g : α → Run σ β} (h : loud.Elaborates quiet)
    (hnext : ∀ a, (f a).Elaborates (g a)) : (loud >>= f).Elaborates (quiet >>= g) := by
  intro s
  obtain ⟨hresult, hstate, hdeeds, hsublist⟩ := h s
  cases hquiet : (quiet s).result with
  | error e =>
    rw [hquiet] at hresult
    simp only [Bind.bind, andThen, hresult, hquiet]
    exact ⟨rfl, hstate, hdeeds, hsublist⟩
  | ok a =>
    rw [hquiet] at hresult
    obtain ⟨hresult', hstate', hdeeds', hsublist'⟩ := hnext a (quiet s).state
    simp only [Bind.bind, andThen, hresult, hquiet, hstate]
    exact ⟨hresult', hstate', by simp [hdeeds, hdeeds'], hsublist.append hsublist'⟩

end Run

namespace Check

open Run (Elaborates)

variable (host : Host σ) (options : Options)

/-- The options with the debug mode switched on. -/
def loud : Options := { options with debug := true }

def quiet : Options := { options with debug := false }

theorem explain_elaborates (lines : List (String × Channel)) :
    Elaborates (explain (loud options) lines : Run σ Unit) (explain (quiet options) lines) := by
  intro s
  have hloud : explain (loud options) lines s =
      ⟨lines.map fun line => .echo line.1 line.2, .ok (), s⟩ := Run.echoAll_eq lines s
  have hquiet : explain (quiet options) lines s = ⟨[], .ok (), s⟩ := rfl
  rw [hloud, hquiet]
  refine ⟨rfl, rfl, List.filter_eq_nil_iff.mpr fun event hevent => ?_, List.nil_sublist _⟩
  obtain ⟨line, -, rfl⟩ := List.mem_map.mp hevent
  simp [Event.isEcho]

theorem lineLimit_elaborates (manyFiles : Bool) :
    Elaborates (lineLimit host (loud options) manyFiles)
      (lineLimit host (quiet options) manyFiles) := by
  cases manyFiles with
  | false => exact .refl _
  | true =>
    refine (Elaborates.refl host.ceiling).bind fun ceiling => ?_
    exact (explain_elaborates options _).bind fun _ => .refl _

theorem launchLine_elaborates (verdict : Verdict) (line : Line) :
    Elaborates (launchLine host (loud options) verdict line)
      (launchLine host (quiet options) verdict line) :=
  (explain_elaborates options _).bind fun _ => .refl _

theorem launchLine?_elaborates (verdict : Verdict) (line : Option Line) :
    Elaborates (launchLine? host (loud options) verdict line)
      (launchLine? host (quiet options) verdict line) := by
  cases line with
  | none => exact .refl _
  | some line => exact launchLine_elaborates host options verdict line

theorem batchLoop_elaborates (packing : Packing) (fuel : Nat) (tasks : List Walk.Task)
    (counters : Counters) (packer : Packer) (verdict : Verdict) :
    Elaborates (batchLoop host (loud options) packing fuel tasks counters packer verdict)
      (batchLoop host (quiet options) packing fuel tasks counters packer verdict) := by
  induction fuel generalizing tasks counters packer verdict with
  | zero => exact .refl _
  | succ fuel ih =>
    rw [batchLoop, batchLoop]
    -- Both walk the same directory with the same listings.
    refine (Elaborates.refl ((walkOf options).next host.runList fuel tasks counters)).bind ?_
    rintro ⟨pull, counters⟩
    cases pull with
    | file path rest =>
      refine (Elaborates.refl _).bind fun _ => ?_
      refine (launchLine?_elaborates host options verdict _).bind fun verdict => ?_
      exact ih rest counters _ verdict
    | finished => exact (launchLine?_elaborates host options verdict _).bind fun _ => .refl _
    | failed failure => exact .refl _
    | exhausted => exact .refl _

theorem runBatch_elaborates (fuel : Nat) (php : String) (manyFiles : Bool) (verdict : Verdict) :
    Elaborates (runBatch host fuel (loud options) php manyFiles verdict)
      (runBatch host fuel (quiet options) php manyFiles verdict) := by
  refine (explain_elaborates options _).bind fun _ => ?_
  refine (lineLimit_elaborates host options manyFiles).bind fun limit => ?_
  exact (batchLoop_elaborates host options _ fuel _ {} {} verdict).bind fun _ => .refl _

theorem runAggregate_elaborates (php : String) (flags : List String) (verdict : Verdict) :
    Elaborates (runAggregate host (loud options) php flags verdict)
      (runAggregate host (quiet options) php flags verdict) := by
  refine (explain_elaborates options _).bind fun _ => ?_
  exact (explain_elaborates options _).bind fun _ => .refl _

theorem runStrategy_elaborates (fuel : Nat) (verdict : Verdict) (strategy : Strategy) :
    Elaborates (runStrategy host fuel (loud options) verdict strategy)
      (runStrategy host fuel (quiet options) verdict strategy) := by
  cases strategy with
  | batch php manyFiles => exact runBatch_elaborates host options fuel php manyFiles verdict
  | aggregate php flags => exact runAggregate_elaborates host options php flags verdict

theorem run_elaborates (fuel : Nat) :
    Elaborates (run host fuel (loud options)) (run host fuel (quiet options)) := by
  refine (Elaborates.refl (host.version options.php)).bind fun version => ?_
  refine (Elaborates.refl _).bind fun _ => ?_
  exact (runStrategy_elaborates host options fuel {} _).bind fun _ => .refl _

/-- Debug mode changes nothing in what a check does, whatever the strategy: the probes, listings and
launches are the same and in the same order, the verdict or the failure is the same, and so is the
state that the run leaves. No line that is told without debug mode is missing. -/
theorem run_debug (fuel : Nat) (s : σ) :
    deeds (run host fuel { options with debug := true } s).events =
        deeds (run host fuel { options with debug := false } s).events ∧
      (run host fuel { options with debug := true } s).result =
        (run host fuel { options with debug := false } s).result ∧
      (run host fuel { options with debug := true } s).state =
        (run host fuel { options with debug := false } s).state ∧
      (echoes (run host fuel { options with debug := false } s).events).Sublist
        (echoes (run host fuel { options with debug := true } s).events) := by
  have h := run_elaborates host options fuel s
  exact ⟨h.deeds_eq, h.result_eq, h.state_eq, h.echoes_sublist⟩

end Check

end LintRun
