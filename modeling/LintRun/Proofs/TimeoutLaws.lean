import LintRun.Proofs.CliLaws
import LintRun.Proofs.Emission
import LintRun.Proofs.LayerLaws
import LintRun.Proofs.Number.NanLaws

/-!
# Accepted timeouts

A timeout is refused if it is at most zero, and NaN is not: an accepted timeout is a positive number
unless the layer that decides about it says NaN (`accepted_timeout_positive`). Every launched command
has the accepted timeout.
-/

namespace LintRun

open Run (Triple)

-- ---------------------------------------------------------------------------
-- Reading a timeout
-- ---------------------------------------------------------------------------

namespace Value

/-- The number itself, or a text that spells it. -/
inductive IsNan : Value → Prop
  | float : IsNan (.float .nan)
  | text {s : String} : Binary64.SpellsNan s → IsNan (.text s)

theorem asTimeout_eq_nan_iff {value : Value} :
    value.asTimeout = .ok (some .nan) ↔ value.IsNan := by
  constructor
  · intro h
    unfold asTimeout at h
    cases value with
    | float x =>
      obtain rfl : x = .nan := by simpa using h
      exact .float
    | int i =>
      cases hread : Binary64.ofInt? i with
      | none => simp [hread] at h
      | some x =>
        obtain rfl : x = .nan := by simpa [hread] using h
        exact absurd hread (Binary64.ofInt?_ne_nan i)
    | text s =>
      cases hread : Binary64.read? s with
      | none => simp [hread] at h
      | some x =>
        obtain rfl : x = .nan := by simpa [hread] using h
        exact .text (Binary64.read?_eq_nan_iff.mp hread)
    | _ => simp at h
  · intro h
    cases h with
    | float => rfl
    | text hspells => simp [asTimeout, Binary64.read?_eq_nan_iff.mpr hspells]

end Value

namespace Options

theorem timeoutError?_eq_none_iff_positive {timeout : Option Binary64} :
    timeoutError? timeout = none ↔
      ∀ x, timeout = some x → x.isPositive = true ∨ x = .nan := by
  simp only [timeoutError?_eq_none_iff, Binary64.atMostZero_eq_false_iff]

theorem positive_iff_of_validate {tree : Tree} {proposed : Proposed} {options : Options}
    (h : validate tree proposed = .ok options) :
    (∀ x, options.timeout = some x → x.isPositive = true) ↔ proposed.timeout ≠ some .nan := by
  obtain ⟨-, -, htimeout, rfl⟩ := validate_eq_ok_iff.mp h
  rw [timeoutError?_eq_none_iff_positive] at htimeout
  constructor
  · intro hpositive hnan
    exact Binary64.ne_nan_of_isPositive (hpositive _ hnan) rfl
  · intro hne x hx
    rcases htimeout x hx with hpositive | rfl
    · exact hpositive
    · exact absurd hx hne

theorem positive_iff_of_resolve {tree : Tree} {overrides : Overrides} {environment : Environment}
    {cwd : Path} {options : Options} (h : resolve tree overrides environment cwd = .ok options) :
    ∃ defaults value, defaultsIn tree (requestedDirectory overrides environment cwd)
        (overrides.config.map cwd.join) = .ok defaults ∧
      Key.timeout.Has overrides environment defaults value ∧
      ((∀ x, options.timeout = some x → x.isPositive = true) ↔ ¬value.IsNan) := by
  obtain ⟨defaults, proposed, hloaded, hproposes, hvalid⟩ := exists_proposed_of_resolve h
  refine ⟨defaults, _, hloaded, Key.timeout.has_pick overrides environment defaults, ?_⟩
  have hread : (pick environment defaults Key.timeout.name
      (Key.timeout.override? overrides)).asTimeout = .ok proposed.timeout := hproposes.timeout_eq
  rw [positive_iff_of_validate hvalid, ← Value.asTimeout_eq_nan_iff, hread, Except.ok.injEq]

end Options

-- ---------------------------------------------------------------------------
-- Launched commands
-- ---------------------------------------------------------------------------

def Event.HasTimeout (timeout : Option Binary64) (event : Event) : Prop :=
  ∀ invocation, event = .launch invocation → invocation.timeout = timeout

section
variable {σ : Type} (host : Host σ) (fuel : Nat)

theorem Check.run_hasTimeout (options : Options) :
    Run.Emits (Check.run host fuel options) (Event.HasTimeout options.timeout) := by
  refine Check.run_emits host ?_ (fun _ => nofun) (fun _ _ => nofun) fuel
  exact {
    list := fun _ => nofun
    provide := fun _ => nofun
    executing := fun _ => nofun
    launch := by rintro invocation htimeout _ ⟨⟩; exact htimeout
    forward := fun _ _ => nofun
    finish := fun _ _ => nofun }

namespace Cli

variable (overrides : Overrides) (environment : Environment) (cwd : Path) (s : σ)

/-- What is launched has the timeout of the options that were resolved before. -/
def LaunchesInTime (events : List Event) : Prop :=
  ∀ invocation ∈ launches events, ∃ options,
    Options.resolve (host.tree s) overrides environment cwd = .ok options ∧
      invocation.timeout = options.timeout

theorem resolveAndRun_inTime : Triple (resolveAndRun host fuel overrides environment cwd) s
    (fun events _ _ => LaunchesInTime host overrides environment cwd s events)
    fun events _ _ => LaunchesInTime host overrides environment cwd s events := by
  unfold resolveAndRun
  refine Triple.seq (P := fun events state t => events = [] ∧ state = s ∧ t = s)
    (Triple.read ⟨rfl, rfl, rfl⟩) ?_
  rintro _ state _ ⟨rfl, hstate, rfl⟩
  rw [hstate]
  cases hresolved : Options.resolve (host.tree _) overrides environment cwd with
  | error failure =>
    refine Triple.bind (P := fun _ _ _ => False) (D := fun events _ _ => events = [])
      (Triple.fail rfl) (fun _ _ _ hfalse => hfalse.elim) ?_
    rintro _ _ _ rfl
    exact List.forall_mem_nil _
  | ok options =>
    refine Triple.seq (P := fun events found t => events = [] ∧ found = options ∧ t = _)
      (Triple.lift_ok ⟨rfl, rfl, rfl⟩) ?_
    rintro _ found t ⟨rfl, rfl, rfl⟩
    have hevents : ∀ events : List Event, (∀ event ∈ events, event.HasTimeout found.timeout) →
        LaunchesInTime host overrides environment cwd t ([] ++ ([] ++ events)) := by
      intro events htimeout invocation hlaunch
      exact ⟨found, hresolved, htimeout _ (mem_launches.mp hlaunch) invocation rfl⟩
    have hrest : Run.Emits (Check.explain found (found.describe.map (·, .stdout)) >>= fun _ =>
        Check.run host fuel found >>= fun verdict =>
          pure (verdict.exitStatus found.failOnWarnings)) (Event.HasTimeout found.timeout) := by
      refine (Check.explain_emits fun _ _ => nofun).bind fun _ => ?_
      exact (Check.run_hasTimeout host fuel found).bind fun _ => .pure _
    exact (hrest _).mono (fun events _ _ h => hevents events h) fun events _ _ h => hevents events h

theorem check_inTime :
    LaunchesInTime host overrides environment cwd s
      (check host fuel overrides environment cwd s).events := by
  have hreport : ∀ {events later : List Event}, Quiet later →
      LaunchesInTime host overrides environment cwd s events →
      LaunchesInTime host overrides environment cwd s (events ++ later) := by
    intro events later hquiet h
    rw [LaunchesInTime, launches_append, hquiet.launches_eq, List.append_nil]
    exact h
  refine (recover_triple (resolveAndRun_inTime host fuel overrides environment cwd s)
    (E := fun events _ _ => LaunchesInTime host overrides environment cwd s events)
    (fun _ _ _ h => h) ?_).events (fun _ _ _ h => h) fun _ _ _ h => h
  intro events failure t h
  exact (report_triple failure t).mono (fun later _ _ hquiet => hreport hquiet.1 h)
    fun later _ _ hquiet => hreport hquiet h

end Cli

end

-- ---------------------------------------------------------------------------
-- Positive but for NaN
-- ---------------------------------------------------------------------------

/-- Options are refused because of their timeout exactly if it is at most zero, so that an accepted
timeout is positive unless it is NaN, which after the layers it is exactly if the deciding layer
spells NaN. All launched commands have the accepted timeout. -/
theorem accepted_timeout_positive (tree : Tree) (overrides : Overrides) (environment : Environment)
    (cwd : Path) :
    (∀ proposed : Options.Proposed, (∃ options, Options.validate tree proposed = .ok options) ↔
      Options.directoryError? tree proposed.directory = .ok none ∧
        Options.phpError? proposed.php = none ∧
        ∀ x, proposed.timeout = some x → x.isPositive = true ∨ x = .nan) ∧
    (∀ (proposed : Options.Proposed) (options : Options),
      Options.validate tree proposed = .ok options →
      ((∀ x, options.timeout = some x → x.isPositive = true) ↔ proposed.timeout ≠ some .nan)) ∧
    (∀ options, Options.resolve tree overrides environment cwd = .ok options →
      ∃ defaults value,
        Options.defaultsIn tree (Options.requestedDirectory overrides environment cwd)
          (overrides.config.map cwd.join) = .ok defaults ∧
        Options.Key.timeout.Has overrides environment defaults value ∧
        ((∀ x, options.timeout = some x → x.isPositive = true) ↔ ¬value.IsNan)) ∧
    ∀ (σ : Type) (host : Host σ) (fuel : Nat) (s : σ), host.tree s = tree →
      ∀ invocation ∈ launches (Cli.check host fuel overrides environment cwd s).events,
        ∃ options, Options.resolve tree overrides environment cwd = .ok options ∧
          invocation.timeout = options.timeout := by
  refine ⟨?_, ?_, ?_, ?_⟩
  · intro proposed
    rw [Options.exists_validate_iff, Options.timeoutError?_eq_none_iff_positive]
  · intro proposed options h
    exact Options.positive_iff_of_validate h
  · intro options h
    exact Options.positive_iff_of_resolve h
  · intro σ host fuel s htree
    rw [← htree]
    exact Cli.check_inTime host fuel overrides environment cwd s

-- ---------------------------------------------------------------------------
-- Half a second and NaN
-- ---------------------------------------------------------------------------

theorem exists_resolve_of_timeout (overrides : Overrides) (environment : Environment)
    {x : Binary64}
    (h : (Options.resolve (Options.configuredTree []) overrides environment
      Options.configuredDirectory).toOption.map Options.timeout = some (some x)) :
    ∃ options, Options.resolve (Options.configuredTree []) overrides environment
      Options.configuredDirectory = .ok options ∧ options.timeout = some x := by
  cases hresolved : Options.resolve (Options.configuredTree []) overrides environment
      Options.configuredDirectory with
  | error _ => simp [hresolved, Except.toOption] at h
  | ok options => exact ⟨options, rfl, by simpa [hresolved, Except.toOption] using h⟩

/-- What is accepted for half a second on the command line is positive. -/
theorem accepted_timeout_positive_half :
    ∃ options, Options.resolve (Options.configuredTree [])
        { timeout := some (.finite false 4503599627370496 (-53)) } [("INPUT_TIMEOUT", "nan")]
        Options.configuredDirectory = .ok options ∧
      ∀ x, options.timeout = some x → x.isPositive = true := by
  obtain ⟨options, hresolved, -⟩ :=
    exists_resolve_of_timeout { timeout := some (.finite false 4503599627370496 (-53)) }
      [("INPUT_TIMEOUT", "nan")] (x := .finite false 4503599627370496 (-53)) (by cbv)
  obtain ⟨-, -, hresolve, -⟩ := accepted_timeout_positive (Options.configuredTree [])
    { timeout := some (.finite false 4503599627370496 (-53)) } [("INPUT_TIMEOUT", "nan")]
    Options.configuredDirectory
  obtain ⟨defaults, value, -, hhas, hpositive⟩ := hresolve options hresolved
  refine ⟨options, hresolved, hpositive.mpr ?_⟩
  cases hhas with
  | override hgiven =>
    obtain rfl := Option.some.inj hgiven
    intro h
    cases h
  | input hgiven => cases hgiven
  | entry hgiven => cases hgiven
  | missing hgiven => cases hgiven

/-- A timeout that is no number at all is accepted. -/
theorem nan_accepted :
    ¬∀ (tree : Tree) (overrides : Overrides) (environment : Environment) (cwd : Path)
      (options : Options), Options.resolve tree overrides environment cwd = .ok options →
      ∀ x, options.timeout = some x → x.isPositive = true := by
  intro hclaim
  obtain ⟨options, hresolved, hnan⟩ :=
    exists_resolve_of_timeout {} [("INPUT_TIMEOUT", "nan")] (x := .nan) (by cbv)
  exact Binary64.ne_nan_of_isPositive (hclaim _ _ _ _ _ hresolved _ hnan) rfl

end LintRun
