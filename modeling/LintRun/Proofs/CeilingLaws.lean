import LintRun.Proofs.LineSize

/-!
# What a ceiling leaves room for

A ceiling is always there and never below one, whatever the system says about the space that it
grants (`ceiling_total`). If it was measured then a shorter line leaves room for the environment,
the overhead of its variables and a margin (`line_leaves_room`).
-/

namespace LintRun

open Text.Utf8 (size)

theorem Text.Utf8.size_append (s t : String) : size (s ++ t) = size s + size t := by
  simp [size, encode]

theorem Text.Utf8.size_intercalate_newline (parts : List String) :
    size ("\n".intercalate parts) = (parts.map size).sum + (parts.length - 1) := by
  have hbreak : size "\n" = 1 := rfl
  induction parts with
  | nil => rfl
  | cons part rest ih =>
    cases rest with
    | nil => simp
    | cons next rest =>
      rw [String.intercalate_cons_of_ne_nil (List.cons_ne_nil _ _), size_append, size_append, ih,
        hbreak, List.map_cons (a := part), List.sum_cons (a := size part)]
      simp only [List.length_cons]
      omega

-- ---------------------------------------------------------------------------
-- The environment
-- ---------------------------------------------------------------------------

namespace Environment

/-- An entry as the system keeps it. -/
def entryText (entry : String × String) : String :=
  entry.1 ++ "=" ++ entry.2

/-- The bytes that the system keeps of an environment, with a terminator for each entry. -/
def blockSize (environment : Environment) : Nat :=
  (environment.map fun entry => size (entryText entry) + 1).sum

theorem size_entryText (entry : String × String) :
    size (entryText entry) = size entry.1 + 1 + size entry.2 := by
  rw [entryText, Text.Utf8.size_append, Text.Utf8.size_append]
  rfl

theorem blockSize_eq (environment : Environment) :
    environment.blockSize =
      (environment.map fun entry => size (entryText entry)).sum + environment.length := by
  induction environment with
  | nil => rfl
  | cons entry rest ih =>
    rw [blockSize, List.map_cons, List.sum_cons, ← blockSize, ih]
    simp only [List.map_cons, List.sum_cons, List.length_cons]
    omega

end Environment

namespace Ceiling

open Environment (entryText blockSize)

variable {environment : Environment} {completed : Completed}
  {probed : Except ProbeFailure Completed} {measure : Measure} {argMax : Int}

theorem environmentSize_eq_sum (environment : Environment) :
    environmentSize environment =
      (environment.map fun entry => size (entryText entry)).sum + (environment.length - 1) := by
  have hentry : (fun entry : String × String => size (entryText entry)) =
      fun entry => size entry.1 + 1 + size entry.2 := funext Environment.size_entryText
  rw [environmentSize, hentry, List.sum_eq_foldl]

/-- What is measured is the size of all entries written one to a line. -/
theorem environmentSize_eq (environment : Environment) :
    environmentSize environment = size ("\n".intercalate (environment.map entryText)) := by
  rw [environmentSize_eq_sum, Text.Utf8.size_intercalate_newline, List.map_map, List.length_map]
  rfl

/-- The breaks between lines fall one short of the terminators. -/
theorem blockSize_le (environment : Environment) :
    environment.blockSize ≤ environmentSize environment + 1 := by
  rw [environmentSize_eq_sum, Environment.blockSize_eq]
  omega

/-- The space that a probe reports: the command has ended well, and its output is an integer with
whitespace around it. -/
def Reports (probed : Except ProbeFailure Completed) (argMax : Int) : Prop :=
  ∃ completed, probed = .ok completed ∧ completed.exitCode = 0 ∧
    Text.readInt? (Text.trim (completed.stdout.getD "")) = some argMax

theorem Reports.unique {other : Int} (h : Reports probed argMax) (hother : Reports probed other) :
    argMax = other := by
  obtain ⟨completed, rfl, -, hread⟩ := h
  obtain ⟨_, hsame, -, hreadOther⟩ := hother
  cases hsame
  exact Option.some.inj (hread.symm.trans hreadOther)

/-- What is left of the granted space beside the entries of the environment written one to a line,
four more bytes for each of them, and a margin. -/
def roomBeside (environment : Environment) (argMax : Int) : Int :=
  argMax - size ("\n".intercalate (environment.map entryText)) - 4 * environment.length - 2048

theorem room_eq (environment : Environment) (argMax : Int) :
    (Measure.mk argMax (environmentSize environment) environment.length).room =
      roomBeside environment argMax := by
  simp only [Measure.room, roomBeside, environmentSize_eq, variableOverhead, margin]
  omega

theorem argMaxOf_eq_ok_iff :
    argMaxOf completed = .ok argMax ↔
      completed.exitCode = 0 ∧
        Text.readInt? (Text.trim (completed.stdout.getD "")) = some argMax ∧ 1 ≤ argMax := by
  unfold argMaxOf
  by_cases hexit : completed.exitCode = 0
  · simp only [hexit, bne_self_eq_false, Bool.false_eq_true, if_false, true_and]
    cases Text.readInt? (Text.trim (completed.stdout.getD "")) with
    | none => simp
    | some found =>
      by_cases hlow : found < 1
      · simp only [hlow, if_true, reduceCtorEq, Option.some.injEq, false_iff, not_and]
        omega
      · simp only [hlow, if_false, Except.ok.injEq, Option.some.injEq]
        omega
  · simp [hexit]

theorem ofArgMax_of_room (h : 1 ≤ roomBeside environment argMax) :
    ofArgMax environment argMax =
      .measured ⟨argMax, environmentSize environment, environment.length⟩ := by
  rw [ofArgMax, if_neg]
  rw [room_eq]
  omega

theorem failure?_ofArgMax_eq_none_iff :
    (ofArgMax environment argMax).failure? = none ↔ 1 ≤ roomBeside environment argMax := by
  constructor
  · intro h
    by_contra hroom
    rw [ofArgMax, if_pos (by rw [room_eq]; omega)] at h
    cases h
  · intro hroom
    rw [ofArgMax_of_room hroom]
    rfl

/-- A ceiling comes without a failure exactly if the space is reported and leaves room. -/
theorem failure?_eq_none_iff :
    (ofProbe environment probed).failure? = none ↔
      ∃ argMax, 1 ≤ argMax ∧ Reports probed argMax ∧ 1 ≤ roomBeside environment argMax := by
  cases probed with
  | error failure => simp [ofProbe, failure?, Reports]
  | ok completed =>
    simp only [ofProbe, Reports, Except.ok.injEq, exists_eq_left']
    cases hargMax : argMaxOf completed with
    | error failure =>
      simp only [failure?, reduceCtorEq, false_iff, not_exists, not_and, and_imp]
      intro argMax hpos hexit hread
      rw [argMaxOf_eq_ok_iff.mpr ⟨hexit, hread, hpos⟩] at hargMax
      cases hargMax
    | ok argMax =>
      obtain ⟨hexit, hread, hpos⟩ := argMaxOf_eq_ok_iff.mp hargMax
      rw [failure?_ofArgMax_eq_none_iff]
      constructor
      · exact fun hroom => ⟨argMax, hpos, ⟨hexit, hread⟩, hroom⟩
      · rintro ⟨other, -, ⟨-, hother⟩, hroom⟩
        rwa [Option.some.inj (hread.symm.trans hother)]

theorem length_of_room (hpos : 1 ≤ argMax) (hreports : Reports probed argMax)
    (hroom : 1 ≤ roomBeside environment argMax) :
    (ofProbe environment probed).length = min (roomBeside environment argMax) 131072 := by
  obtain ⟨completed, rfl, hexit, hread⟩ := hreports
  simp only [ofProbe, argMaxOf_eq_ok_iff.mpr ⟨hexit, hread, hpos⟩]
  rw [ofArgMax_of_room hroom, length, room_eq]
  rfl

theorem length_of_failure {text : String} (h : (ofProbe environment probed).failure? = some text) :
    (ofProbe environment probed).length = 4096 := by
  cases hceiling : ofProbe environment probed with
  | fallback failure => rfl
  | fixed => simp [hceiling, failure?] at h
  | measured measure => simp [hceiling, failure?] at h

theorem length_ofProbe_pos (environment : Environment) (probed : Except ProbeFailure Completed) :
    1 ≤ (ofProbe environment probed).length := by
  cases hfailure : (ofProbe environment probed).failure? with
  | some text =>
    rw [length_of_failure hfailure]
    decide
  | none =>
    obtain ⟨argMax, hpos, hreports, hroom⟩ := failure?_eq_none_iff.mp hfailure
    rw [length_of_room hpos hreports hroom]
    omega

end Ceiling

-- ---------------------------------------------------------------------------
-- Hosts
-- ---------------------------------------------------------------------------

variable {σ : Type} {host : Host σ} {s : σ} {ceiling : Ceiling}

open Environment (entryText blockSize)
open Ceiling (Reports roomBeside)

theorem Host.ceiling_windows (hwindows : host.platform = .windows) (s : σ) :
    host.ceiling s = ⟨[], .ok .fixed, s⟩ := by
  unfold Host.ceiling
  rw [hwindows]
  rfl

theorem Host.ceiling_posix (hposix : host.platform = .posix) (s : σ) :
    host.ceiling s = ⟨[.probe Probe.argMaxCommand], .ok (Check.ceilingOf host s),
      (host.probe Probe.argMaxCommand s).2⟩ := by
  unfold Host.ceiling
  rw [hposix]
  rfl

/-- If nothing has failed then a line below the ceiling leaves room for what the system keeps of
the environment, four more bytes for each variable, and a margin. -/
theorem line_leaves_room (hposix : host.platform = .posix)
    (hceiling : (host.ceiling s).result = .ok ceiling) (hnone : ceiling.failure? = none) :
    (∃ argMax, Reports (host.probe ["getconf", "ARG_MAX"] s).1 argMax) ∧
      ∀ argMax, Reports (host.probe ["getconf", "ARG_MAX"] s).1 argMax →
        ∀ line, (size line : Int) < ceiling.length →
          (size line + 1 + blockSize host.environment + 4 * host.environment.length + 2047 : Int) ≤
            argMax := by
  rw [Host.ceiling_posix hposix] at hceiling
  obtain rfl := Except.ok.inj hceiling
  obtain ⟨argMax, hpos, hreports, hroom⟩ := Ceiling.failure?_eq_none_iff.mp hnone
  refine ⟨⟨argMax, hreports⟩, fun other hother line hline => ?_⟩
  obtain rfl := hreports.unique hother
  rw [Check.ceilingOf, Ceiling.length_of_room hpos hreports hroom] at hline
  -- The cap only makes lines shorter.
  have hbelow : (size line : Int) < roomBeside host.environment argMax := by omega
  have hblock := Ceiling.blockSize_le host.environment
  rw [roomBeside, ← Ceiling.environmentSize_eq] at hbelow
  omega

/-- A host with two variables that grants 64 KiB. -/
def roomyHost : Host Unit where
  platform := .posix
  environment := [("A", "1"), ("BB", "22")]
  helper := ""
  tree _ := {}
  probe _ s := (.ok { stdout := some "65536\n" }, s)
  list _ s := (.ok [], s)
  launch _ s := ({ result := .ok {} }, s)

theorem line_leaves_room_sample :
    roomyHost.platform = .posix ∧
      (roomyHost.ceiling ()).result = .ok (Check.ceilingOf roomyHost ()) ∧
      (Check.ceilingOf roomyHost ()).failure? = none ∧
      (∃ argMax, Reports (roomyHost.probe ["getconf", "ARG_MAX"] ()).1 argMax) ∧
      ∀ argMax, Reports (roomyHost.probe ["getconf", "ARG_MAX"] ()).1 argMax →
        ∀ line, (size line : Int) < (Check.ceilingOf roomyHost ()).length →
          (size line + 1 + blockSize roomyHost.environment + 4 * roomyHost.environment.length +
            2047 : Int) ≤ argMax :=
  ⟨rfl, rfl, rfl, line_leaves_room rfl rfl rfl⟩

/-- What is true of a ceiling on a POSIX system, by what its probe gave. -/
structure Ceiling.Estimates (environment : Environment) (probed : Except ProbeFailure Completed)
    (ceiling : Ceiling) : Prop where
  failure?_eq_none_iff : ceiling.failure? = none ↔
    ∃ argMax, 1 ≤ argMax ∧ Reports probed argMax ∧ 1 ≤ roomBeside environment argMax
  length_of_room : ∀ argMax, 1 ≤ argMax → Reports probed argMax →
    1 ≤ roomBeside environment argMax → ceiling.length = min (roomBeside environment argMax) 131072
  length_of_failure : ceiling.failure? ≠ none → ceiling.length = 4096

theorem Ceiling.ofProbe_estimates (environment : Environment)
    (probed : Except ProbeFailure Completed) :
    Estimates environment probed (ofProbe environment probed) where
  failure?_eq_none_iff := Ceiling.failure?_eq_none_iff
  length_of_room _ := Ceiling.length_of_room
  length_of_failure h := by
    obtain ⟨text, hfailure⟩ := Option.ne_none_iff_exists'.mp h
    exact Ceiling.length_of_failure hfailure

namespace Check

theorem limitOf_of_ceiling (hceiling : (host.ceiling s).result = .ok ceiling) :
    limitOf host true s = ceiling.length :=
  ((ceiling_triple host s).of_ok hceiling).2.2.symm

theorem lineLimit_result (hceiling : (host.ceiling s).result = .ok ceiling) (options : Options) :
    (lineLimit host options true s).result = .ok ceiling.length := by
  refine ((lineLimit_triple host options true s).mono ?_ fun _ _ _ => id).result_eq
  rintro events limit t ⟨-, -, rfl⟩
  exact limitOf_of_ceiling hceiling

/-- The packing of a batch run with several files to a line. -/
def packingBelow (host : Host σ) (php : String) (ceiling : Ceiling) : Packing :=
  ⟨Shell.lintOpening host.platform php, Shell.quote host.platform, ceiling.length⟩

theorem packingOf_of_ceiling (hceiling : (host.ceiling s).result = .ok ceiling) (php : String) :
    packingOf host php true s = packingBelow host php ceiling := by
  rw [packingOf, limitOf_of_ceiling hceiling, packingBelow]

theorem launches_initial_of_ceiling (hceiling : (host.ceiling s).result = .ok ceiling)
    (fuel : Nat) (options : Options) (php : String) (verdict : Verdict) :
    let events := (runBatch host fuel options php true verdict s).events
    launches events <+:
      ((packingBelow host php ceiling).lines (provisions events)).map (lineInvocation options) := by
  intro events
  rw [← packingOf_of_ceiling hceiling]
  exact (runBatch_soFar host options fuel php true verdict s).launches_initial

end Check

/-- There is a ceiling whatever the system says, and never one below one. A batch run with several
files to a line takes it as the limit of all its lines. -/
theorem ceiling_total (host : Host σ) (s : σ) :
    ∃ ceiling, (host.ceiling s).result = .ok ceiling ∧
      (host.platform = .windows →
        host.ceiling s = ⟨[], .ok ceiling, s⟩ ∧ ceiling.failure? = none ∧ ceiling.length = 8191) ∧
      (host.platform = .posix →
        (host.ceiling s).events = [.probe ["getconf", "ARG_MAX"]] ∧
        ceiling.Estimates host.environment (host.probe ["getconf", "ARG_MAX"] s).1) ∧
      1 ≤ ceiling.length ∧ ceiling.length ≤ 131072 ∧
      ∀ options, (Check.lineLimit host options true s).result = .ok ceiling.length ∧
        ∀ fuel php verdict,
          let events := (Check.runBatch host fuel options php true verdict s).events
          launches events <+: ((Check.packingBelow host php ceiling).lines (provisions events)).map
            (Check.lineInvocation options) := by
  cases hplatform : host.platform with
  | windows =>
    have hceiling := Host.ceiling_windows hplatform s
    have hresult : (host.ceiling s).result = .ok .fixed := congrArg Trace.result hceiling
    refine ⟨.fixed, hresult, fun _ => ⟨hceiling, rfl, rfl⟩, nofun, by decide, by decide, ?_⟩
    exact fun options => ⟨Check.lineLimit_result hresult options,
      fun fuel php => Check.launches_initial_of_ceiling hresult fuel options php⟩
  | posix =>
    have hceiling := Host.ceiling_posix hplatform s
    have hresult : (host.ceiling s).result = .ok (Check.ceilingOf host s) :=
      congrArg Trace.result hceiling
    refine ⟨_, hresult, nofun, fun _ => ⟨congrArg Trace.events hceiling,
      Ceiling.ofProbe_estimates _ _⟩, Ceiling.length_ofProbe_pos _ _,
      Ceiling.length_le_greatestLength _, ?_⟩
    exact fun options => ⟨Check.lineLimit_result hresult options,
      fun fuel php => Check.launches_initial_of_ceiling hresult fuel options php⟩

end LintRun
