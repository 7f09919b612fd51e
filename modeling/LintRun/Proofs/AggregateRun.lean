import LintRun.Proofs.CheckLaws
import LintRun.Proofs.Coverage
import LintRun.Proofs.Launching
import LintRun.Proofs.ReportLaws
import LintRun.Proofs.ResolvedOptions

/-!
# The run of the helper script

Below version 8.3, and unless the files may declare the same names, a run is one launch of the
helper script. What is included and what is excluded can be told from the script's arguments
(`readHelperArguments_helperArguments`), and the verdict comes from the result of that launch alone
(`runAggregate_triple`). There is none if the script reports a number with too many digits, which
the run does not survive (`runStrategy_aggregate_overlong`).
-/

namespace LintRun.Check

open Run (Triple)

-- ---------------------------------------------------------------------------
-- Arguments
-- ---------------------------------------------------------------------------

/-- What stands behind a mark in the arguments that start with it. -/
def markedBy (mark : Char) (arguments : List String) : List String :=
  arguments.filterMap fun argument =>
    match argument.toList with
    | c :: entry => if c = mark then some (String.ofList entry) else none
    | [] => none

theorem readHelperArguments_eq (arguments : List String) :
    readHelperArguments arguments = (markedBy '+' arguments, markedBy '-' arguments) := rfl

/-- Entries behind one mark are found by that mark only, whatever they start with themselves. -/
theorem markedBy_map {text : String} {mark : Char} (htext : text.toList = [mark]) (sought : Char)
    (entries : List String) :
    markedBy sought (entries.map (text ++ ·)) = if mark = sought then entries else [] := by
  induction entries with
  | nil => simp [markedBy]
  | cons entry rest ih =>
    have hargument : (text ++ entry).toList = mark :: entry.toList := by
      rw [String.toList_append, htext, List.singleton_append]
    rw [markedBy] at ih ⊢
    rw [List.map_cons, List.filterMap_cons, ih, hargument]
    by_cases hmark : mark = sought
    · simp [hmark]
    · simp [hmark]

variable {σ : Type} (host : Host σ) (options : Options)

theorem readHelperArguments_helperArguments :
    readHelperArguments (helperArguments options) = (options.included, options.excluded) := by
  have hplus : "+".toList = ['+'] := rfl
  have hminus : "-".toList = ['-'] := rfl
  have happend : ∀ mark, markedBy mark (helperArguments options) =
      markedBy mark (options.included.map ("+" ++ ·)) ++
        markedBy mark (options.excluded.map ("-" ++ ·)) := fun mark => List.filterMap_append
  rw [readHelperArguments_eq, happend, happend, markedBy_map hplus, markedBy_map hminus,
    markedBy_map hplus, markedBy_map hminus]
  simp

theorem length_helperArguments : (helperArguments options).length =
    options.included.length + options.excluded.length := by
  rw [helperArguments, List.length_append, List.length_map, List.length_map]

variable {options} in
/-- An argument is more than its mark. -/
theorem two_le_length_of_mem_helperArguments {tree : Tree} (h : options.Resolved tree)
    {argument : String} (hargument : argument ∈ helperArguments options) :
    2 ≤ argument.length := by
  have hpos : ∀ entry : String, entry ≠ "" → 1 ≤ entry.length := by
    intro entry hne
    rw [← String.length_toList]
    exact List.length_pos_iff.mpr fun hnil => hne (String.toList_eq_nil_iff.mp hnil)
  rcases List.mem_append.mp hargument with hmem | hmem
  · obtain ⟨entry, hentry, rfl⟩ := List.mem_map.mp hmem
    have hmark : "+".length = 1 := rfl
    have hlength := hpos entry (h.included_ne entry hentry)
    rw [String.length_append]
    omega
  · obtain ⟨entry, hentry, rfl⟩ := List.mem_map.mp hmem
    have hmark : "-".length = 1 := rfl
    have hlength := hpos entry (h.excluded_ne entry hentry)
    rw [String.length_append]
    omega

-- ---------------------------------------------------------------------------
-- The run
-- ---------------------------------------------------------------------------

/-- One launch, with nothing but writing before it and after it. -/
def OneLaunch (s : σ) (invocation : Invocation) (events : List Event) : Prop :=
  ∃ before after, Writing before ∧ Writing after ∧ events = before ++
    (.launch invocation :: (host.launch invocation s).1.aftermath invocation ++ after)

variable {host} in
theorem OneLaunch.launches_eq {s : σ} {invocation : Invocation} {events : List Event}
    (h : OneLaunch host s invocation events) : launches events = [invocation] := by
  obtain ⟨before, after, hbefore, hafter, rfl⟩ := h
  simp [hbefore.quiet.launches_eq, hafter.quiet.launches_eq, Launched.launches_aftermath]

variable {host} in
theorem OneLaunch.list_not_mem {s : σ} {invocation : Invocation} {events : List Event}
    (h : OneLaunch host s invocation events) (path : Path) : Event.list path ∉ events := by
  obtain ⟨before, after, hbefore, hafter, rfl⟩ := h
  intro hmem
  rcases List.mem_append.mp hmem with hmem | hmem
  · cases hbefore _ hmem
  · rcases List.mem_cons.mp hmem with hmem | hmem
    · cases hmem
    · rcases List.mem_append.mp hmem with hmem | hmem
      · exact Launched.list_not_mem_aftermath path hmem
      · cases hafter _ hmem

theorem readCounts_triple (output : Text.Bytes) (s : σ) :
    Triple (readCounts output) s
      (fun events counts t => events = [] ∧ Report.counts output = .ok counts ∧ t = s)
      fun events e t => events = [] ∧
        ∃ number, Report.counts output = .error number ∧ e = .invalid number.message ∧ t = s := by
  unfold readCounts
  cases hcounts : Report.counts output with
  | ok counts => exact Triple.pure ⟨rfl, rfl, rfl⟩
  | error number => exact Triple.fail ⟨rfl, number, rfl, rfl, rfl⟩

/-- A run fails if there is no result or if a number in its report cannot be read. -/
theorem runAggregate_triple (php : String) (flags : List String) (verdict : Verdict) (s : σ) :
    let invocation := helperInvocation host options php flags
    let answer := (host.launch invocation s).1.result
    Triple (runAggregate host options php flags verdict) s
      (fun events out _ => OneLaunch host s invocation events ∧ ∃ result counts,
        answer = .ok result ∧ Report.counts result.stdout = .ok counts ∧
        out = (verdict.fold result.outcome).withCounts counts.1 counts.2)
      fun events e _ => OneLaunch host s invocation events ∧
        ((∃ failure, answer = .error failure ∧ e = .ofLaunch failure) ∨
        ∃ result number, answer = .ok result ∧ Report.counts result.stdout = .error number ∧
          e = .invalid number.message) := by
  intro invocation answer
  unfold runAggregate
  refine Triple.seq (explain_still options _ s) ?_
  rintro told _ t ⟨htold, ht⟩
  refine Triple.seq (explain_still options _ t) ?_
  rintro shown _ u ⟨hshown, hu⟩
  obtain rfl : u = s := hu.trans ht
  have hbefore : Writing (told ++ shown) := List.forall_mem_append.mpr ⟨htold, hshown⟩
  refine Triple.bind (host.runLaunch_answer invocation u) ?_ ?_
  · rintro events result v ⟨rfl, hanswer, -⟩
    have hlaunch : ∀ {after}, Writing after → OneLaunch host u invocation
        (told ++ (shown ++ (.launch invocation ::
          (host.launch invocation u).1.aftermath invocation ++ (after ++ [])))) := by
      intro after hafter
      exact ⟨told ++ shown, after, hbefore, hafter, by simp⟩
    dsimp only
    split
    · refine Triple.seq (Run.echo_still cacheAdvice .stderr v) ?_
      rintro advice _ _ ⟨hadvice, rfl⟩
      refine Triple.bind (readCounts_triple result.stdout _) ?_ ?_
      · rintro _ counts _ ⟨rfl, hcounts, rfl⟩
        exact Triple.pure ⟨hlaunch hadvice, result, counts, hanswer, hcounts, rfl⟩
      · rintro _ _ _ ⟨rfl, number, hcounts, rfl, rfl⟩
        exact ⟨hlaunch hadvice, .inr ⟨result, number, hanswer, hcounts, rfl⟩⟩
    · refine Triple.bind (readCounts_triple result.stdout _) ?_ ?_
      · rintro _ counts _ ⟨rfl, hcounts, rfl⟩
        exact Triple.pure ⟨hlaunch (List.forall_mem_nil _), result, counts, hanswer, hcounts, rfl⟩
      · rintro _ _ _ ⟨rfl, number, hcounts, rfl, rfl⟩
        exact ⟨hlaunch (List.forall_mem_nil _), .inr ⟨result, number, hanswer, hcounts, rfl⟩⟩
  · rintro events e v ⟨rfl, failure, hanswer, rfl⟩
    refine ⟨⟨told ++ shown, [], hbefore, List.forall_mem_nil _, ?_⟩, .inl ⟨failure, hanswer, rfl⟩⟩
    simp [invocation]

variable {host options} in
/-- What comes of a launch with a result. -/
theorem runAggregate_result {php : String} {flags : List String} {s : σ}
    {result : InvocationResult}
    (hanswer : (host.launch (helperInvocation host options php flags) s).1.result = .ok result)
    (verdict : Verdict) :
    (∀ counts, Report.counts result.stdout = .ok counts →
      (runAggregate host options php flags verdict s).result =
        .ok ((verdict.fold result.outcome).withCounts counts.1 counts.2)) ∧
    ∀ number, Report.counts result.stdout = .error number →
      (runAggregate host options php flags verdict s).result =
        .error (.invalid number.message) := by
  have htriple := runAggregate_triple host options php flags verdict s
  constructor
  · intro counts hcounts
    cases hresult : (runAggregate host options php flags verdict s).result with
    | ok out =>
      obtain ⟨-, known, counts', hknown, hcounts', rfl⟩ := htriple.of_ok hresult
      obtain rfl := Except.ok.inj (hanswer.symm.trans hknown)
      obtain rfl := Except.ok.inj (hcounts.symm.trans hcounts')
      rfl
    | error e =>
      obtain ⟨-, ⟨failure, hfailed, -⟩ | ⟨known, number, hknown, hnumber, -⟩⟩ :=
        htriple.of_error hresult
      · cases hanswer.symm.trans hfailed
      · obtain rfl := Except.ok.inj (hanswer.symm.trans hknown)
        cases hcounts.symm.trans hnumber
  · intro number hnumber
    cases hresult : (runAggregate host options php flags verdict s).result with
    | ok out =>
      obtain ⟨-, known, counts, hknown, hcounts, -⟩ := htriple.of_ok hresult
      obtain rfl := Except.ok.inj (hanswer.symm.trans hknown)
      cases hnumber.symm.trans hcounts
    | error e =>
      obtain ⟨-, ⟨failure, hfailed, -⟩ | ⟨known, number', hknown, hnumber', rfl⟩⟩ :=
        htriple.of_error hresult
      · cases hanswer.symm.trans hfailed
      · obtain rfl := Except.ok.inj (hanswer.symm.trans hknown)
        obtain rfl := Except.error.inj (hnumber.symm.trans hnumber')
        rfl

theorem select_of_lt {version : Version}
    (hversion : version.major < 8 ∨ version.major = 8 ∧ version.minor < 3) (php : String) :
    Strategy.select version false php = .aggregate php (Strategy.aggregateFlags version) := by
  have holder : version.atLeast 8 3 = false := by
    simp only [Version.atLeast, Bool.or_eq_false_iff, Bool.and_eq_false_iff,
      decide_eq_false_iff_not, beq_eq_false_iff_ne]
    omega
  rw [Strategy.select, holder]
  rfl

/-- With options that have been resolved, one launch of the helper script is all that a run does
below version 8.3. Its arguments tell what is included and what is excluded, and the verdict joins
what is known with the severity of its result and with the counts that it reports. If one of them
has too many digits, the run fails. -/
theorem runStrategy_aggregate {host : Host σ} {options : Options} {tree : Tree}
    {overrides : Overrides} {environment : Environment} {cwd : Path} {version : Version}
    (hoptions : Options.resolve tree overrides environment cwd = .ok options)
    (hversion : version.major < 8 ∨ version.major = 8 ∧ version.minor < 3)
    (hdistinct : options.supportDuplicatedNames = false) (fuel : Nat) (php : String)
    (verdict : Verdict) (s : σ) :
    let trace := runStrategy host fuel options verdict
      (Strategy.select version options.supportDuplicatedNames php) s
    ∃ arguments invocation,
      launches trace.events = [invocation] ∧ (∀ path, Event.list path ∉ trace.events) ∧
      invocation.command =
        .exec (php :: Strategy.aggregateFlags version ++ host.helper :: arguments) ∧
      arguments.length = options.included.length + options.excluded.length ∧
      (∀ argument ∈ arguments, 2 ≤ argument.length) ∧
      readHelperArguments arguments = (options.included, options.excluded) ∧
      ∀ result, (host.launch invocation s).1.result = .ok result →
        ∃ reported, Report.Reported (Text.Utf8.decodeLossy result.stdout) reported ∧
          (∀ counts, reported = .ok counts → trace.result = .ok {
            outcome := verdict.outcome.join
              (.classify result.exitCode result.stderrSize result.timedOut)
            filesProcessed := max verdict.filesProcessed counts.1
            itemsSkipped := max verdict.itemsSkipped counts.2
            invocations := verdict.invocations + 1 }) ∧
          ∀ number, reported = .error number →
            trace.result = .error (.invalid number.message) := by
  rw [hdistinct, select_of_lt hversion php]
  intro trace
  let flags := Strategy.aggregateFlags version
  let invocation := helperInvocation host options php flags
  have hone : OneLaunch host s invocation trace.events :=
    (runAggregate_triple host options php flags verdict s).events (fun _ _ _ h => h.1)
      fun _ _ _ h => h.1
  have hresolved := Options.resolved_of_resolve hoptions
  refine ⟨helperArguments options, invocation, hone.launches_eq, hone.list_not_mem, rfl,
    length_helperArguments options, ?_, readHelperArguments_helperArguments options, ?_⟩
  · intro argument hargument
    exact two_le_length_of_mem_helperArguments hresolved hargument
  · intro result hanswer
    exact ⟨Report.counts result.stdout, Report.counts_eq_iff.mp rfl,
      runAggregate_result hanswer verdict⟩

-- ---------------------------------------------------------------------------
-- A report before the timeout
-- ---------------------------------------------------------------------------

def filteredOverrides : Overrides := { included := some ["+a.php/", "-"], excluded := some ["-b"] }

def filteredOptions : Options where
  directory := sampleDirectory
  included := ["+a.php", "-"]
  excluded := ["-b"]
  failOnWarnings := false
  supportDuplicatedNames := false
  debug := false
  php := "php"
  timeout := none

theorem resolve_filtered : Options.resolve sampleTree filteredOverrides [] sampleDirectory =
    .ok filteredOptions := by
  have hloaded : Options.defaultsIn sampleTree sampleDirectory none = .ok [] := by cbv
  have hproposes : Options.Proposes filteredOverrides [] [] sampleDirectory {
      directory := some sampleDirectory
      included := ["+a.php", "-"]
      excluded := ["-b"] } := ⟨rfl, rfl, rfl, rfl, rfl, rfl, rfl, rfl⟩
  have hlayers : Options.ofLayers sampleTree filteredOverrides [] [] sampleDirectory =
      .ok filteredOptions :=
    Options.ofLayers_eq_ok_iff.mpr ⟨_, Options.propose_eq_ok_iff.mpr hproposes, by cbv⟩
  exact (Options.resolve_eq_ofLayers hloaded).trans hlayers

/-- The helper script has told its report before its time was up. -/
def lateResult : InvocationResult where
  exitCode := none
  stdout := Text.Utf8.encode (Report.line 3 1)
  timedOut := true

def lateScript : Script where
  tree := sampleTree
  results := [.ok lateResult]

def helperHost : Host Script :=
  { sampleHost with helper := "check.php" }

/-- Entries that start like an argument, and a result that is an error with a report. -/
theorem runStrategy_aggregate_sample :
    let trace := runStrategy helperHost 0 filteredOptions { itemsSkipped := 4 }
      (Strategy.select ⟨8, 2, 1⟩ filteredOptions.supportDuplicatedNames "php") lateScript
    ∃ arguments invocation,
      launches trace.events = [invocation] ∧ (∀ path, Event.list path ∉ trace.events) ∧
      invocation.command =
        .exec ("php" :: Strategy.aggregateFlags ⟨8, 2, 1⟩ ++ "check.php" :: arguments) ∧
      arguments.length = 3 ∧ (∀ argument ∈ arguments, 2 ≤ argument.length) ∧
      readHelperArguments arguments = (["+a.php", "-"], ["-b"]) ∧
      trace.result = .ok ⟨.errors, 3, 4, 1⟩ := by
  obtain ⟨arguments, invocation, hlaunches, hlist, hcommand, hlength, hshort, hread, hverdict⟩ :=
    @runStrategy_aggregate _ helperHost _ _ _ _ _ ⟨8, 2, 1⟩ resolve_filtered (by decide) rfl 0
      "php" { itemsSkipped := 4 } lateScript
  have hlaunch : (helperHost.launch invocation lateScript).1.result = .ok lateResult := rfl
  obtain ⟨reported, hreported, hresult, -⟩ := hverdict lateResult hlaunch
  have hcounts : Report.counts lateResult.stdout = .ok (3, 1) :=
    Report.counts_line_alone (by decide +kernel) (by decide +kernel)
  exact ⟨arguments, invocation, hlaunches, hlist, hcommand, hlength, hshort, hread,
    hresult (3, 1) ((Report.counts_eq_iff.mpr hreported).symm.trans hcounts)⟩

/-- The number one with one digit too many. -/
def paddedOne : List Char := List.replicate Text.digitLimit '0' ++ ['1']

theorem length_paddedOne : paddedOne.length = Text.digitLimit + 1 := by
  rw [paddedOne, List.length_append, List.length_replicate, List.length_singleton]

theorem digits_paddedOne : Report.Digits paddedOne where
  ne_nil := List.append_ne_nil_of_right_ne_nil _ (List.cons_ne_nil _ _)
  isDigit c hc := by
    rcases List.mem_append.mp hc with hzero | hone
    · rw [List.eq_of_mem_replicate hzero]
      decide
    · rw [List.mem_singleton.mp hone]
      decide

def paddedResult : InvocationResult where
  exitCode := some 0
  stdout := Text.Utf8.encode (String.ofList
    (Report.opening ++ (paddedOne ++ (Report.middle ++ (['0'] ++ ([')'] ++ ['.']))))))

def paddedScript : Script where
  tree := sampleTree
  results := [.ok paddedResult]

/-- The helper script is successful and reports one file, but the run has no verdict. -/
theorem runStrategy_aggregate_overlong :
    (runStrategy helperHost 0 filteredOptions {}
      (Strategy.select ⟨8, 2, 1⟩ filteredOptions.supportDuplicatedNames "php")
      paddedScript).result =
        .error (.invalid (Report.Overlong.message ⟨Text.digitLimit + 1⟩)) := by
  have hreports : Report.Reports (Text.Utf8.decodeLossy paddedResult.stdout) paddedOne ['0'] := by
    rw [paddedResult, Text.Utf8.decodeLossy_encode, String.toList_ofList]
    exact ⟨digits_paddedOne, Report.digits_toDigits 0, ['.'], rfl⟩
  have hlong : Text.digitLimit < paddedOne.length := by
    rw [length_paddedOne]
    exact Nat.lt_succ_self _
  have hcounts := Report.counts_eq_iff.mpr (.overlong hreports.first hlong)
  rw [length_paddedOne] at hcounts
  exact (runAggregate_result rfl {}).2 _ hcounts

end LintRun.Check
