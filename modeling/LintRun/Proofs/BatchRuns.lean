import LintRun.Proofs.Enumeration
import LintRun.Proofs.VerdictLaws

/-!
# Batch runs from their start to their end

What a batch run launches depends on nothing but the listings that it gets. A run with a verdict has
launched every line of its files in order, whatever the commands gave (`runBatch_report`). A run
that comes to a directory that cannot be listed has launched the lines that were complete by then,
and these are launched as well if that directory can be listed (`runBatch_aborts`).
-/

namespace LintRun

open LintRun.Path (joined)

namespace Check

-- ---------------------------------------------------------------------------
-- How a run concludes
-- ---------------------------------------------------------------------------

section
variable {σ : Type} (host : Host σ) (s : σ) (options : Options) (packing : Packing)
  (list : Path → Except OsError (List Entry))

/-- The two ways in which a batch run ends if all launches give results and the fuel is enough: the
walk is over, or it has come to a directory that cannot be listed. -/
inductive Concludes (trace : Trace σ Verdict) (log : Walk.Log) : List Walk.Task → Prop
  | verdict {out : Verdict} : trace.result = .ok out →
      launches trace.events =
        (packing.lines (provisions trace.events)).map (lineInvocation options) →
      Concludes trace log []
  | aborted {path : String} {rest : List Walk.Task} {error : OsError} :
      list ((walkOf options).pathOf path) = .error error →
      trace.result = .error (.listing ⟨(walkOf options).pathOf path, error⟩) →
      host.listed s trace.events =
        (walkOf options).answers log ++ [((walkOf options).pathOf path, .error error)] →
      launches trace.events =
        (packing.lines (provisions trace.events)).dropLast.map (lineInvocation options) →
      Concludes trace log (.directory path :: rest)

variable {host} {s} {options} {packing} {list} {php : String} {manyFiles : Bool}
  {verdict : Verdict} {fuel : Nat} {trace : Trace σ Verdict} {log : Walk.Log}
  {left : List Walk.Task}

theorem Concludes.stuck (h : Concludes host s options packing list trace log left) :
    (walkOf options).Stuck list left := by
  cases h with
  | verdict => trivial
  | aborted hfailed =>
    intro entries hlist
    rw [hfailed] at hlist
    cases hlist

theorem Concludes.launches_initial (h : Concludes host s options packing list trace log left) :
    (packing.lines (provisions trace.events)).dropLast.map (lineInvocation options) <+:
      launches trace.events := by
  cases h with
  | verdict _ hlaunches =>
    rw [hlaunches]
    exact (List.dropLast_prefix _).map _
  | aborted _ _ _ hlaunches => exact hlaunches ▸ List.prefix_rfl

theorem runBatch_concludes
    (hlists : host.ListsAs s list (runBatch host fuel options php manyFiles verdict s).events)
    (hresults : host.GivesResults s (runBatch host fuel options php manyFiles verdict s).events)
    (hfuel : ∀ {log files left}, (walkOf options).Course (walkOf options).tasks log files left →
      (∀ x ∈ log, list ((walkOf options).pathOf x.1) = .ok x.2) →
      files.length + log.length + 1 < fuel) :
    ∃ log left,
      (walkOf options).Course (walkOf options).tasks log
        (provisions (runBatch host fuel options php manyFiles verdict s).events) left ∧
      (∀ x ∈ log, list ((walkOf options).pathOf x.1) = .ok x.2) ∧
      Concludes host s options (packingOf host php manyFiles s) list
        (runBatch host fuel options php manyFiles verdict s) log left := by
  have hrun := runBatch_triple host options fuel php manyFiles verdict s
  cases hresult : (runBatch host fuel options php manyFiles verdict s).result with
  | ok out =>
    obtain ⟨log, hbatch, -⟩ := hrun.of_ok hresult
    exact ⟨log, [], hbatch.course,
      Walk.forall_mem_of_answers hlists (hbatch.listed_eq ▸ List.prefix_rfl),
      .verdict hresult hbatch.launches_eq⟩
  | error failure =>
    cases hrun.of_error hresult with
    | launch _ _ _ hrefused =>
      obtain ⟨refusal, hrefusal⟩ := hrefused
      obtain ⟨result, hgiven⟩ := hresults _ hrefusal
      cases hgiven
    | @walk log pull hends hfailure hlines =>
      obtain ⟨left, hcourse, hlog⟩ := hends.exists_course
      have hlog := Walk.forall_mem_of_answers hlists hlog
      have hlaunches := hlines.launches_eq
      rw [← Packing.dropLast_lines] at hlaunches
      generalize hlisted : host.listed s _ = answers at hends
      cases hends with
      | finished => cases hfailure
      | exhausted hcourse hspent =>
        have henough := hfuel hcourse hlog
        omega
      | failed error hcourse =>
        obtain rfl := Option.some.inj hfailure
        have hfailed := hlists _ (hlisted ▸ List.mem_append_right _ (List.mem_singleton_self _))
        exact ⟨log, _, hcourse, hlog, .aborted hfailed.symm hresult hlisted hlaunches⟩

end

-- ---------------------------------------------------------------------------
-- Runs with a verdict
-- ---------------------------------------------------------------------------

/-- What a batch run has come to that ends with a verdict. The tree may have changed while it ran:
the walk has seen what the listings showed, each at its time. -/
structure BatchReport {σ : Type} (host : Host σ) (s : σ) (options : Options) (packing : Packing)
    (verdict : Verdict) (events : List Event) (out : Verdict) : Prop where
  walked : ∃ log, (walkOf options).Course (walkOf options).tasks log (provisions events) [] ∧
    host.listed s events = (walkOf options).answers log
  launches_eq : launches events = (packing.lines (provisions events)).map fun line =>
    { command := .shell line.text
      directory := options.directory
      captureStdout := false
      timeout := options.timeout }
  outcome_isWorst : ∃ results : List InvocationResult, host.results s events = results.map .ok ∧
    out.outcome.IsWorst (verdict.outcome :: results.map InvocationResult.outcome)
  invocations_eq : out.invocations = verdict.invocations + (launches events).length
  filesProcessed_eq : out.filesProcessed = max verdict.filesProcessed
    (((packing.lines (provisions events)).map fun line => line.files.length).sum : Nat)

section
variable {σ : Type} {host : Host σ} {s : σ} {options : Options} {php : String} {manyFiles : Bool}
  {verdict out : Verdict} {fuel : Nat}

theorem BatchRun.report {packing : Packing} {events : List Event} {log : Walk.Log}
    (h : BatchRun host options packing s (walkOf options).tasks {} log events)
    {joint : Verdict} (hsettled : Settled host s verdict events joint)
    (hout : out = joint.withCounts (provisions events).length
      ((walkOf options).skippedItems log).length) :
    BatchReport host s options packing verdict events out := by
  obtain ⟨hfinished, rfl⟩ := hsettled
  have hcount : (outcomes events).length = (launches events).length := by
    rw [← hfinished.finishes_eq, outcomes, List.length_map, List.length_map]
  refine ⟨⟨log, h.course, h.listed_eq⟩, h.launches_eq,
    ⟨(finishes events).map Prod.snd, ?_, ?_⟩, ?_, ?_⟩
  · rw [hfinished.results_eq, List.map_map]
    rfl
  · have hworst := verdict.foldAll_isWorst (outcomes events)
    rw [hout, List.map_map]
    exact hworst
  · rw [hout, ← hcount]
    exact verdict.foldAll_invocations (outcomes events)
  · rw [hout, Packing.sum_length_lines, ← verdict.foldAll_filesProcessed (outcomes events)]
    rfl

/-- A batch run that ends with a verdict has launched all lines of its files, in order. Launches
that give other results, in a tree that has the same listings, do not change what is launched. -/
theorem runBatch_report
    (hrun : (runBatch host fuel options php manyFiles verdict s).result = .ok out) :
    BatchReport host s options (packingOf host php manyFiles s) verdict
      (runBatch host fuel options php manyFiles verdict s).events out ∧
    (host.platform = .posix →
      ∀ line ∈ (packingOf host php manyFiles s).lines
        (provisions (runBatch host fuel options php manyFiles verdict s).events),
      CommandLine.operands? line.text = some line.files) ∧
    ∀ {τ : Type} (other : Host τ) (t : τ) (fuel' : Nat) (verdict' : Verdict)
      (list : Path → Except OsError (List Entry)),
      packingOf other php manyFiles t = packingOf host php manyFiles s →
      host.ListsAs s list (runBatch host fuel options php manyFiles verdict s).events →
      other.ListsAs t list (runBatch other fuel' options php manyFiles verdict' t).events →
      other.GivesResults t (runBatch other fuel' options php manyFiles verdict' t).events →
      (provisions (runBatch host fuel options php manyFiles verdict s).events).length +
        (host.listed s (runBatch host fuel options php manyFiles verdict s).events).length + 1 <
        fuel' →
      launches (runBatch other fuel' options php manyFiles verdict' t).events =
        launches (runBatch host fuel options php manyFiles verdict s).events ∧
      ∃ out', (runBatch other fuel' options php manyFiles verdict' t).result = .ok out' := by
  obtain ⟨log, hbatch, joint, hsettled, hout⟩ :=
    (runBatch_triple host options fuel php manyFiles verdict s).of_ok hrun
  refine ⟨hbatch.report hsettled hout, fun hposix line hline => ?_, ?_⟩
  · exact operands?_of_admits hposix (Packing.admits_of_mem_lines hline)
  intro τ other t fuel' verdict' list hpacking hlists hlists' hresults hfuel
  have hlog : ∀ x ∈ log, list ((walkOf options).pathOf x.1) = .ok x.2 :=
    Walk.forall_mem_of_answers hlists (hbatch.listed_eq ▸ List.prefix_rfl)
  -- The other walk goes at most as far as this one has gone.
  have henough : ∀ {more files left},
      (walkOf options).Course (walkOf options).tasks more files left →
      (∀ x ∈ more, list ((walkOf options).pathOf x.1) = .ok x.2) →
      files.length + more.length + 1 < fuel' := by
    intro more files left hcourse hmore
    obtain ⟨later, rest, -, hlater, hrest⟩ :=
      hcourse.continues hmore hbatch.course hlog (fun _ _ h => h) trivial
    rw [hbatch.listed_eq, Walk.answers, List.length_map, hlater, hrest, List.length_append,
      List.length_append] at hfuel
    omega
  obtain ⟨log', left, hcourse, hlog', hconcludes⟩ := runBatch_concludes hlists' hresults henough
  obtain ⟨-, hfiles, rfl⟩ :=
    hbatch.course.unique hlog trivial hcourse hlog' hconcludes.stuck
  cases hconcludes with
  | verdict hresult hlaunches =>
    refine ⟨?_, _, hresult⟩
    rw [hlaunches, hfiles, hpacking, hbatch.launches_eq]
    rfl

/-- The commands of this script fail, the first one with an exit code of its own. -/
def failingScript : Script :=
  { tree := sampleTree, results := [.ok { exitCode := some 255 }] }

theorem runBatch_report_sample :
    BatchReport sampleHost sampleScript sampleOptions
      (packingOf sampleHost "php" false sampleScript) {}
      (runBatch sampleHost 4 sampleOptions "php" false {} sampleScript).events ⟨.ok, 1, 0, 1⟩ ∧
    (∀ line ∈ (packingOf sampleHost "php" false sampleScript).lines
        (provisions (runBatch sampleHost 4 sampleOptions "php" false {} sampleScript).events),
      CommandLine.operands? line.text = some line.files) ∧
    launches (runBatch sampleHost 5 sampleOptions "php" false {} failingScript).events =
      launches (runBatch sampleHost 4 sampleOptions "php" false {} sampleScript).events ∧
    ∃ out, (runBatch sampleHost 5 sampleOptions "php" false {} failingScript).result = .ok out := by
  have hrun : (runBatch sampleHost 4 sampleOptions "php" false {} sampleScript).result =
      .ok ⟨.ok, 1, 0, 1⟩ := by cbv
  have hlists : sampleHost.ListsAs failingScript sampleList
      (runBatch sampleHost 5 sampleOptions "php" false {} failingScript).events :=
    Setting.listsAs _ rfl _
  have hresults : sampleHost.GivesResults failingScript
      (runBatch sampleHost 5 sampleOptions "php" false {} failingScript).events :=
    Setting.givesResults _ (by simp [failingScript]) _
  have hfiles : (provisions
      (runBatch sampleHost 4 sampleOptions "php" false {} sampleScript).events).length = 1 := by
    cbv
  have hlisted : (sampleHost.listed sampleScript
      (runBatch sampleHost 4 sampleOptions "php" false {} sampleScript).events).length = 2 := by
    cbv
  obtain ⟨hreport, hoperands, hother⟩ := runBatch_report hrun
  exact ⟨hreport, hoperands rfl, hother sampleHost failingScript 5 {} sampleList rfl
    (Setting.listsAs _ rfl _) hlists hresults (by rw [hfiles, hlisted]; decide)⟩

end

-- ---------------------------------------------------------------------------
-- Runs that are broken off by a listing
-- ---------------------------------------------------------------------------

/-- What a batch run has come to that is broken off by the listing of a directory. -/
structure AbortReport {σ : Type} (host : Host σ) (s : σ) (options : Options) (packing : Packing)
    (trace : Trace σ Verdict) (path : Path) (error : OsError) : Prop where
  result_eq : trace.result = .error (.listing ⟨path, error⟩)
  walked : ∃ log item rest, (walkOf options).pathOf item = path ∧
    (walkOf options).Course (walkOf options).tasks log (provisions trace.events)
      (.directory item :: rest) ∧
    host.listed s trace.events = (walkOf options).answers log ++ [(path, .error error)]
  launches_eq : launches trace.events =
    (packing.lines (provisions trace.events)).dropLast.map (lineInvocation options)

section
variable {σ : Type} {host : Host σ} {s : σ} {options : Options} {php : String} {manyFiles : Bool}
  {verdict : Verdict} {fuel : Nat} {root : Node} {list : Path → Except OsError (List Entry)}

/-- A batch run that comes to a directory that cannot be listed fails with that directory. It has
launched the lines that were complete before, and a run in the same tree that can list the directory
begins with the same launches. -/
theorem runBatch_aborts
    (hfaithful : (walkOf options).Faithful (host.tree s) root list)
    (hunlistable : ∃ names error, (walkOf options).Enters root names ∧
      list ⟨options.directory.anchor, options.directory.names ++ names⟩ = .error error)
    (hlists : host.ListsAs s list (runBatch host fuel options php manyFiles verdict s).events)
    (hresults : host.GivesResults s (runBatch host fuel options php manyFiles verdict s).events)
    (hfuel : options.included.length + root.count + 1 < fuel) :
    ∃ names error, (walkOf options).Enters root names ∧
      list ⟨options.directory.anchor, options.directory.names ++ names⟩ = .error error ∧
      AbortReport host s options (packingOf host php manyFiles s)
        (runBatch host fuel options php manyFiles verdict s)
        ⟨options.directory.anchor, options.directory.names ++ names⟩ error ∧
      ∀ {τ : Type} (other : Host τ) (t : τ) (fuel' : Nat) (verdict' : Verdict)
        (list' : Path → Except OsError (List Entry)),
        packingOf other php manyFiles t = packingOf host php manyFiles s →
        (walkOf options).Faithful (other.tree t) root list' →
        (∀ path entries, list path = .ok entries → list' path = .ok entries) →
        other.ListsAs t list' (runBatch other fuel' options php manyFiles verdict' t).events →
        other.GivesResults t (runBatch other fuel' options php manyFiles verdict' t).events →
        options.included.length + root.count + 1 < fuel' →
        launches (runBatch host fuel options php manyFiles verdict s).events <+:
          launches (runBatch other fuel' options php manyFiles verdict' t).events := by
  obtain ⟨log, left, hcourse, hlog, hconcludes⟩ :=
    runBatch_concludes hlists hresults fun h hlog => hfaithful.length_lt h hlog hfuel
  obtain ⟨hshown, hentered⟩ := hfaithful.shows hcourse hlog
  cases hconcludes with
  | verdict =>
    -- A walk that is over has listed the directory.
    obtain ⟨names, error, henters, hfailed⟩ := hunlistable
    obtain ⟨entries, hget⟩ := henters.exists_directory
    obtain ⟨x, hx, hshows⟩ := hcourse.exists_listing hfaithful.root_wellNamed rfl hshown henters
    have hlisted := hlog x hx
    rw [hshows.path_eq, hfaithful.pathOf_joined hget] at hlisted
    cases hfailed.symm.trans hlisted
  | @aborted item rest error hfailed hresult hlisted hlaunches =>
    obtain ⟨names, henters, rfl⟩ := hentered _ List.mem_cons_self
    obtain ⟨entries, hget⟩ := henters.exists_directory
    have hpath := hfaithful.pathOf_joined hget
    rw [hpath] at hfailed hresult hlisted
    refine ⟨names, error, henters, hfailed,
      ⟨hresult, ⟨log, _, rest, hpath, hcourse, hlisted⟩, hlaunches⟩, ?_⟩
    intro τ other t fuel' verdict' list' hpacking hfaithful' hextends hlists' hresults' hfuel'
    obtain ⟨log', left, hcourse', hlog', hconcludes⟩ :=
      runBatch_concludes hlists' hresults' fun h hlog => hfaithful'.length_lt h hlog hfuel'
    -- The other walk goes on from where this one has stopped.
    obtain ⟨later, more, -, -, hfiles⟩ :=
      hcourse.continues hlog hcourse' hlog' hextends hconcludes.stuck
    have hyielded : provisions (runBatch host fuel options php manyFiles verdict s).events <+:
        provisions (runBatch other fuel' options php manyFiles verdict' t).events :=
      hfiles ▸ List.prefix_append _ _
    have hlines := (packingOf host php manyFiles s).dropLast_lines_mono hyielded
    rw [hlaunches, ← hpacking]
    rw [← hpacking] at hlines
    exact (hlines.map _).trans hconcludes.launches_initial

def closedError : OsError :=
  Errno.denied.error (.name "/w/b")

/-- The sample, where the inner directory must not be listed. -/
def closedSetting : Setting where
  platform := .posix
  environment := []
  helper := ""
  probe := fun _ => .ok { stdout := some "70433" }
  unlistable := [(⟨.root, ["w", "b"]⟩, closedError)]

def closedOptions : Options :=
  { sampleOptions with included := ["a.php", "d.php"] }

theorem sampleList_of_closed {path : Path} {entries : List Entry}
    (h : closedSetting.list sampleTree path = .ok entries) : sampleList path = .ok entries := by
  unfold Setting.list at h
  split at h
  · cases h
  · exact h

theorem runBatch_aborts_sample :
    ∃ names error, (walkOf closedOptions).Enters sampleRoot names ∧
      closedSetting.list sampleTree ⟨.root, "w" :: names⟩ = .error error ∧
      AbortReport closedSetting.host sampleScript closedOptions
        (packingOf closedSetting.host "php" false sampleScript)
        (runBatch closedSetting.host 8 closedOptions "php" false {} sampleScript)
        ⟨.root, "w" :: names⟩ error ∧
      launches (runBatch closedSetting.host 8 closedOptions "php" false {} sampleScript).events <+:
        launches (runBatch sampleHost 8 closedOptions "php" false {} failingScript).events := by
  have henters : (walkOf closedOptions).Enters sampleRoot ["b"] :=
    ⟨⟨_, rfl⟩, by rintro ⟨above, -, -, hmem⟩; cases hmem⟩
  have hclosed : closedSetting.list sampleTree ⟨.root, ["w", "b"]⟩ = .error closedError := by cbv
  have hfaithful : (walkOf closedOptions).Faithful (closedSetting.host.tree sampleScript) sampleRoot
      (closedSetting.list sampleTree) := sampleTree_faithful rfl rfl Setting.lists_of_list
  have hopen : (walkOf closedOptions).Faithful (sampleHost.tree failingScript) sampleRoot
      sampleList := sampleTree_faithful rfl rfl lists_of_sampleList
  have hlists : closedSetting.host.ListsAs sampleScript (closedSetting.list sampleTree)
      (runBatch closedSetting.host 8 closedOptions "php" false {} sampleScript).events :=
    Setting.listsAs _ rfl _
  have hlists' : sampleHost.ListsAs failingScript sampleList
      (runBatch sampleHost 8 closedOptions "php" false {} failingScript).events :=
    Setting.listsAs _ rfl _
  have hresults : closedSetting.host.GivesResults sampleScript
      (runBatch closedSetting.host 8 closedOptions "php" false {} sampleScript).events :=
    Setting.givesResults _ (by simp [sampleScript]) _
  have hresults' : sampleHost.GivesResults failingScript
      (runBatch sampleHost 8 closedOptions "php" false {} failingScript).events :=
    Setting.givesResults _ (by simp [failingScript]) _
  obtain ⟨names, error, hnames, herror, hreport, hother⟩ :=
    runBatch_aborts hfaithful ⟨["b"], closedError, henters, hclosed⟩ hlists hresults (by decide)
  exact ⟨names, error, hnames, herror, hreport, hother sampleHost failingScript 8 {} sampleList rfl
    hopen (fun _ _ => sampleList_of_closed) hlists' hresults' (by decide)⟩

end

end Check

end LintRun
