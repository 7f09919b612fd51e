import LintRun.Proofs.CheckLaws
import LintRun.Proofs.Coverage
import LintRun.Proofs.Creation
import LintRun.Proofs.Launching
import LintRun.Proofs.ResolvedOptions
import LintRun.Proofs.VerdictLaws

/-!
# Refused launches in a batch run

A batch run goes on after a child that the system refuses to create: the refusal is told and noted,
and the next line is launched. The one attempt that breaks a run off is that for a line with a
character which no text of the system can have, and such a character comes from the interpreter or
from a file of the line (`runBatch_withstands`).
-/

namespace LintRun

open Run (Triple)
open Machine (hasNul)

-- ---------------------------------------------------------------------------
-- Characters of a line
-- ---------------------------------------------------------------------------

namespace Shell

theorem nul_mem_quoteChars (platform : Platform) (cs : List Char) :
    '\x00' ∈ quoteChars platform cs ↔ '\x00' ∈ cs := by
  cases platform with
  | posix =>
    rw [quoteChars, quotePosix]
    split
    · rfl
    · have hchar : ∀ c : Char, '\x00' ∈ (if c = '\'' then quotedQuote else [c]) ↔ c = '\x00' := by
        intro c
        split
        · rename_i hquote
          subst hquote
          decide
        · simp [eq_comm]
      simp [singleQuoted, hchar]
  | windows =>
    rw [quoteChars, quoteWindows]
    split
    · rfl
    · simp

end Shell

namespace Machine

theorem hasNul_eq (text : String) : hasNul text = decide ('\x00' ∈ text.toList) :=
  String.contains_char_eq

theorem hasNul_append (first second : String) :
    hasNul (first ++ second) = (hasNul first || hasNul second) := by
  simp [hasNul_eq]

theorem hasNul_quote (platform : Platform) (text : String) :
    hasNul (Shell.quote platform text) = hasNul text := by
  simp [hasNul_eq, Shell.quote, Shell.nul_mem_quoteChars]

theorem hasNul_lintOpening (platform : Platform) (php : String) :
    hasNul (Shell.lintOpening platform php) = hasNul php := by
  have hspace : " ".toList = [' '] := rfl
  have hoptions : '\x00' ∉ Shell.lintOptions.flatMap fun option => ' ' :: option.toList := by
    decide
  rw [← hasNul_quote platform php, hasNul_eq, hasNul_eq, Shell.lintOpening,
    String.toList_intercalate, List.map_cons, hspace, Shell.intercalate_cons,
    List.flatMap_map]
  simp only [List.mem_append, hoptions, or_false]

end Machine

/-- A character that ends a text comes to a line from the interpreter or from a file of the line. -/
theorem Check.hasNul_line {σ : Type} {host : Host σ} {php : String} {manyFiles : Bool} {s : σ}
    {line : Line} (h : (packingOf host php manyFiles s).Admits line) :
    hasNul line.text = true ↔
      hasNul php = true ∨ ∃ file ∈ line.files, hasNul file = true := by
  have htoken : ∀ file, hasNul (" " ++ Shell.quote host.platform file) = hasNul file := by
    intro file
    rw [Machine.hasNul_append, Machine.hasNul_quote, Machine.hasNul_eq " "]
    rfl
  have hfiles : hasNul (String.join (line.files.map fun file =>
      " " ++ Shell.quote host.platform file)) = true ↔ ∃ file ∈ line.files, hasNul file = true := by
    rw [Machine.hasNul_eq, String.toList_join, List.flatMap_map, decide_eq_true_eq,
      List.mem_flatMap]
    refine exists_congr fun file => and_congr_right fun _ => ?_
    rw [← htoken file, Machine.hasNul_eq, decide_eq_true_eq]
  rw [h.text_eq, Packing.render, Machine.hasNul_append, Bool.or_eq_true]
  dsimp only [packingOf]
  rw [Machine.hasNul_lintOpening, hfiles]

-- ---------------------------------------------------------------------------
-- What follows a launch
-- ---------------------------------------------------------------------------

section
variable {σ : Type} (host : Host σ)

/-- Every launch is followed by its aftermath at once. One that gives no result is the last event
of the run but for that, and the run fails for the same reason. -/
def Host.Relays (s : σ) (events : List Event) (failure : Option Failure) : Prop :=
  ∀ before invocation later, events = before ++ .launch invocation :: later →
    let launched := (host.launch invocation (host.after s before)).1
    ∃ rest, later = launched.aftermath invocation ++ rest ∧
      ∀ refusal, launched.result = .error refusal →
        rest = [] ∧ failure = some (.ofLaunch refusal)

variable {host} {s : σ} {events later : List Event} {failure : Option Failure}

theorem Host.Relays.of_launches_nil (h : launches events = []) : host.Relays s events failure := by
  rintro before invocation later rfl
  rw [launches_append, List.append_eq_nil_iff] at h
  cases h.2

theorem Host.Relays.append (h : host.Relays s events none)
    (hlater : host.Relays (host.after s events) later failure) :
    host.Relays s (events ++ later) failure := by
  intro before invocation rest heq
  rcases List.append_eq_append_iff.mp heq with ⟨more, rfl, rfl⟩ | ⟨more, rfl, hrest⟩
  · rw [host.after_append]
    exact hlater more invocation rest rfl
  · cases more with
    | nil =>
      rw [List.nil_append] at hrest
      rw [List.append_nil] at hlater
      exact hlater [] invocation rest hrest.symm
    | cons first more =>
      obtain ⟨rfl, rfl⟩ := List.cons.inj hrest
      obtain ⟨between, rfl, hbroken⟩ := h before invocation more rfl
      refine ⟨between ++ later, List.append_assoc _ _ _, fun refusal hrefusal => ?_⟩
      cases (hbroken refusal hrefusal).2

theorem Host.relays_launch {invocation : Invocation}
    (h : ∀ refusal, (host.launch invocation s).1.result = .error refusal →
      failure = some (.ofLaunch refusal)) :
    host.Relays s
      (.launch invocation :: (host.launch invocation s).1.aftermath invocation) failure := by
  intro before other later heq
  cases before with
  | nil =>
    obtain ⟨⟨⟩, rfl⟩ := List.cons.inj heq
    exact ⟨[], (List.append_nil _).symm, fun refusal hrefusal => ⟨rfl, h refusal hrefusal⟩⟩
  | cons first before =>
    -- There is no launch in the aftermath of one.
    have hnone : launches ((host.launch invocation s).1.aftermath invocation) = [] :=
      Launched.launches_aftermath
    have htail : (host.launch invocation s).1.aftermath invocation =
        before ++ .launch other :: later := (List.cons.inj heq).2
    rw [htail, launches_append, List.append_eq_nil_iff] at hnone
    cases hnone.2

namespace Check

variable (host) (options : Options)

theorem launchLine?_relays (verdict : Verdict) (line : Option Line) (s : σ) :
    Triple (launchLine? host options verdict line) s
      (fun events _ t => t = host.after s events ∧ host.Relays s events none)
      fun events e _ => host.Relays s events (some e) := by
  cases line with
  | none => exact Triple.pure ⟨rfl, .of_launches_nil rfl⟩
  | some line =>
    refine Triple.seq (explain_still options _ s) ?_
    rintro told _ t ⟨htold, rfl⟩
    have htrail : ∀ {failure}, host.Relays t told failure :=
      .of_launches_nil htold.quiet.launches_eq
    have hkept := host.after_writing t htold
    refine Triple.bind (host.runLaunch_answer (lineInvocation options line) t) ?_ ?_
    · rintro _ result _ ⟨rfl, hresult, rfl⟩
      refine Triple.pure ⟨?_, ?_⟩
      · simp [hkept]
      · rw [List.append_nil]
        refine htrail.append (hkept.symm ▸ Host.relays_launch fun refusal hrefusal => ?_)
        rw [hresult] at hrefusal
        cases hrefusal
    · rintro _ _ _ ⟨rfl, failure, hfailure, rfl⟩
      refine htrail.append (hkept.symm ▸ Host.relays_launch fun refusal hrefusal => ?_)
      rw [hfailure] at hrefusal
      cases hrefusal
      rfl

theorem batchLoop_relays (packing : Packing) (fuel : Nat) (tasks : List Walk.Task)
    (counters : Counters) (packer : Packer) (verdict : Verdict) (s : σ) :
    Triple (batchLoop host options packing fuel tasks counters packer verdict) s
      (fun events _ _ => host.Relays s events none)
      fun events e _ => host.Relays s events (some e) := by
  induction fuel generalizing tasks counters packer verdict s with
  | zero => exact Triple.fail (.of_launches_nil rfl)
  | succ fuel ih =>
    rw [batchLoop]
    refine Triple.seq (Walk.next_triple host _ fuel tasks counters) ?_
    rintro pulled ⟨pull, counted⟩ _ ⟨hquiet, rfl, -⟩
    have htrail : ∀ {failure}, host.Relays s pulled failure := .of_launches_nil hquiet.launches_eq
    cases pull with
    | failed failure => exact Triple.fail (by simpa using htrail)
    | exhausted => exact Triple.fail (by simpa using htrail)
    | finished =>
      refine Triple.bind (launchLine?_relays host options verdict _ _) ?_ ?_
      · rintro events out t ⟨-, hevents⟩
        refine Triple.pure ?_
        rw [List.append_nil]
        exact htrail.append hevents
      · rintro events e t hevents
        exact htrail.append hevents
    | file path rest =>
      dsimp only
      refine Triple.seq (P := fun events _ t => events = [.provide path] ∧
        t = host.after s pulled) (Triple.emit ⟨rfl, rfl⟩) ?_
      rintro _ _ _ ⟨rfl, rfl⟩
      have hprovide : ∀ {failure}, host.Relays (host.after s pulled) [.provide path] failure :=
        .of_launches_nil rfl
      refine Triple.bind (launchLine?_relays host options verdict _ _) ?_ ?_
      · rintro events out _ ⟨rfl, hevents⟩
        refine (ih rest counted _ out _).mono ?_ ?_
        · intro more _ _ hmore
          exact htrail.append (hprovide.append (hevents.append hmore))
        · intro more e _ hmore
          exact htrail.append (hprovide.append (hevents.append hmore))
      · rintro events e t hevents
        exact htrail.append (hprovide.append hevents)

theorem runBatch_relays (fuel : Nat) (php : String) (manyFiles : Bool) (verdict : Verdict) (s : σ) :
    Triple (runBatch host fuel options php manyFiles verdict) s
      (fun events _ _ => host.Relays s events none)
      fun events e _ => host.Relays s events (some e) := by
  unfold runBatch
  refine Triple.seq (explain_still options _ s) ?_
  rintro told _ t ⟨htold, ht⟩
  refine Triple.seq (lineLimit_triple host options manyFiles t) ?_
  rintro asked limit u ⟨hasked, hu, -⟩
  have hquiet := htold.quiet.append hasked.quiet
  have hstate : u = host.after s (told ++ asked) := by
    rw [hu, ht, host.after_append, host.after_writing s htold]
  have htrail : ∀ {failure}, host.Relays s (told ++ asked) failure :=
    .of_launches_nil hquiet.launches_eq
  refine Triple.bind (batchLoop_relays host options _ fuel _ {} {} verdict u) ?_ ?_
  · rintro events ⟨joint, counters⟩ _ hevents
    refine Triple.pure ?_
    rw [List.append_nil, ← List.append_assoc]
    exact htrail.append (hstate ▸ hevents)
  · rintro events e _ hevents
    rw [← List.append_assoc]
    exact htrail.append (hstate ▸ hevents)

-- ---------------------------------------------------------------------------
-- Why a run breaks off
-- ---------------------------------------------------------------------------

/-- Why a batch run breaks off, if a refusal of the system does not do it: the walk fails once all
complete lines have been launched, or the last line that was launched has been cancelled, has never
ended, or has a character that no text of the system can have. -/
inductive BrokenOff (create : Invocation → σ → Except Machine.Refusal (List Launch.Event))
    (options : Options) (packing : Packing) (s : σ) (events : List Event) : Failure → Prop
  | listing (failure : ListingFailure) :
      launches events =
        (packing.lines (provisions events)).dropLast.map (lineInvocation options) →
      BrokenOff create options packing s events (.listing failure)
  | exhausted :
      launches events =
        (packing.lines (provisions events)).dropLast.map (lineInvocation options) →
      BrokenOff create options packing s events .unfinished
  | cancelled {before passed : List Event} {line : Line} {seen heard : List Launch.Event} :
      events = before ++ .launch (lineInvocation options line) :: passed → Writing passed →
      create (lineInvocation options line) (host.after s before) = .ok seen →
      Launch.Ends (lineInvocation options line) seen heard .cancelled →
      BrokenOff create options packing s events .cancelled
  | endless {before passed : List Event} {line : Line} {seen heard : List Launch.Event}
      {last : List Launch.Action} :
      events = before ++ .launch (lineInvocation options line) :: passed → Writing passed →
      create (lineInvocation options line) (host.after s before) = .ok seen →
      Launch.Unended (lineInvocation options line) seen heard last →
      BrokenOff create options packing s events .unfinished
  | nulByte {before : List Event} {line : Line} :
      events = before ++ [.launch (lineInvocation options line)] →
      create (lineInvocation options line) (host.after s before) = .error .nulByte →
      BrokenOff create options packing s events .nulByte

variable {host} {options} {packing : Packing} {tasks : List Walk.Task} {packer : Packer}
  {fuel : Nat} {create : Invocation → σ → Except Machine.Refusal (List Launch.Event)}

/-- The system could not create the child of a line. -/
theorem refusal_aftermath (e : OsError) (invocation : Invocation) :
    (Launch.attempted invocation (.error (.system e))).aftermath invocation =
      [.forward (Launch.refusalLine e) .stderr, .finish invocation (Launch.refused e)] := rfl

variable (options) in
theorem launch_line (hstarts : host.StartsBy create) (line : Line) (s : σ) :
    (host.launch (lineInvocation options line) s).1 = Launch.attempted
      (lineInvocation options line) (create (lineInvocation options line) s) :=
  hstarts.launch_eq (List.cons_ne_nil _ _)

theorem Breach.brokenOff {events : List Event} {failure : Failure} (hstarts : host.StartsBy create)
    (h : Breach host options packing s tasks {} fuel events failure)
    (hrelays : host.Relays s events (some failure)) :
    BrokenOff host create options packing s events failure := by
  cases h with
  | @walk log pull _ hfailure hlines =>
    have hlaunches := hlines.launches_eq
    rw [← packing.dropLast_lines] at hlaunches
    cases pull with
    | failed failed =>
      obtain rfl := Option.some.inj hfailure
      exact .listing failed hlaunches
    | exhausted =>
      obtain rfl := Option.some.inj hfailure
      exact .exhausted hlaunches
    | _ => cases hfailure
  | launch _ _ hlines hrefused =>
    obtain ⟨refusal, hrefusal⟩ := hrefused
    obtain ⟨before, invocation, later, rfl, hanswer⟩ := (host.mem_results s).mp hrefusal
    obtain ⟨rest, rfl, hlast⟩ := hrelays before invocation later rfl
    obtain ⟨rfl, hfailure⟩ := hlast refusal hanswer
    obtain rfl := Option.some.inj hfailure
    obtain ⟨line, -, rfl⟩ : ∃ line ∈ packing.lines (provisions _), lineInvocation options line =
        invocation := List.mem_map.mp (hlines.subset (by simp))
    have hlaunched := launch_line options hstarts line (host.after s before)
    rw [List.append_nil, Launched.aftermath_of_error hanswer]
    have hpassed := (host.launch (lineInvocation options line)
      (host.after s before)).1.writing_passedOn
    cases hcreate : create (lineInvocation options line) (host.after s before) with
    | ok seen =>
      rw [hlaunched, hcreate] at hanswer
      rcases Launch.attempted_ok_error hanswer with ⟨rfl, heard, hends⟩ |
          ⟨rfl, heard, last, hunended⟩
      · exact .cancelled rfl hpassed hcreate hends
      · exact .endless rfl hpassed hcreate hunended
    | error refused =>
      rw [hlaunched, hcreate] at hanswer
      cases refused with
      | system e => cases hanswer
      | nulByte =>
        obtain rfl := Except.error.inj hanswer
        refine .nulByte ?_ hcreate
        rw [hlaunched, hcreate]
        rfl

-- ---------------------------------------------------------------------------
-- Where such a character comes from
-- ---------------------------------------------------------------------------

theorem hasNul_itemPath {walk : Walk} (hseparator : walk.separator = "/") {path name : String}
    (hpath : hasNul path = false) (hname : hasNul name = false) :
    hasNul (walk.itemPath path name) = false := by
  have hslash : hasNul "/" = false := by rw [Machine.hasNul_eq]; rfl
  unfold Walk.itemPath
  split
  · exact hname
  · rw [Machine.hasNul_append, Machine.hasNul_append, hpath, hseparator, hslash, hname]
    rfl

/-- The walk makes no such character, and what is listed has none. -/
theorem hasNul_of_course {walk : Walk} {tasks left : List Walk.Task} {log : Walk.Log}
    {files : List String} (h : walk.Course tasks log files left) (hseparator : walk.separator = "/")
    (hnames : ∀ x ∈ log, ∀ entry ∈ x.2, hasNul entry.name = false)
    (hdirectories : ∀ path, .directory path ∈ tasks → hasNul path = false)
    (hfiles : ∀ path, .file path ∈ tasks → hasNul path = true → path ∈ walk.included) :
    ∀ file ∈ files, hasNul file = true → file ∈ walk.included := by
  induction h with
  | stop => exact List.forall_mem_nil _
  | @file path rest left log files _ ih =>
    refine List.forall_mem_cons.mpr ⟨hfiles path List.mem_cons_self, ih hnames ?_ ?_⟩
    · exact fun other hmem => hdirectories other (List.mem_cons_of_mem _ hmem)
    · exact fun other hmem => hfiles other (List.mem_cons_of_mem _ hmem)
  | @directory path entries rest left log files _ ih =>
    obtain ⟨hlisted, hlater⟩ := List.forall_mem_cons.mp hnames
    have hpath := hdirectories path List.mem_cons_self
    have hitem : ∀ entry ∈ entries, hasNul (walk.itemPath path entry.name) = false :=
      fun entry hentry => hasNul_itemPath hseparator hpath (hlisted entry hentry)
    refine ih hlater ?_ ?_
    · intro other hmem
      rcases List.mem_append.mp hmem with hexpand | hrest
      · obtain ⟨entry, hentry, -, ⟨-, -, ⟨⟩⟩ | ⟨-, ⟨⟩⟩⟩ := Walk.mem_expand.mp hexpand
        exact hitem entry hentry
      · exact hdirectories other (List.mem_cons_of_mem _ hrest)
    · intro other hmem hnul
      rcases List.mem_append.mp hmem with hexpand | hrest
      · obtain ⟨entry, hentry, -, ⟨-, -, ⟨⟩⟩ | ⟨-, ⟨⟩⟩⟩ := Walk.mem_expand.mp hexpand
        rw [hitem entry hentry] at hnul
        cases hnul
      · exact hfiles other (List.mem_cons_of_mem _ hrest) hnul

/-- Where the names of the system have no such character, a file of the run that has one is
included by name. -/
theorem BatchSoFar.included_of_hasNul {events : List Event} {file : String}
    (h : BatchSoFar host options packing s (walkOf options).tasks packer events)
    (hnames : ∀ {path entries}, (path, .ok entries) ∈ host.listed s events →
      ∀ entry ∈ entries, hasNul entry.name = false)
    (hfile : file ∈ provisions events) (hnul : hasNul file = true) : file ∈ options.included := by
  obtain ⟨log, left, hcourse, hlisted⟩ := h.exists_course
  refine hasNul_of_course hcourse rfl ?_ ?_ ?_ file hfile hnul
  · intro x hx
    exact hnames (hlisted (List.mem_map.mpr ⟨x, hx, rfl⟩))
  · intro path hmem
    obtain rfl : path = "" := by simpa [Walk.tasks] using hmem
    rw [Machine.hasNul_eq]
    rfl
  · intro path hmem _
    simpa [Walk.tasks, walkOf] using hmem

-- ---------------------------------------------------------------------------
-- The run
-- ---------------------------------------------------------------------------

variable (host) in
/-- The refusal of a launch is told and noted, and it leaves its mark on a verdict. -/
structure Noted (create : Invocation → σ → Except Machine.Refusal (List Launch.Event)) (s : σ)
    (trace : Trace σ Verdict) : Prop where
  aftermath : ∀ {before invocation later e},
    trace.events = before ++ .launch invocation :: later →
    create invocation (host.after s before) = .error (.system e) →
    ∃ result rest,
      later = .forward (Launch.refusalLine e) .stderr :: .finish invocation result :: rest ∧
      result.exitCode = none ∧ result.failure = some e.message ∧ result.outcome = .errors
  outcome_eq : ∀ {before invocation later e out},
    trace.events = before ++ .launch invocation :: later →
    create invocation (host.after s before) = .error (.system e) →
    trace.result = .ok out → out.outcome = .errors

theorem hasNul_lineInvocation {php : String} {manyFiles : Bool} {line : Line}
    (hdirectory : hasNul options.directory.text = false)
    (h : (packingOf host php manyFiles s).Admits line) :
    (lineInvocation options line).HasNul ↔
      hasNul php = true ∨ ∃ file ∈ line.files, hasNul file = true := by
  have hshell : (["/bin/sh", "-c", line.text].any hasNul) = hasNul line.text := by
    have hsh : hasNul "/bin/sh" = false := by rw [Machine.hasNul_eq]; rfl
    have hflag : hasNul "-c" = false := by rw [Machine.hasNul_eq]; rfl
    simp [hsh, hflag]
  rw [← hasNul_line h, ← hshell]
  exact or_iff_left (Bool.eq_false_iff.mp hdirectory)

variable (host) (options) in
/-- The trail of a run and how it fails. -/
theorem exists_relays (fuel : Nat) (php : String) (manyFiles : Bool) (verdict : Verdict) (s : σ) :
    let trace := runBatch host fuel options php manyFiles verdict s
    ∃ failure, host.Relays s trace.events failure ∧
      ∀ e, failure = some e → trace.result = .error e := by
  intro trace
  have hrelays := runBatch_relays host options fuel php manyFiles verdict s
  cases hresult : trace.result with
  | ok out => exact ⟨none, hrelays.of_ok hresult, fun e he => by cases he⟩
  | error e =>
    refine ⟨some e, hrelays.of_error hresult, ?_⟩
    rintro _ ⟨⟩
    rfl

theorem noted {php : String} {manyFiles : Bool} {verdict : Verdict} {s : σ}
    (hstarts : host.StartsBy create) :
    Noted host create s (runBatch host fuel options php manyFiles verdict s) := by
  let trace := runBatch host fuel options php manyFiles verdict s
  have hsoFar := runBatch_soFar host options fuel php manyFiles verdict s
  obtain ⟨failure, hrelays, -⟩ := exists_relays host options fuel php manyFiles verdict s
  have hafter : ∀ {before invocation later e},
      trace.events = before ++ .launch invocation :: later →
      create invocation (host.after s before) = .error (.system e) →
      ∃ rest, later = .forward (Launch.refusalLine e) .stderr ::
        .finish invocation (Launch.refused e) :: rest := by
    intro before invocation later e hevents hcreate
    obtain ⟨line, -, -, rfl⟩ := hsoFar.exists_line
      (show Event.launch invocation ∈ trace.events by simp [hevents])
    obtain ⟨rest, hlater, -⟩ := hrelays before _ later hevents
    rw [launch_line options hstarts, hcreate, refusal_aftermath] at hlater
    exact ⟨rest, hlater⟩
  refine ⟨?_, ?_⟩
  · intro before invocation later e hevents hcreate
    obtain ⟨rest, hlater⟩ := hafter hevents hcreate
    exact ⟨Launch.refused e, rest, hlater, rfl, rfl, Launch.outcome_refused e⟩
  · intro before invocation later e out hevents hcreate hout
    obtain ⟨rest, rfl⟩ := hafter hevents hcreate
    obtain ⟨joint, houtcome, hdone⟩ :=
      (runBatch_done host options fuel php manyFiles verdict s).of_ok hout
    have hfinish : Event.finish invocation (Launch.refused e) ∈ trace.events := by
      rw [hevents]
      simp
    have hmem : Outcome.errors ∈ outcomes trace.events :=
      List.mem_map.mpr ⟨_, mem_finishes.mpr hfinish, rfl⟩
    have hsevere := (verdict.severity_le_foldAll (outcomes trace.events)).2 _ hmem
    rw [houtcome, hdone.out_eq]
    revert hsevere
    cases (verdict.foldAll (outcomes trace.events)).outcome <;> decide

theorem brokenOff_of_error {php : String} {manyFiles : Bool} {verdict : Verdict} {s : σ}
    {failure : Failure} (hstarts : host.StartsBy create)
    (h : (runBatch host fuel options php manyFiles verdict s).result = .error failure) :
    BrokenOff host create options (packingOf host php manyFiles s) s
      (runBatch host fuel options php manyFiles verdict s).events failure :=
  ((runBatch_triple host options fuel php manyFiles verdict s).of_error h).brokenOff hstarts
    ((runBatch_relays host options fuel php manyFiles verdict s).of_error h)

/-- A run fails for such a character just if a line that has one is launched. -/
theorem nulByte_iff {php : String} {manyFiles : Bool} {verdict : Verdict} {s : σ}
    (hstarts : host.StartsBy create) (hdirectory : hasNul options.directory.text = false) :
    let trace := runBatch host fuel options php manyFiles verdict s
    trace.result = .error .nulByte ↔
      ∃ line ∈ (packingOf host php manyFiles s).lines (provisions trace.events),
        Event.launch (lineInvocation options line) ∈ trace.events ∧
          (hasNul php = true ∨ ∃ file ∈ line.files, hasNul file = true) := by
  intro trace
  have hline : ∀ {line}, line ∈ (packingOf host php manyFiles s).lines (provisions trace.events) →
      ((lineInvocation options line).HasNul ↔
        hasNul php = true ∨ ∃ file ∈ line.files, hasNul file = true) := fun hmem =>
    hasNul_lineInvocation hdirectory (Packing.admits_of_mem_lines hmem)
  constructor
  · intro hresult
    obtain ⟨before, line, hevents, hcreate⟩ : ∃ before line,
        trace.events = before ++ [.launch (lineInvocation options line)] ∧
        create (lineInvocation options line) (host.after s before) = .error .nulByte := by
      cases brokenOff_of_error hstarts hresult with
      | nulByte hevents hcreate => exact ⟨_, _, hevents, hcreate⟩
    have hlaunch : Event.launch (lineInvocation options line) ∈ trace.events := by
      simp [hevents]
    have hinitial := (runBatch_soFar host options fuel php manyFiles verdict s).launches_initial
    obtain ⟨known, hknown, heq⟩ :=
      List.mem_map.mp (hinitial.subset (mem_launches.mpr hlaunch))
    rw [← heq] at hlaunch hcreate
    exact ⟨known, hknown, hlaunch, (hline hknown).mp (hstarts.nulByte_iff.mp hcreate)⟩
  · rintro ⟨line, hmem, hlaunch, hnul⟩
    obtain ⟨before, later, hevents⟩ := List.append_of_mem hlaunch
    obtain ⟨failure, hrelays, hfailure⟩ := exists_relays host options fuel php manyFiles verdict s
    obtain ⟨rest, -, hlast⟩ := hrelays before _ later hevents
    have hcreate : create (lineInvocation options line) (host.after s before) =
        .error .nulByte := hstarts.nulByte_iff.mpr ((hline hmem).mpr hnul)
    rw [launch_line options hstarts, hcreate] at hlast
    exact hfailure _ (hlast .nulByte rfl).2

/-- However many children the system refuses to create, each refusal is told and noted and the run
goes on to its other lines. What can break a run off at a launch is a cancellation, a child that
never ends, and a character of the line that no text of the system can have; that one comes from the
interpreter or from a file that is included by name. -/
theorem runBatch_withstands {tree : Tree} {overrides : Overrides} {environment : Environment}
    {cwd : Path} (hstarts : host.StartsBy create)
    (hoptions : Options.resolve tree overrides environment cwd = .ok options) (fuel : Nat)
    (php : String) (manyFiles : Bool) (verdict : Verdict) (s : σ) :
    let trace := runBatch host fuel options php manyFiles verdict s
    let packing := packingOf host php manyFiles s
    let lines := packing.lines (provisions trace.events)
    Noted host create s trace ∧
    (∀ out, trace.result = .ok out →
      launches trace.events = lines.map (lineInvocation options)) ∧
    (∀ failure, trace.result = .error failure →
      BrokenOff host create options packing s trace.events failure) ∧
    (trace.result = .error .nulByte ↔
      ∃ line ∈ lines, Event.launch (lineInvocation options line) ∈ trace.events ∧
        (hasNul php = true ∨ ∃ file ∈ line.files, hasNul file = true)) ∧
    ((∀ {path entries}, (path, .ok entries) ∈ host.listed s trace.events →
        ∀ entry ∈ entries, hasNul entry.name = false) →
      ∀ file ∈ provisions trace.events, hasNul file = true → file ∈ options.included) := by
  intro trace packing lines
  refine ⟨noted hstarts, ?_, fun failure => brokenOff_of_error hstarts, ?_, ?_⟩
  · intro out hout
    obtain ⟨log, hrun, -⟩ := (runBatch_triple host options fuel php manyFiles verdict s).of_ok hout
    exact hrun.launches_eq
  · exact nulByte_iff hstarts
      (Tree.not_contains_nul_of_hasDirectory (Options.resolved_of_resolve hoptions).hasDirectory)
  · intro hnames file hfile hnul
    exact (runBatch_soFar host options fuel php manyFiles verdict s).included_of_hasNul hnames hfile
      hnul

end Check

end

-- ---------------------------------------------------------------------------
-- A system that knows one invocation
-- ---------------------------------------------------------------------------

/-- The attempt to create the child of one invocation has a given end. Any other child ends well,
if its command can be handed over. -/
def knowingCreate (known : Invocation) (answer : Except Machine.Refusal (List Launch.Event))
    (invocation : Invocation) (_ : Script) : Except Machine.Refusal (List Launch.Event) :=
  if invocation = known then answer
  else if (Machine.wordsOf invocation.command).any hasNul || hasNul invocation.directory.text then
    .error .nulByte
  else .ok [.closed .stderr, .exited 0]

def knowingHost (known : Invocation) (answer : Except Machine.Refusal (List Launch.Event)) :
    Host Script :=
  { sampleHost with
    launch := fun invocation script =>
      (Launch.attempted invocation (knowingCreate known answer invocation script), script) }

theorem knowingHost_startsBy {known : Invocation}
    {answer : Except Machine.Refusal (List Launch.Event)}
    (h : answer = .error .nulByte ↔ known.HasNul) :
    (knowingHost known answer).StartsBy (knowingCreate known answer) where
  launch_eq := fun _ => rfl
  nulByte_iff := by
    intro invocation script
    unfold knowingCreate
    split
    · rename_i hknown
      rw [hknown]
      exact h
    · rw [Invocation.HasNul, ← Bool.or_eq_true]
      split <;> simp_all

namespace Check

-- ---------------------------------------------------------------------------
-- A refused line
-- ---------------------------------------------------------------------------

def pairOverrides : Overrides := { included := some ["a.php", "b.php"] }

def pairOptions : Options where
  directory := Options.configuredDirectory
  included := ["a.php", "b.php"]
  excluded := []
  failOnWarnings := false
  supportDuplicatedNames := false
  debug := false
  php := "php"
  timeout := none

theorem resolve_pair : Options.resolve (Options.configuredTree []) pairOverrides []
    Options.configuredDirectory = .ok pairOptions := by
  have hproposes : Options.Proposes pairOverrides [] [] Options.configuredDirectory {
      directory := some Options.configuredDirectory
      included := ["a.php", "b.php"] } := ⟨rfl, rfl, rfl, rfl, rfl, rfl, rfl, rfl⟩
  have hlayers : Options.ofLayers (Options.configuredTree []) pairOverrides [] []
      Options.configuredDirectory = .ok pairOptions :=
    Options.ofLayers_eq_ok_iff.mpr ⟨_, Options.propose_eq_ok_iff.mpr hproposes, by cbv⟩
  exact (Options.resolve_eq_ofLayers Options.defaultsIn_unconfigured).trans hlayers

def pairScript : Script := { tree := Options.configuredTree [] }

/-- Each of the two files has a line of its own. -/
def pairPacking : Packing := packingOf sampleHost "php" false pairScript

def pairInvocation (file : String) : Invocation :=
  lineInvocation pairOptions (pairPacking.line [file])

def busyError : OsError := .described "busy"

/-- The system refuses to create the child of the first line. -/
def busyHost : Host Script :=
  knowingHost (pairInvocation "a.php") (.error (.system busyError))

theorem runBatch_pair :
    let trace := runBatch busyHost 4 pairOptions "php" false {} pairScript
    trace.result = .ok ⟨.errors, 2, 0, 2⟩ ∧
      launches trace.events = [pairInvocation "a.php", pairInvocation "b.php"] := by
  have htasks : (walkOf pairOptions).tasks = [.file "a.php", .file "b.php", .directory ""] := rfl
  have hopened : Packer.push pairPacking {} "a.php" =
      (none, ⟨["a.php"], pairPacking.opening.length + pairPacking.width "a.php"⟩) := rfl
  have hcompleted : Packer.push pairPacking
      ⟨["a.php"], pairPacking.opening.length + pairPacking.width "a.php"⟩ "b.php" =
      (some (pairPacking.line ["a.php"]),
        ⟨["b.php"], pairPacking.opening.length + pairPacking.width "b.php"⟩) :=
    Packer.push_of_limit_nonpos le_rfl (List.cons_ne_nil _ _) _
  have hloop : runBatch busyHost 4 pairOptions "php" false {} = (do
      let out ← batchLoop busyHost pairOptions pairPacking 4 (walkOf pairOptions).tasks {} {} {}
      return out.1.withCounts out.2.provided out.2.skipped) := rfl
  intro trace
  -- The steps that measure lines do not evaluate; the others do.
  dsimp only [trace]
  rw [hloop]
  simp only [htasks, batchLoop_file, hopened, hcompleted]
  set_option maxRecDepth 3000 in
  constructor <;> cbv

theorem runBatch_withstands_sample :
    let trace := runBatch busyHost 4 pairOptions "php" false {} pairScript
    ∃ before result rest,
      trace.events = before ++ .launch (pairInvocation "a.php") ::
        .forward (Text.Utf8.encode "busy\n") .stderr ::
        .finish (pairInvocation "a.php") result :: rest ∧
      result.exitCode = none ∧ result.failure = some "busy" ∧ result.outcome = .errors ∧
      launches rest = [pairInvocation "b.php"] ∧ trace.result = .ok ⟨.errors, 2, 0, 2⟩ := by
  have hphp : hasNul "php" = false := by rw [Machine.hasNul_eq]; decide
  have hfile : hasNul "a.php" = false := by rw [Machine.hasNul_eq]; decide
  have hdirectory : hasNul pairOptions.directory.text = false := by
    rw [Machine.hasNul_eq]
    decide
  have hclean : ¬(pairInvocation "a.php").HasNul := by
    have hadmits : pairPacking.Admits (pairPacking.line ["a.php"]) :=
      ⟨rfl, List.cons_ne_nil _ _, fun htwo => absurd htwo (by decide)⟩
    rw [pairInvocation, hasNul_lineInvocation hdirectory hadmits]
    simp [Packing.line, hphp, hfile]
  have hstarts : busyHost.StartsBy (knowingCreate (pairInvocation "a.php")
      (.error (.system busyError))) :=
    knowingHost_startsBy (iff_of_false (fun h => by cases h) hclean)
  obtain ⟨hresult, hlaunches⟩ := runBatch_pair
  have hnoted : Noted busyHost _ pairScript _ :=
    (runBatch_withstands hstarts resolve_pair 4 "php" false {} pairScript).1
  obtain ⟨before, later, hevents, hlater⟩ := exists_of_launches_eq_cons hlaunches
  have hcreate : knowingCreate (pairInvocation "a.php") (.error (.system busyError))
      (pairInvocation "a.php") (busyHost.after pairScript before) = .error (.system busyError) :=
    if_pos rfl
  obtain ⟨result, rest, hrest, hcode, hfailure, houtcome⟩ := hnoted.aftermath hevents hcreate
  rw [hrest] at hevents hlater
  exact ⟨before, result, rest, hevents, hcode, hfailure, houtcome, by simpa using hlater, hresult⟩

-- ---------------------------------------------------------------------------
-- A line that cannot be handed over
-- ---------------------------------------------------------------------------

def nulText : List Char := "[phpsyntax]\ninclude = [\"a\\u0000.php\"]\n".toList

def nulTree : Tree := Options.configuredTree (nulText.flatMap Text.Utf8.encodeChar)

/-- The entry of a document that includes one file and does nothing else. -/
def includedOnly? : Table → Option String
  | [(name, .table [(option, .list [.text entry])])] =>
    if name = Config.sectionName ∧ option = "include" then some entry else none
  | _ => none

theorem includedOnly?_eq_some {table : Table} {entry : String}
    (h : includedOnly? table = some entry) :
    table = [(Config.sectionName, .table [("include", .list [.text entry])])] := by
  unfold includedOnly? at h
  split at h
  · split at h
    · rename_i hnames
      obtain ⟨rfl, rfl⟩ := hnames
      cases h
      rfl
    · cases h
  · cases h

theorem document_nul :
    Config.document (nulText.flatMap Text.Utf8.encodeChar) =
      .ok [(Config.sectionName, .table [("include", .list [.text "a\x00.php"])])] := by
  have hdecoded : Text.Utf8.decode? (nulText.flatMap Text.Utf8.encodeChar) = some nulText :=
    Text.Utf8.decode?_eq_some_iff.mpr rfl
  have hentry : (Toml.parse? (Text.unifyNewlines nulText)).bind includedOnly? =
      some "a\x00.php" := by decide +kernel
  obtain ⟨table, hparsed, htable⟩ := Option.bind_eq_some_iff.mp hentry
  obtain rfl := includedOnly?_eq_some htable
  simp [Config.document, hdecoded, hparsed]

def nulOptions : Options where
  directory := Options.configuredDirectory
  included := ["a\x00.php"]
  excluded := []
  failOnWarnings := false
  supportDuplicatedNames := false
  debug := false
  php := "php"
  timeout := none

theorem resolve_nul :
    Options.resolve nulTree {} [] Options.configuredDirectory = .ok nulOptions := by
  rw [nulTree, Options.resolve_configured document_nul]
  have hproposes : Options.Proposes {} [] [("include", .list [.text "a\x00.php"])]
      Options.configuredDirectory {
        directory := some Options.configuredDirectory
        included := ["a\x00.php"] } := ⟨rfl, rfl, rfl, rfl, rfl, rfl, rfl, rfl⟩
  exact Options.ofLayers_eq_ok_iff.mpr ⟨_, Options.propose_eq_ok_iff.mpr hproposes, by cbv⟩

def nulLine : Line :=
  (packingOf sampleHost "php" false sampleScript).line ["a\x00.php"]

theorem runBatch_nul (content : Text.Bytes) :
    (runBatch (knowingHost (lineInvocation nulOptions nulLine) (.error .nulByte)) 4 nulOptions "php"
      false {} { tree := Options.configuredTree content }).result = .error .nulByte := by cbv

/-- A file that a configuration includes has a character that no text of the system can have, and
the run breaks off where a refusal would have been noted. -/
theorem runBatch_breaks_at_nul :
    let known := lineInvocation nulOptions nulLine
    Options.resolve nulTree {} [] Options.configuredDirectory = .ok nulOptions ∧
    (knowingHost known (.error .nulByte)).StartsBy (knowingCreate known (.error .nulByte)) ∧
    (runBatch (knowingHost known (.error .nulByte)) 4 nulOptions "php" false {}
      { tree := nulTree }).result = .error .nulByte := by
  intro known
  have hentry : hasNul "a\x00.php" = true := by rw [Machine.hasNul_eq]; decide
  have hdirectory : hasNul nulOptions.directory.text = false := by
    rw [Machine.hasNul_eq]
    decide
  have hnul : known.HasNul := by
    have hadmits : (packingOf sampleHost "php" false sampleScript).Admits nulLine :=
      ⟨rfl, List.cons_ne_nil _ _, fun htwo => absurd htwo (by decide)⟩
    rw [hasNul_lineInvocation hdirectory hadmits]
    exact .inr ⟨"a\x00.php", List.mem_singleton_self _, hentry⟩
  exact ⟨resolve_nul, knowingHost_startsBy (iff_of_true rfl hnul), runBatch_nul _⟩

end Check

end LintRun
