import LintRun.Host

/-!
# Laws of runs

`Triple run s Q E`: from the state `s`, a run that gives a value meets `Q`, and one that fails meets
`E`; both speak of the events of the run and of the state it leaves. Of the events a batch run is
judged by, `launches` are the launched commands, `provisions` the files that the walk came to and
`finishes` the commands that ended, each in their order. A quiet event is none of these. What the
host gave when it was asked is not in the events: `listed` and `results` find it out from the states
that the events lead through.
-/

namespace LintRun

-- ---------------------------------------------------------------------------
-- Events
-- ---------------------------------------------------------------------------

namespace Event

@[simp] def launched? : Event → Option Invocation
  | .launch invocation => some invocation
  | _ => none

@[simp] def provided? : Event → Option String
  | .provide file => some file
  | _ => none

@[simp] def finished? : Event → Option (Invocation × InvocationResult)
  | .finish invocation result => some (invocation, result)
  | _ => none

def isQuiet : Event → Bool
  | .launch _ | .provide _ | .finish .. => false
  | _ => true

def isIdle : Event → Bool
  | .probe _ | .echo .. | .forward .. => true
  | _ => false

def isEcho : Event → Bool
  | .echo .. => true
  | _ => false

def isProbe : Event → Bool
  | .probe _ => true
  | _ => false

end Event

def launches (events : List Event) : List Invocation :=
  events.filterMap Event.launched?

def provisions (events : List Event) : List String :=
  events.filterMap Event.provided?

def finishes (events : List Event) : List (Invocation × InvocationResult) :=
  events.filterMap Event.finished?

theorem filterMap_cons_toList {α β : Type} (f : α → Option β) (a : α) (l : List α) :
    (a :: l).filterMap f = (f a).toList ++ l.filterMap f := by
  rw [List.filterMap_cons]
  cases f a <;> rfl

section
variable (event : Event) (events later : List Event)

@[simp] theorem launches_nil : launches [] = [] := rfl

@[simp] theorem provisions_nil : provisions [] = [] := rfl

@[simp] theorem finishes_nil : finishes [] = [] := rfl

@[simp] theorem launches_cons :
    launches (event :: events) = event.launched?.toList ++ launches events :=
  filterMap_cons_toList _ event events

@[simp] theorem provisions_cons :
    provisions (event :: events) = event.provided?.toList ++ provisions events :=
  filterMap_cons_toList _ event events

@[simp] theorem finishes_cons :
    finishes (event :: events) = event.finished?.toList ++ finishes events :=
  filterMap_cons_toList _ event events

@[simp] theorem launches_append : launches (events ++ later) = launches events ++ launches later :=
  List.filterMap_append

@[simp] theorem provisions_append :
    provisions (events ++ later) = provisions events ++ provisions later :=
  List.filterMap_append

@[simp] theorem finishes_append : finishes (events ++ later) = finishes events ++ finishes later :=
  List.filterMap_append

end

theorem mem_launches {events : List Event} {invocation : Invocation} :
    invocation ∈ launches events ↔ Event.launch invocation ∈ events := by
  simp only [launches, List.mem_filterMap]
  constructor
  · rintro ⟨event, hmem, hevent⟩
    cases event <;> simp [Event.launched?] at hevent
    exact hevent ▸ hmem
  · intro h
    exact ⟨_, h, rfl⟩

theorem mem_finishes {events : List Event} {invocation : Invocation} {result : InvocationResult} :
    (invocation, result) ∈ finishes events ↔ Event.finish invocation result ∈ events := by
  simp only [finishes, List.mem_filterMap]
  constructor
  · rintro ⟨event, hmem, hevent⟩
    cases event <;> simp [Event.finished?] at hevent
    obtain ⟨rfl, rfl⟩ := hevent
    exact hmem
  · intro h
    exact ⟨_, h, rfl⟩

theorem exists_of_launches_eq_cons {events : List Event} {invocation : Invocation}
    {rest : List Invocation} (h : launches events = invocation :: rest) :
    ∃ before later, events = before ++ .launch invocation :: later ∧ launches later = rest := by
  obtain ⟨before, event, later, rfl, -, hevent, hlater⟩ := List.filterMap_eq_cons_iff.mp h
  cases event <;> simp [Event.launched?] at hevent
  exact ⟨before, later, by rw [hevent], hlater⟩

/-- Events that a run may have without having come to a file or launched a command. -/
def Quiet (events : List Event) : Prop :=
  ∀ event ∈ events, event.isQuiet = true

namespace Quiet

variable {events later : List Event}

theorem nil : Quiet [] := by
  intro event h
  cases h

theorem append (h : Quiet events) (hlater : Quiet later) : Quiet (events ++ later) := by
  intro event hmem
  rcases List.mem_append.mp hmem with hmem | hmem
  · exact h event hmem
  · exact hlater event hmem

theorem singleton {event : Event} (h : event.isQuiet = true) : Quiet [event] := by
  intro other hmem
  rw [List.mem_singleton.mp hmem]
  exact h

theorem filterMap_eq_nil {β : Type} {f : Event → Option β} (h : Quiet events)
    (hf : ∀ event, event.isQuiet = true → f event = none) : events.filterMap f = [] :=
  List.filterMap_eq_nil_iff.mpr fun event hmem => hf event (h event hmem)

theorem launches_eq (h : Quiet events) : launches events = [] :=
  h.filterMap_eq_nil fun event hevent => by
    cases event <;> first | rfl | cases hevent

theorem provisions_eq (h : Quiet events) : provisions events = [] :=
  h.filterMap_eq_nil fun event hevent => by
    cases event <;> first | rfl | cases hevent

theorem finishes_eq (h : Quiet events) : finishes events = [] :=
  h.filterMap_eq_nil fun event hevent => by
    cases event <;> first | rfl | cases hevent

section
variable {before after : List Event} (hbefore : Quiet before) (hafter : Quiet after)

include hbefore hafter

theorem launches_surround : launches (before ++ (events ++ after)) = launches events := by
  simp [hbefore.launches_eq, hafter.launches_eq]

theorem provisions_surround : provisions (before ++ (events ++ after)) = provisions events := by
  simp [hbefore.provisions_eq, hafter.provisions_eq]

theorem finishes_surround : finishes (before ++ (events ++ after)) = finishes events := by
  simp [hbefore.finishes_eq, hafter.finishes_eq]

end

end Quiet

/-- Events that only probe and write. -/
def Idle (events : List Event) : Prop :=
  ∀ event ∈ events, event.isIdle = true

theorem Idle.nil : Idle [] :=
  List.forall_mem_nil _

theorem Idle.append {events later : List Event} (h : Idle events) (hlater : Idle later) :
    Idle (events ++ later) :=
  List.forall_mem_append.mpr ⟨h, hlater⟩

theorem Idle.quiet {events : List Event} (h : Idle events) : Quiet events := by
  intro event hmem
  have hidle := h event hmem
  cases event <;> first | rfl | cases hidle

/-- Events that do nothing but write. -/
def Writing (events : List Event) : Prop :=
  ∀ event ∈ events, event.isWriting = true

theorem Writing.idle {events : List Event} (h : Writing events) : Idle events := by
  intro event hmem
  have hwriting := h event hmem
  cases event <;> first | rfl | cases hwriting

theorem Writing.quiet {events : List Event} (h : Writing events) : Quiet events :=
  h.idle.quiet

-- ---------------------------------------------------------------------------
-- Triples
-- ---------------------------------------------------------------------------

namespace Run

variable {σ α β : Type} {run : Run σ α} {f : α → Run σ β} {s : σ}

def Triple (run : Run σ α) (s : σ) (Q : List Event → α → σ → Prop)
    (E : List Event → Failure → σ → Prop) : Prop :=
  match (run s).result with
  | .ok a => Q (run s).events a (run s).state
  | .error e => E (run s).events e (run s).state

variable {P Q : List Event → α → σ → Prop} {D E : List Event → Failure → σ → Prop}

theorem Triple.of_ok {a : α} (h : Triple run s Q E) (hr : (run s).result = .ok a) :
    Q (run s).events a (run s).state := by
  simpa [Triple, hr] using h

theorem Triple.of_error {e : Failure} (h : Triple run s Q E) (hr : (run s).result = .error e) :
    E (run s).events e (run s).state := by
  simpa [Triple, hr] using h

theorem Triple.mono (h : Triple run s P D) (hQ : ∀ events a t, P events a t → Q events a t)
    (hE : ∀ events e t, D events e t → E events e t) : Triple run s Q E := by
  unfold Triple at h ⊢
  split <;> rename_i hr <;> simp only [hr] at h
  · exact hQ _ _ _ h
  · exact hE _ _ _ h

theorem Triple.events {R : List Event → Prop} (h : Triple run s P D)
    (hok : ∀ events a t, P events a t → R events)
    (herror : ∀ events e t, D events e t → R events) : R (run s).events := by
  cases hr : (run s).result with
  | ok a => exact hok _ _ _ (h.of_ok hr)
  | error e => exact herror _ _ _ (h.of_error hr)

theorem Triple.pure {a : α} (h : Q [] a s) : Triple (pure a : Run σ α) s Q E := h

theorem Triple.fail {e : Failure} (h : E [] e s) : Triple (Run.fail e : Run σ α) s Q E := h

theorem Triple.read {Q : List Event → σ → σ → Prop} (h : Q [] s s) : Triple Run.read s Q E := h

theorem Triple.lift_ok {a : α} (h : Q [] a s) : Triple (Run.lift (.ok a)) s Q E := h

theorem Triple.emit {event : Event} {Q : List Event → Unit → σ → Prop} (h : Q [event] () s) :
    Triple (Run.emit event) s Q E := h

theorem Triple.act {g : σ → α × σ} (h : Q [] (g s).1 (g s).2) : Triple (Run.act g) s Q E := h

theorem Triple.bind {Q : List Event → β → σ → Prop} (h : Triple run s P D)
    (hok : ∀ events a t, P events a t →
      Triple (f a) t (fun later => Q (events ++ later)) (fun later => E (events ++ later)))
    (herror : ∀ events e t, D events e t → E events e t) : Triple (run >>= f) s Q E := by
  cases hr : (run s).result with
  | error e =>
    have hbind : (run >>= f) s = ⟨(run s).events, .error e, (run s).state⟩ := by
      simp [Bind.bind, andThen, hr]
    simpa [Triple, hbind] using herror _ _ _ (h.of_error hr)
  | ok a =>
    have hbind : (run >>= f) s = ⟨(run s).events ++ (f a (run s).state).events,
        (f a (run s).state).result, (f a (run s).state).state⟩ := by
      simp [Bind.bind, andThen, hr]
    simpa [Triple, hbind] using hok _ _ _ (h.of_ok hr)

/-- A run that cannot fail, before one that can. -/
theorem Triple.seq {Q : List Event → β → σ → Prop} (h : Triple run s P fun _ _ _ => False)
    (hok : ∀ events a t, P events a t →
      Triple (f a) t (fun later => Q (events ++ later)) (fun later => E (events ++ later))) :
    Triple (run >>= f) s Q E :=
  h.bind hok fun _ _ _ hfalse => hfalse.elim

theorem bind_assoc {γ : Type} (run : Run σ α) (f : α → Run σ β) (g : β → Run σ γ) :
    run >>= f >>= g = run >>= fun a => f a >>= g := by
  funext s
  cases hrun : (run s).result with
  | error e => simp [Bind.bind, andThen, hrun]
  | ok a => cases hf : (f a (run s).state).result <;> simp [Bind.bind, andThen, hrun, hf]

theorem Triple.exists_ok (h : Triple run s Q fun _ _ _ => False) :
    ∃ a, (run s).result = .ok a ∧ Q (run s).events a (run s).state := by
  cases hr : (run s).result with
  | error e => exact (h.of_error hr).elim
  | ok a => exact ⟨a, rfl, h.of_ok hr⟩

theorem Triple.known {a : α} (h : Triple run s Q E) (hr : (run s).result = .ok a) :
    Triple run s (fun events b t => b = a ∧ Q events b t) fun _ _ _ => False := by
  simpa [Triple, hr] using h.of_ok hr

/-- What comes of a run is its result. -/
theorem Triple.result (h : Triple run s Q E) :
    Triple run s (fun events a t => (run s).result = .ok a ∧ Q events a t)
      fun events e t => (run s).result = .error e ∧ E events e t := by
  cases hr : (run s).result with
  | ok a => simpa [Triple, hr] using h.of_ok hr
  | error e => simpa [Triple, hr] using h.of_error hr

theorem Triple.of_result {a : α} (hr : (run s).result = .ok a) :
    Triple run s (fun _ b _ => b = a) fun _ _ _ => False := by
  simp [Triple, hr]

theorem Triple.result_eq {a : α} (h : Triple run s (fun _ b _ => b = a) fun _ _ _ => False) :
    (run s).result = .ok a := by
  obtain ⟨b, hr, rfl⟩ := h.exists_ok
  exact hr

/-- What holds whenever the run has only written and the state is still the same. -/
def Still (s : σ) (events : List Event) (_ : α) (t : σ) : Prop :=
  Writing events ∧ t = s

theorem echo_still (text : String) (channel : Channel) (s : σ) :
    Triple (echo text channel) s (Still s) fun _ _ _ => False :=
  Triple.emit ⟨List.forall_mem_singleton.mpr rfl, rfl⟩

theorem echoAll_eq (lines : List (String × Channel)) (s : σ) :
    echoAll lines s = ⟨lines.map fun line => .echo line.1 line.2, .ok (), s⟩ := by
  induction lines with
  | nil => rfl
  | cons line rest ih => simp [echoAll, echo, emit, Bind.bind, andThen, ih]

theorem echoAll_still (lines : List (String × Channel)) (s : σ) :
    Triple (echoAll lines) s (Still s) fun _ _ _ => False := by
  induction lines with
  | nil => exact Triple.pure ⟨List.forall_mem_nil _, rfl⟩
  | cons line rest ih =>
    refine Triple.seq (echo_still line.1 line.2 s) ?_
    rintro events _ t ⟨hevents, rfl⟩
    exact ih.mono (fun _ _ _ h => ⟨List.forall_mem_append.mpr ⟨hevents, h.1⟩, h.2⟩) fun _ _ _ h => h

theorem forwardAll_still (pieces : List (Text.Bytes × Channel)) (s : σ) :
    Triple (forwardAll pieces) s (Still s) fun _ _ _ => False := by
  induction pieces with
  | nil => exact Triple.pure ⟨List.forall_mem_nil _, rfl⟩
  | cons piece rest ih =>
    refine Triple.seq (Triple.emit (Q := Still s) ⟨List.forall_mem_singleton.mpr rfl, rfl⟩) ?_
    rintro events _ t ⟨hevents, rfl⟩
    exact ih.mono (fun _ _ _ h => ⟨List.forall_mem_append.mpr ⟨hevents, h.1⟩, h.2⟩) fun _ _ _ h => h

end Run

-- ---------------------------------------------------------------------------
-- Actions of a host
-- ---------------------------------------------------------------------------

namespace Host

open Run (Triple)

variable {σ : Type} (host : Host σ) (s : σ)

/-- The state after an event. Only probes, listings and launches change anything. -/
def perform (s : σ) : Event → σ
  | .probe command => (host.probe command s).2
  | .list path => (host.list path s).2
  | .launch invocation => (host.launch invocation s).2
  | _ => s

/-- The state after events, from the state before them. -/
def after (events : List Event) : σ :=
  events.foldl host.perform s

@[simp] theorem after_nil : host.after s [] = s := rfl

@[simp] theorem after_cons (event : Event) (events : List Event) :
    host.after s (event :: events) = host.after (host.perform s event) events := rfl

@[simp] theorem after_append (events later : List Event) :
    host.after s (events ++ later) = host.after (host.after s events) later :=
  List.foldl_append

theorem after_writing {events : List Event} (h : Writing events) : host.after s events = s := by
  induction events with
  | nil => rfl
  | cons event events ih =>
    have hevent := h event List.mem_cons_self
    have hkept : host.perform s event = s := by cases event <;> first | rfl | cases hevent
    rw [after_cons, hkept]
    exact ih fun other hmem => h other (List.mem_cons_of_mem _ hmem)

/-- What `look` makes of the events, each of them seen from the state before it. -/
def observe {β : Type} (look : σ → Event → Option β) : σ → List Event → List β
  | _, [] => []
  | s, event :: rest => (look s event).toList ++ observe look (host.perform s event) rest

@[simp] theorem observe_append {β : Type} (look : σ → Event → Option β)
    (events later : List Event) :
    host.observe look s (events ++ later) =
      host.observe look s events ++ host.observe look (host.after s events) later := by
  induction events generalizing s with
  | nil => rfl
  | cons event events ih => simp [observe, ih]

theorem observe_eq_nil {β : Type} {look : σ → Event → Option β} {events : List Event}
    (h : ∀ t, ∀ event ∈ events, look t event = none) : host.observe look s events = [] := by
  induction events generalizing s with
  | nil => rfl
  | cons event events ih =>
    have hrest := ih (s := host.perform s event) fun t other hmem =>
      h t other (List.mem_cons_of_mem _ hmem)
    simp [observe, h s event List.mem_cons_self, hrest]

theorem mem_observe {β : Type} {look : σ → Event → Option β} {events : List Event} {b : β} :
    b ∈ host.observe look s events ↔ ∃ before event later, events = before ++ event :: later ∧
      look (host.after s before) event = some b := by
  induction events generalizing s with
  | nil => simp [observe]
  | cons first events ih =>
    simp only [observe, List.mem_append, Option.mem_toList, ih]
    constructor
    · rintro (hfirst | ⟨before, event, later, rfl, hevent⟩)
      · exact ⟨[], first, events, rfl, hfirst⟩
      · exact ⟨first :: before, event, later, rfl, hevent⟩
    · rintro ⟨before, event, later, heq, hevent⟩
      cases before with
      | nil =>
        obtain ⟨rfl, rfl⟩ := List.cons.inj heq
        exact .inl hevent
      | cons other before =>
        obtain ⟨rfl, rfl⟩ := List.cons.inj heq
        exact .inr ⟨before, event, later, rfl, hevent⟩

@[simp] def heard (t : σ) : Event → Option (Path × Except OsError (List Entry))
  | .list path => some (path, (host.list path t).1)
  | _ => none

@[simp] def answered (t : σ) : Event → Option (Except LaunchFailure InvocationResult)
  | .launch invocation => some (host.launch invocation t).1.result
  | _ => none

/-- The directories that were listed, each with what its listing gave. -/
def listed (events : List Event) : List (Path × Except OsError (List Entry)) :=
  host.observe host.heard s events

/-- What came of each launch. -/
def results (events : List Event) : List (Except LaunchFailure InvocationResult) :=
  host.observe host.answered s events

section
variable (event : Event) (events later : List Event)

@[simp] theorem listed_nil : host.listed s [] = [] := rfl

@[simp] theorem results_nil : host.results s [] = [] := rfl

@[simp] theorem listed_cons : host.listed s (event :: events) =
    (host.heard s event).toList ++ host.listed (host.perform s event) events := rfl

@[simp] theorem results_cons : host.results s (event :: events) =
    (host.answered s event).toList ++ host.results (host.perform s event) events := rfl

@[simp] theorem listed_append : host.listed s (events ++ later) =
    host.listed s events ++ host.listed (host.after s events) later :=
  host.observe_append s _ events later

@[simp] theorem results_append : host.results s (events ++ later) =
    host.results s events ++ host.results (host.after s events) later :=
  host.observe_append s _ events later

end

theorem mem_listed {events : List Event} {path : Path} {answer : Except OsError (List Entry)} :
    (path, answer) ∈ host.listed s events ↔ ∃ before later,
      events = before ++ .list path :: later ∧ (host.list path (host.after s before)).1 = answer := by
  rw [listed, mem_observe]
  constructor
  · rintro ⟨before, event, later, rfl, hevent⟩
    cases event <;> simp at hevent
    obtain ⟨rfl, hanswer⟩ := hevent
    exact ⟨before, later, rfl, hanswer⟩
  · rintro ⟨before, later, rfl, rfl⟩
    exact ⟨before, _, later, rfl, rfl⟩

theorem mem_results {events : List Event} {answer : Except LaunchFailure InvocationResult} :
    answer ∈ host.results s events ↔ ∃ before invocation later,
      events = before ++ .launch invocation :: later ∧
        (host.launch invocation (host.after s before)).1.result = answer := by
  rw [results, mem_observe]
  constructor
  · rintro ⟨before, event, later, rfl, hevent⟩
    cases event <;> simp at hevent
    exact ⟨before, _, later, rfl, hevent⟩
  · rintro ⟨before, invocation, later, rfl, rfl⟩
    exact ⟨before, _, later, rfl, rfl⟩

theorem listed_subset_surround (before events after : List Event) :
    host.listed (host.after s before) events ⊆ host.listed s (before ++ (events ++ after)) := by
  rw [host.listed_append, host.listed_append]
  exact List.subset_append_of_subset_right _ (List.subset_append_left _ _)

theorem listed_of_idle {events : List Event} (h : Idle events) : host.listed s events = [] :=
  host.observe_eq_nil s fun _ event hmem => by
    have hidle := h event hmem
    cases event <;> first | rfl | cases hidle

theorem results_of_quiet {events : List Event} (h : Quiet events) : host.results s events = [] :=
  host.observe_eq_nil s fun _ event hmem => by
    have hquiet := h event hmem
    cases event <;> first | rfl | cases hquiet

/-- All listings gave what `list` tells. -/
def ListsAs (list : Path → Except OsError (List Entry)) (events : List Event) : Prop :=
  ∀ x ∈ host.listed s events, x.2 = list x.1

/-- Every launch gave a result. -/
def GivesResults (events : List Event) : Prop :=
  ∀ answer ∈ host.results s events, ∃ result, answer = .ok result

/-- All launched commands have finished, as the host has answered. -/
structure AllFinished (events : List Event) : Prop where
  finishes_eq : (finishes events).map Prod.fst = launches events
  results_eq : host.results s events = (finishes events).map fun x => .ok x.2

variable {host} {s} in
theorem AllFinished.of_quiet {events : List Event} (h : Quiet events) :
    host.AllFinished s events :=
  ⟨by simp [h.finishes_eq, h.launches_eq],
    by simp [h.finishes_eq, host.results_of_quiet s h]⟩

variable {host} {s} in
theorem AllFinished.append {events later : List Event} (h : host.AllFinished s events)
    (hlater : host.AllFinished (host.after s events) later) :
    host.AllFinished s (events ++ later) :=
  ⟨by simp [h.finishes_eq, hlater.finishes_eq], by simp [h.results_eq, hlater.results_eq]⟩

/-- What holds of some events that begin in a state `u`, with only quiet ones around them. -/
def Amid {α : Type} (u : σ) (P : List Event → α → σ → Prop) (events : List Event) (a : α) (t : σ) :
    Prop :=
  ∃ before inner later, Quiet before ∧ Quiet later ∧ host.after s before = u ∧
    events = before ++ (inner ++ later) ∧ P inner a t

theorem runProbe_triple (command : List String) :
    Triple (host.runProbe command) s
      (fun events a t => events = [.probe command] ∧ a = (host.probe command s).1 ∧
        t = host.after s events)
      fun _ _ _ => False := by
  refine Triple.seq (P := fun events _ t => events = [.probe command] ∧ t = s)
    (Triple.emit ⟨rfl, rfl⟩) ?_
  rintro _ _ _ ⟨rfl, rfl⟩
  exact Triple.act ⟨rfl, rfl, rfl⟩

theorem runList_triple (path : Path) :
    Triple (host.runList path) s
      (fun events a t => events = [.list path] ∧ a = (host.list path s).1 ∧
        t = host.after s events)
      fun _ _ _ => False := by
  refine Triple.seq (P := fun events _ t => events = [.list path] ∧ t = s)
    (Triple.emit ⟨rfl, rfl⟩) ?_
  rintro _ _ _ ⟨rfl, rfl⟩
  exact Triple.act ⟨rfl, rfl, rfl⟩

theorem version_triple (php : String) :
    Triple (host.version php) s
      (fun events _ t => events = [.probe (Probe.versionCommand php)] ∧ t = host.after s events)
      fun events _ _ => events = [.probe (Probe.versionCommand php)] := by
  refine Triple.seq (host.runProbe_triple s (Probe.versionCommand php)) ?_
  rintro _ probed _ ⟨rfl, -, rfl⟩
  cases probed with
  | error failure => cases failure <;> exact Triple.fail rfl
  | ok completed =>
    dsimp only
    cases (Version.ofCompleted completed).mapError Failure.version with
    | error failure => exact Triple.fail rfl
    | ok version => exact Triple.pure ⟨rfl, rfl⟩

/-- The events of a launch that came to an answer: beside them there is only writing. -/
structure LaunchOf (invocation : Invocation) (answer : Except LaunchFailure InvocationResult)
    (events : List Event) : Prop where
  launches_eq : launches events = [invocation]
  provisions_eq : provisions events = []
  listed_eq : host.listed s events = []
  results_eq : host.results s events = [answer]

/-- A launch is one event, and one more tells how it finished unless it gives no result. -/
theorem runLaunch_triple (invocation : Invocation) :
    Triple (host.runLaunch invocation) s
      (fun events result t => host.LaunchOf s invocation (.ok result) events ∧
        finishes events = [(invocation, result)] ∧ t = host.after s events)
      fun events _ _ => ∃ failure, host.LaunchOf s invocation (.error failure) events := by
  refine Triple.seq (P := fun events _ t => events = [.launch invocation] ∧ t = s)
    (Triple.emit ⟨rfl, rfl⟩) ?_
  rintro _ _ t ⟨rfl, rfl⟩
  refine Triple.seq (P := fun events launched u => events = [] ∧
    launched = (host.launch invocation t).1 ∧ u = (host.launch invocation t).2)
    (Triple.act ⟨rfl, rfl, rfl⟩) ?_
  rintro _ launched _ ⟨rfl, hlaunched, rfl⟩
  -- What is forwarded lies between the two events.
  refine Triple.seq (Run.forwardAll_still _ _) ?_
  rintro pieces _ _ ⟨hpieces, rfl⟩
  have hquiet := hpieces.quiet
  have hlisted : ∀ u, host.listed u pieces = [] := fun u => host.listed_of_idle u hpieces.idle
  have hresults : ∀ u, host.results u pieces = [] := fun u => host.results_of_quiet u hquiet
  cases hanswer : launched.result with
  | ok result =>
    rw [hlaunched] at hanswer
    refine Triple.seq (P := fun events _ u => events = [.finish invocation result] ∧
      u = (host.launch invocation t).2) (Triple.emit ⟨rfl, rfl⟩) ?_
    rintro _ _ _ ⟨rfl, rfl⟩
    refine Triple.pure ⟨⟨?_, ?_, ?_, ?_⟩, ?_, ?_⟩
    · simp [hquiet.launches_eq]
    · simp [hquiet.provisions_eq]
    · simp [hlisted]
    · simp [hresults, hanswer]
    · simp [hquiet.finishes_eq]
    · simp [host.after_writing _ hpieces, perform]
  | error failure =>
    rw [hlaunched] at hanswer
    have hevents : host.LaunchOf t invocation (.error failure)
        ([.launch invocation] ++ ([] ++ (pieces ++ []))) :=
      ⟨by simp [hquiet.launches_eq], by simp [hquiet.provisions_eq], by simp [hlisted],
        by simp [hresults, hanswer]⟩
    cases failure <;> exact Triple.fail ⟨_, hevents⟩

end Host

end LintRun
