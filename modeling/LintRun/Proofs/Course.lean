import Mathlib.Data.List.Nodup
import LintRun.Proofs.WalkLaws
import LintRun.Tree.Change

/-!
# Courses of the walk

A course tells how a walk went: which directories it listed with what entries, which files it came
to, and which tasks are left. Every task is worked on once (`Course.perm`), and what a course comes
to depends on nothing but the listings (`Course.continues`). In a tree that stays the same the walk
lists each directory that is not excluded, once.
-/

namespace LintRun

open LintRun.Path (joined splitNames)

namespace Walk

/-- The directories that were listed, by their paths in the walk, with their entries. -/
abbrev Log := List (String × List Entry)

inductive Course (walk : Walk) : List Task → Log → List String → List Task → Prop
  | stop (tasks : List Task) : Course walk tasks [] [] tasks
  | file {path : String} {rest left : List Task} {log : Log} {files : List String} :
      Course walk rest log files left →
      Course walk (.file path :: rest) log (path :: files) left
  | directory {path : String} {entries : List Entry} {rest left : List Task} {log : Log}
      {files : List String} :
      Course walk (walk.expand path entries ++ rest) log files left →
      Course walk (.directory path :: rest) ((path, entries) :: log) files left

def answers (walk : Walk) (log : Log) : List (Path × Except OsError (List Entry)) :=
  log.map fun x => (walk.pathOf x.1, .ok x.2)

def items (walk : Walk) (x : String × List Entry) : List String :=
  x.2.map fun entry => walk.itemPath x.1 entry.name

def skippedItems (walk : Walk) (log : Log) : List String :=
  log.flatMap fun x => (walk.items x).filter walk.isSkipped

variable {walk : Walk} {tasks rest left : List Task} {log later : Log} {files more : List String}

@[simp] theorem answers_nil : walk.answers [] = [] := rfl

@[simp] theorem answers_append :
    walk.answers (log ++ later) = walk.answers log ++ walk.answers later :=
  List.map_append

@[simp] theorem skippedItems_nil : walk.skippedItems [] = [] := rfl

@[simp] theorem skippedItems_append :
    walk.skippedItems (log ++ later) = walk.skippedItems log ++ walk.skippedItems later :=
  List.flatMap_append

theorem length_skippedItems_singleton (path : String) (entries : List Entry) :
    (walk.skippedItems [(path, entries)]).length = walk.skippedIn path entries := by
  simp [skippedItems, items, skippedIn, ← List.countP_eq_length_filter, List.countP_map,
    Function.comp_def]

namespace Course

theorem trans (h : Course walk tasks log files rest) (hlater : Course walk rest later more left) :
    Course walk tasks (log ++ later) (files ++ more) left := by
  induction h with
  | stop => exact hlater
  | file _ ih => exact .file (ih hlater)
  | directory _ ih => exact .directory (ih hlater)

/-- Each task is worked on once: those at the start and those that the listings bring are the files,
the directories that were listed, and those that are left. -/
theorem perm (h : Course walk tasks log files left) :
    (tasks ++ log.flatMap fun x => walk.expand x.1 x.2).Perm
      (files.map .file ++ (log.map fun x => .directory x.1) ++ left) := by
  induction h with
  | stop => simp
  | file _ ih => exact ih.cons _
  | @directory path entries rest left log files _ ih =>
    -- The entries take the place of their directory.
    have hrest : (rest ++ (walk.expand path entries ++
        log.flatMap fun x => walk.expand x.1 x.2)).Perm
        (walk.expand path entries ++ rest ++ log.flatMap fun x => walk.expand x.1 x.2) := by
      rw [← List.append_assoc]
      exact List.perm_append_comm.append_right _
    rw [List.flatMap_cons, List.cons_append, List.map_cons]
    refine ((hrest.trans ih).cons _).trans ?_
    have hmiddle := @List.perm_middle _ (.directory path) (files.map Task.file)
      ((log.map fun x => .directory x.1) ++ left)
    simpa using hmiddle.symm

theorem exists_eq_append (h : Course walk (more.map .file ++ tasks) log files []) :
    ∃ found, files = more ++ found ∧ Course walk tasks log found [] := by
  induction more generalizing files with
  | nil => exact ⟨files, rfl, h⟩
  | cons path more ih =>
    cases h with
    | file h =>
      obtain ⟨found, rfl, hfound⟩ := ih h
      exact ⟨found, rfl, hfound⟩

end Course

-- ---------------------------------------------------------------------------
-- Ends
-- ---------------------------------------------------------------------------

/-- The counters after a course. -/
def countersAfter (walk : Walk) (counters : Counters) (log : Log) (files : List String) :
    Counters :=
  ⟨counters.provided + files.length, counters.skipped + (walk.skippedItems log).length⟩

@[simp] theorem countersAfter_nil (counters : Counters) :
    walk.countersAfter counters [] [] = counters := rfl

theorem countersAfter_append (walk : Walk) (counters : Counters) (log later : Log)
    (files more : List String) :
    walk.countersAfter counters (log ++ later) (files ++ more) =
      walk.countersAfter (walk.countersAfter counters log files) later more := by
  simp [countersAfter, Nat.add_assoc]

/-- How a walk ends that comes to the files, and what its listings gave. The fuel is not enough only
if the files and the listings have used it up. -/
inductive Ends (walk : Walk) (fuel : Nat) (tasks : List Task) (log : Log) (files : List String) :
    List (Path × Except OsError (List Entry)) → Pull → Prop
  | finished :
      Course walk tasks log files [] → Ends walk fuel tasks log files (walk.answers log) .finished
  | failed {path : String} {rest : List Task} (error : OsError) :
      Course walk tasks log files (.directory path :: rest) →
      Ends walk fuel tasks log files (walk.answers log ++ [(walk.pathOf path, .error error)])
        (.failed ⟨walk.pathOf path, error⟩)
  | exhausted {left : List Task} :
      Course walk tasks log files left → fuel ≤ files.length + log.length + 1 →
      Ends walk fuel tasks log files (walk.answers log) .exhausted

/-- How tasks come to their next file, or to an end before it. -/
inductive Pulls (walk : Walk) (fuel : Nat) (tasks : List Task) (log : Log) :
    List (Path × Except OsError (List Entry)) → Pull → Prop
  | file {path : String} {rest : List Task} :
      Course walk tasks log [path] rest →
      Pulls walk fuel tasks log (walk.answers log) (.file path rest)
  | ended {answers : List (Path × Except OsError (List Entry))} {pull : Pull} :
      Ends walk fuel tasks log [] answers pull → Pulls walk fuel tasks log answers pull

section
variable {fuel : Nat} {path : String} {entries : List Entry}
  {answers : List (Path × Except OsError (List Entry))} {pull : Pull}

theorem Ends.exists_course (h : Ends walk fuel tasks log files answers pull) :
    ∃ left, Course walk tasks log files left ∧ walk.answers log <+: answers := by
  cases h with
  | finished h | exhausted h => exact ⟨_, h, List.prefix_rfl⟩
  | failed _ h => exact ⟨_, h, List.prefix_append _ _⟩

theorem Ends.directory (h : Ends walk fuel (walk.expand path entries ++ rest) log files answers
      pull) :
    Ends walk (fuel + 1) (.directory path :: rest) ((path, entries) :: log) files
      ((walk.pathOf path, .ok entries) :: answers) pull := by
  cases h with
  | finished h => exact .finished (.directory h)
  | failed error h => exact .failed error (.directory h)
  | exhausted h hfuel => exact .exhausted (.directory h) (Nat.succ_le_succ hfuel)

theorem Ends.cons (hfirst : Course walk tasks log [path] rest)
    (h : Ends walk fuel rest later files answers pull) :
    Ends walk (fuel + 1) tasks (log ++ later) (path :: files) (walk.answers log ++ answers)
      pull := by
  cases h with
  | finished h =>
    rw [← answers_append]
    exact .finished (hfirst.trans h)
  | failed error h =>
    rw [← List.append_assoc, ← answers_append]
    exact .failed error (hfirst.trans h)
  | exhausted h hfuel =>
    rw [← answers_append]
    refine .exhausted (hfirst.trans h) ?_
    rw [List.length_cons, List.length_append]
    omega

theorem Pulls.directory (h : Pulls walk fuel (walk.expand path entries ++ rest) log answers pull) :
    Pulls walk (fuel + 1) (.directory path :: rest) ((path, entries) :: log)
      ((walk.pathOf path, .ok entries) :: answers) pull := by
  cases h with
  | file h => exact .file (.directory h)
  | ended h => exact .ended h.directory

end

-- ---------------------------------------------------------------------------
-- Two courses
-- ---------------------------------------------------------------------------

/-- There is nothing to do, or only what begins with a directory that cannot be listed. -/
def Stuck (walk : Walk) (list : Path → Except OsError (List Entry)) : List Task → Prop
  | [] => True
  | .file _ :: _ => False
  | .directory path :: _ => ∀ entries, list (walk.pathOf path) ≠ .ok entries

namespace Course

variable {list shown : Path → Except OsError (List Entry)} {last : List Task} {log' : Log}
  {files' : List String}

theorem eq_nil_of_stuck (h : Course walk tasks log files left)
    (hlog : ∀ x ∈ log, list (walk.pathOf x.1) = .ok x.2) (hstuck : walk.Stuck list tasks) :
    log = [] ∧ files = [] ∧ left = tasks := by
  cases h with
  | stop => exact ⟨rfl, rfl, rfl⟩
  | file => exact hstuck.elim
  | directory => exact absurd (hlog _ List.mem_cons_self) (hstuck _)

/-- A course goes on where another one has stopped, if all listings of the other one give the same
again. -/
theorem continues (h : Course walk tasks log files left)
    (hlog : ∀ x ∈ log, list (walk.pathOf x.1) = .ok x.2)
    (hgoes : Course walk tasks log' files' last)
    (hlog' : ∀ x ∈ log', shown (walk.pathOf x.1) = .ok x.2)
    (hshown : ∀ path entries, list path = .ok entries → shown path = .ok entries)
    (hstuck : walk.Stuck shown last) :
    ∃ later more, Course walk left later more last ∧ log' = log ++ later ∧
      files' = files ++ more := by
  induction h generalizing log' files' with
  | stop => exact ⟨log', files', hgoes, rfl, rfl⟩
  | file _ ih =>
    cases hgoes with
    | stop => exact hstuck.elim
    | file hgoes =>
      obtain ⟨later, more, hlater, rfl, rfl⟩ := ih hlog hgoes hlog'
      exact ⟨later, more, hlater, rfl, rfl⟩
  | directory _ ih =>
    rw [List.forall_mem_cons] at hlog
    have hfirst := hshown _ _ hlog.1
    cases hgoes with
    | stop => exact absurd hfirst (hstuck _)
    | directory hgoes =>
      rw [List.forall_mem_cons] at hlog'
      obtain rfl := Except.ok.inj (hfirst.symm.trans hlog'.1)
      obtain ⟨later, more, hlater, rfl, rfl⟩ := ih hlog.2 hgoes hlog'.2
      exact ⟨later, more, hlater, rfl, rfl⟩

/-- Two courses that can go no further are the same if their listings are. -/
theorem unique (h : Course walk tasks log files left)
    (hlog : ∀ x ∈ log, list (walk.pathOf x.1) = .ok x.2) (hleft : walk.Stuck list left)
    (hgoes : Course walk tasks log' files' last)
    (hlog' : ∀ x ∈ log', list (walk.pathOf x.1) = .ok x.2) (hlast : walk.Stuck list last) :
    log' = log ∧ files' = files ∧ last = left := by
  obtain ⟨later, more, hlater, rfl, rfl⟩ := h.continues hlog hgoes hlog' (fun _ _ h => h) hlast
  obtain ⟨rfl, rfl, rfl⟩ :=
    hlater.eq_nil_of_stuck (fun x hx => hlog' x (List.mem_append_right _ hx)) hleft
  simp

end Course

end Walk

end LintRun
