import Mathlib.Algebra.GroupWithZero.Nat
import Mathlib.Algebra.Order.BigOperators.Group.List
import Mathlib.Algebra.Order.Group.Nat
import Mathlib.Data.List.Induction
import LintRun.Proofs.Listings

/-!
# What a walk comes to

In a tree that stays the same the directories that a walk enters are those that are not excluded,
and nothing that it comes to is there twice: a course that has come to its end has listed each of
them once (`Course.nodup_listed`, `Course.mem_listed_iff`), and the entries that it has skipped are
the topmost excluded ones. A walk does not come to more than there is (`length_add_length_le`).
-/

namespace LintRun

open LintRun.Path (joined splitNames)

namespace Node

theorem countEntries_eq (entries : List (String × Node)) :
    countEntries entries = (entries.map fun entry => entry.2.count).sum := by
  induction entries with
  | nil => rfl
  | cons entry rest ih => simp [countEntries, ih]

theorem count_pos (node : Node) : 0 < node.count := by
  cases node <;> simp [count]

end Node

namespace Walk

variable {walk : Walk} {root : Node}

-- ---------------------------------------------------------------------------
-- The listings of a course
-- ---------------------------------------------------------------------------

/-- A directory that is to be listed is one that the walk enters. -/
def Task.Entered (walk : Walk) (root : Node) : Task → Prop
  | .file _ => True
  | .directory path => ∃ names, walk.Enters root names ∧ path = joined names

theorem enters_nil (hdirectory : root.isDirectory = true) : walk.Enters root [] := by
  cases root with
  | file | link => cases hdirectory
  | directory entries => exact ⟨⟨entries, by simp⟩, not_excludes_nil⟩

theorem entered_of_mem_tasks (hdirectory : root.isDirectory = true) {task : Task}
    (htask : task ∈ walk.tasks) : task.Entered walk root := by
  rcases List.mem_append.mp htask with hfile | hroot
  · obtain ⟨path, -, rfl⟩ := List.mem_map.mp hfile
    trivial
  · rw [List.mem_singleton.mp hroot]
    exact ⟨[], enters_nil hdirectory, rfl⟩

def Task.file? : Task → Option String
  | .file path => some path
  | .directory _ => none

def Task.directory? : Task → Option String
  | .file _ => none
  | .directory path => some path

theorem Task.file?_eq_some {task : Task} {path : String} :
    task.file? = some path ↔ task = .file path := by
  cases task <;> simp [file?]

theorem Task.directory?_eq_some {task : Task} {path : String} :
    task.directory? = some path ↔ task = .directory path := by
  cases task <;> simp [directory?]

/-- The files and the directories that a listing brings up. -/
def newFiles (walk : Walk) (x : String × List Entry) : List String :=
  (walk.expand x.1 x.2).filterMap Task.file?

def newDirectories (walk : Walk) (x : String × List Entry) : List String :=
  (walk.expand x.1 x.2).filterMap Task.directory?

theorem mem_newFiles {x : String × List Entry} {path : String} :
    path ∈ walk.newFiles x ↔ .file path ∈ walk.expand x.1 x.2 := by
  simp [newFiles, Task.file?_eq_some]

theorem mem_newDirectories {x : String × List Entry} {path : String} :
    path ∈ walk.newDirectories x ↔ .directory path ∈ walk.expand x.1 x.2 := by
  simp [newDirectories, Task.directory?_eq_some]

theorem subperm_filterMap (pick : Task → Option String)
    (hpick : ∀ task path, pick task = some path → task.path = path) (x : String × List Entry) :
    ((walk.expand x.1 x.2).filterMap pick).Subperm (walk.items x) := by
  refine List.Subperm.trans (List.Sublist.subperm ?_) (walk.subperm_items x)
  induction walk.expand x.1 x.2 with
  | nil => exact .slnil
  | cons task rest ih =>
    cases hpath : pick task with
    | none => simpa [hpath] using ih.cons _
    | some path => simpa [hpath, hpick task path hpath] using ih

theorem subperm_newFiles (walk : Walk) (x : String × List Entry) :
    (walk.newFiles x).Subperm (walk.items x) :=
  subperm_filterMap _ (fun task path h => by rw [Task.file?_eq_some.mp h, Task.path]) x

theorem subperm_newDirectories (walk : Walk) (x : String × List Entry) :
    (walk.newDirectories x).Subperm (walk.items x) :=
  subperm_filterMap _ (fun task path h => by rw [Task.directory?_eq_some.mp h, Task.path]) x

namespace Course

variable {lists : Path → List Entry → Prop} {tasks left : List Task} {log : Log}
  {files : List String}

theorem listed_perm (h : Course walk walk.tasks log files left) :
    ("" :: log.flatMap walk.newDirectories).Perm
      (log.map Prod.fst ++ left.filterMap Task.directory?) := by
  have hbrought : walk.newDirectories =
      fun x => (walk.expand x.1 x.2).filterMap Task.directory? := rfl
  rw [hbrought]
  simpa [tasks, Task.directory?, List.filterMap_cons, List.filterMap_flatMap, List.filterMap_map,
    Function.comp_def] using h.perm.filterMap Task.directory?

theorem files_perm (h : Course walk walk.tasks log files left) :
    (walk.included ++ log.flatMap walk.newFiles).Perm (files ++ left.filterMap Task.file?) := by
  have hbrought : walk.newFiles = fun x => (walk.expand x.1 x.2).filterMap Task.file? := rfl
  rw [hbrought]
  simpa [tasks, Task.file?, List.filterMap_cons, List.filterMap_flatMap, List.filterMap_map,
    Function.comp_def] using h.perm.filterMap Task.file?

theorem shows (h : Course walk tasks log files left) (hseparator : walk.separator = "/")
    (hwell : root.WellNamed) (hshows : walk.ShowsBelow root lists)
    (hlog : ∀ x ∈ log, lists (walk.pathOf x.1) x.2)
    (htasks : ∀ task ∈ tasks, task.Entered walk root) :
    (∀ x ∈ log, ∃ names, ShowsAt walk root names x) ∧ ∀ task ∈ left, task.Entered walk root := by
  induction h with
  | stop => exact ⟨by simp, htasks⟩
  | file _ ih => exact ih hlog fun task hmem => htasks task (List.mem_cons_of_mem _ hmem)
  | @directory path entries rest left log files _ ih =>
    rw [List.forall_mem_cons] at hlog htasks
    obtain ⟨⟨names, henters, rfl⟩, hrest⟩ := htasks
    obtain ⟨children, hget⟩ := henters.exists_directory
    have hfirst : ShowsAt walk root names (joined names, entries) :=
      ⟨rfl, henters.not_excluded, children, hget, hshows hget hlog.1⟩
    have hbrought : ∀ task ∈ walk.expand (joined names) entries, task.Entered walk root := by
      intro task htask
      obtain ⟨name, node, hnode, hexcluded, ⟨-, -, rfl⟩ | ⟨hdirectory, rfl⟩⟩ :=
        (hfirst.mem_expand hwell hseparator).mp htask
      · trivial
      · cases node with
        | file | link => cases hdirectory
        | directory below => exact ⟨_, ⟨⟨below, hnode⟩, hexcluded⟩, rfl⟩
    have hall := ih hlog.2 (List.forall_mem_append.mpr ⟨hbrought, hrest⟩)
    exact ⟨List.forall_mem_cons.mpr ⟨⟨names, hfirst⟩, hall.1⟩, hall.2⟩

section
variable (hwell : root.WellNamed) (hseparator : walk.separator = "/")
  (hshown : ∀ x ∈ log, ∃ names, ShowsAt walk root names x)

include hwell hseparator hshown

/-- A directory comes up only in the listing of the one that holds it, and there once. -/
theorem count_newDirectories_le {above : List String} {name : String}
    (hnames : ∀ other ∈ above ++ [name], IsEntryName other) :
    (log.flatMap walk.newDirectories).count (joined (above ++ [name])) ≤
      (log.map Prod.fst).count (joined above) := by
  induction log with
  | nil => simp
  | cons x log ih =>
    rw [List.forall_mem_cons] at hshown
    obtain ⟨⟨names, hx⟩, hrest⟩ := hshown
    have hcount := (walk.subperm_newDirectories x).count_le (joined (above ++ [name]))
    have honce := List.nodup_iff_count_le_one.mp (hx.nodup_items hwell hseparator)
      (joined (above ++ [name]))
    have hrest := ih hrest
    rw [List.flatMap_cons, List.count_append, List.map_cons, List.count_cons]
    by_cases hmem : joined (above ++ [name]) ∈ walk.items x
    · obtain ⟨other, node, hnode, heq⟩ := (hx.mem_items hwell hseparator).mp hmem
      rw [Path.joined_inj hnames (hwell.forall_isEntryName hnode)] at heq
      have habove : (x.1 == joined above) = true := by
        rw [hx.path_eq, (List.append_inj' heq rfl).1]
        exact beq_self_eq_true _
      rw [if_pos habove]
      omega
    · rw [List.count_eq_zero_of_not_mem hmem] at hcount
      omega

theorem not_mem_newDirectories_nil : "" ∉ log.flatMap walk.newDirectories := by
  intro hmem
  obtain ⟨x, hx, hpath⟩ := List.mem_flatMap.mp hmem
  obtain ⟨names, hnames⟩ := hshown x hx
  obtain ⟨name, node, hnode, heq⟩ :=
    (hnames.mem_items hwell hseparator).mp ((walk.subperm_newDirectories x).subset hpath)
  exact Path.joined_ne_empty (by simp) (hwell.forall_isEntryName hnode) heq.symm

/-- No directory is listed twice: it would have come up in two listings, or twice in one. -/
theorem nodup_listed (h : Course walk walk.tasks log files left) : (log.map Prod.fst).Nodup := by
  have hcount : ∀ path, (log.map Prod.fst).count path ≤
      ("" :: log.flatMap walk.newDirectories).count path := by
    intro path
    rw [h.listed_perm.count_eq, List.count_append]
    exact Nat.le_add_right _ _
  have honce : ∀ names, (∀ name ∈ names, IsEntryName name) →
      (log.map Prod.fst).count (joined names) ≤ 1 := by
    intro names
    induction names using List.reverseRecOn with
    | nil =>
      intro _
      have hnone := List.count_eq_zero_of_not_mem
        (not_mem_newDirectories_nil hwell hseparator hshown)
      refine (hcount _).trans ?_
      simp [joined, hnone]
    | append_singleton above name ih =>
      intro hnames
      have hne := Path.joined_ne_empty (by simp) hnames
      refine (hcount _).trans ?_
      rw [List.count_cons_of_ne hne.symm]
      exact (count_newDirectories_le hwell hseparator hshown hnames).trans
        (ih fun other hmem => hnames other (List.mem_append_left _ hmem))
  rw [List.nodup_iff_count_le_one]
  intro path
  by_cases hpath : path ∈ log.map Prod.fst
  · obtain ⟨x, hx, rfl⟩ := List.mem_map.mp hpath
    obtain ⟨names, hnames⟩ := hshown x hx
    obtain ⟨entries, hget⟩ := hnames.enters.exists_directory
    rw [hnames.path_eq]
    exact honce names (hwell.forall_isEntryName hget)
  · rw [List.count_eq_zero_of_not_mem hpath]
    exact Nat.zero_le 1

theorem nodup_flatMap {pick : String × List Entry → List String}
    (hpick : ∀ x, (pick x).Subperm (walk.items x)) (hlisted : (log.map Prod.fst).Nodup) :
    (log.flatMap pick).Nodup := by
  rw [List.nodup_flatMap]
  constructor
  · intro x hx
    obtain ⟨names, hnames⟩ := hshown x hx
    obtain ⟨items, hperm, hitems⟩ := hpick x
    exact hperm.nodup_iff.mp ((hnames.nodup_items hwell hseparator).sublist hitems)
  · refine (List.pairwise_map.mp hlisted).imp_of_mem ?_
    intro x y hx hy hne item hitem hother
    obtain ⟨names, hnames⟩ := hshown x hx
    obtain ⟨others, hothers⟩ := hshown y hy
    exact hne (hnames.path_eq_of_mem_items hwell hseparator hothers
      ((hpick x).subset hitem) ((hpick y).subset hother))

theorem selects_of_mem_newFiles {file : String} (hfile : file ∈ log.flatMap walk.newFiles) :
    ∃ names, walk.Selects root names ∧ file = joined names := by
  obtain ⟨x, hx, hfile⟩ := List.mem_flatMap.mp hfile
  rw [mem_newFiles] at hfile
  obtain ⟨names, hnames⟩ := hshown x hx
  obtain ⟨name, node, hnode, hexcluded, ⟨hdirectory, hphp, hpath⟩ | ⟨-, hpath⟩⟩ :=
    (hnames.mem_expand hwell hseparator).mp hfile
  · refine ⟨names ++ [name], ⟨⟨node, hnode, hdirectory⟩, ⟨name, by simp, hphp⟩, ?_⟩, ?_⟩
    · exact fun above hne habove hmem => hexcluded ⟨above, hne, habove, hmem⟩
    · simpa using hpath
  · simp at hpath

/-- Wherever a walk stops, it has not come to anything else. -/
theorem included_or_selects (h : Course walk walk.tasks log files left) {file : String}
    (hfile : file ∈ files) :
    file ∈ walk.included ∨ ∃ names, walk.Selects root names ∧ file = joined names := by
  have hmem := h.files_perm.symm.subset (List.mem_append_left _ hfile)
  exact (List.mem_append.mp hmem).imp_right (selects_of_mem_newFiles hwell hseparator hshown)

section
variable (h : Course walk walk.tasks log files [])

include h

/-- A walk that is over has listed every directory that it is to enter. -/
theorem exists_listing {names : List String} (henters : walk.Enters root names) :
    ∃ x ∈ log, ShowsAt walk root names x := by
  have hlisted : ∀ path ∈ "" :: log.flatMap walk.newDirectories,
      ∃ x ∈ log, x.1 = path := by
    intro path hpath
    simpa using h.listed_perm.subset hpath
  have hfound : ∃ x ∈ log, x.1 = joined names := by
    induction names using List.reverseRecOn with
    | nil => exact hlisted "" List.mem_cons_self
    | append_singleton above name ih =>
      obtain ⟨children, hget⟩ := henters.exists_directory
      have habove : walk.Enters root above :=
        ⟨Node.exists_directory (by simp) hget,
          fun hexcluded => henters.not_excluded (hexcluded.mono (List.prefix_append _ _))⟩
      obtain ⟨x, hx, hpath⟩ := ih habove
      obtain ⟨others, hothers⟩ := hshown x hx
      have hshows := hothers.of_path_eq hwell habove hpath
      refine hlisted _ (List.mem_cons_of_mem _ (List.mem_flatMap.mpr ⟨x, hx, ?_⟩))
      rw [mem_newDirectories, hshows.mem_expand hwell hseparator]
      exact ⟨name, _, hget, henters.not_excluded, .inr ⟨rfl, rfl⟩⟩
  obtain ⟨x, hx, hpath⟩ := hfound
  obtain ⟨others, hothers⟩ := hshown x hx
  exact ⟨x, hx, hothers.of_path_eq hwell henters hpath⟩

/-- What is there, in a directory that is not excluded, has been shown. -/
theorem exists_listing_above {names : List String} {name : String} {node : Node}
    (hnode : root.get? (names ++ [name]) = some node) (hexcluded : ¬walk.Excludes names) :
    ∃ x ∈ log, ShowsAt walk root names x :=
  h.exists_listing hwell hseparator hshown ⟨Node.exists_directory (by simp) hnode, hexcluded⟩

theorem mem_listed_iff {path : String} :
    path ∈ log.map Prod.fst ↔ ∃ names, walk.Enters root names ∧ path = joined names := by
  rw [List.mem_map]
  constructor
  · rintro ⟨x, hx, rfl⟩
    obtain ⟨names, hnames⟩ := hshown x hx
    exact ⟨names, hnames.enters, hnames.path_eq⟩
  · rintro ⟨names, henters, rfl⟩
    obtain ⟨x, hx, hnames⟩ := h.exists_listing hwell hseparator hshown henters
    exact ⟨x, hx, hnames.path_eq⟩

theorem mem_skippedItems_iff {item : String} :
    item ∈ walk.skippedItems log ↔ ∃ names, walk.Prunes root names ∧ item = joined names := by
  simp only [skippedItems, List.mem_flatMap, List.mem_filter]
  constructor
  · rintro ⟨x, hx, hitem, hskipped⟩
    obtain ⟨names, hnames⟩ := hshown x hx
    obtain ⟨name, node, hnode, rfl⟩ := (hnames.mem_items hwell hseparator).mp hitem
    rw [isSkipped_joined hseparator (by simp) (hwell.forall_isEntryName hnode)] at hskipped
    exact ⟨_, ⟨⟨node, hnode⟩, hskipped, by simpa using hnames.not_excluded⟩, rfl⟩
  · rintro ⟨names, ⟨⟨node, hnode⟩, hexcluded, hholder⟩, rfl⟩
    rcases List.eq_nil_or_concat names with rfl | ⟨above, name, rfl⟩
    · exact absurd hexcluded not_excludes_nil
    rw [List.concat_eq_append] at hnode hexcluded hholder ⊢
    rw [List.dropLast_concat] at hholder
    obtain ⟨x, hx, hshows⟩ :=
      h.exists_listing_above hwell hseparator hshown hnode hholder
    refine ⟨x, hx, (hshows.mem_items hwell hseparator).mpr ⟨name, node, hnode, rfl⟩, ?_⟩
    rw [isSkipped_joined hseparator (by simp) (hwell.forall_isEntryName hnode)]
    exact hexcluded

theorem mem_newFiles_iff {file : String} :
    file ∈ log.flatMap walk.newFiles ↔ ∃ names, walk.Selects root names ∧ file = joined names := by
  refine ⟨selects_of_mem_newFiles hwell hseparator hshown, ?_⟩
  rintro ⟨names, ⟨⟨node, hnode, hdirectory⟩, ⟨last, hlast, hphp⟩, hexcluded⟩, rfl⟩
  have hclear : ¬walk.Excludes names := fun ⟨above, hne, habove, hmem⟩ =>
    hexcluded above hne habove hmem
  obtain ⟨above, rfl⟩ := List.getLast?_eq_some_iff.mp hlast
  obtain ⟨x, hx, hshows⟩ := h.exists_listing_above hwell hseparator hshown hnode
    fun hexcluded => hclear (hexcluded.mono (List.prefix_append _ _))
  refine List.mem_flatMap.mpr ⟨x, hx, mem_newFiles.mpr ?_⟩
  rw [hshows.mem_expand hwell hseparator]
  exact ⟨last, node, hnode, hclear, .inl ⟨hdirectory, hphp, rfl⟩⟩

/-- After what is included by name come the selected files, each of them once. -/
theorem exists_found : ∃ found, files = walk.included ++ found ∧ found.Nodup ∧
    ∀ file, file ∈ found ↔ ∃ names, walk.Selects root names ∧ file = joined names := by
  obtain ⟨found, rfl, -⟩ := h.exists_eq_append
  have hperm : (log.flatMap walk.newFiles).Perm found := by
    simpa using (List.perm_append_left_iff _).mp (by simpa using h.files_perm)
  refine ⟨found, rfl, hperm.nodup_iff.mp ?_, fun file => ?_⟩
  · exact nodup_flatMap hwell hseparator hshown walk.subperm_newFiles
      (h.nodup_listed hwell hseparator hshown)
  · rw [← hperm.mem_iff]
    exact h.mem_newFiles_iff hwell hseparator hshown

theorem nodup_skippedItems : (walk.skippedItems log).Nodup :=
  nodup_flatMap hwell hseparator hshown (fun _ => List.filter_sublist.subperm)
    (h.nodup_listed hwell hseparator hshown)

end

end

-- ---------------------------------------------------------------------------
-- The length of a course
-- ---------------------------------------------------------------------------

end Course

/-- How many nodes there are at and below a path. -/
def nodesAt (root : Node) (path : String) : Nat :=
  (root.get? (splitNames path)).elim 0 Node.count

/-- How many files and listings a task can lead to. -/
def Task.weight (root : Node) : Task → Nat
  | .file _ => 1
  | .directory path => nodesAt root path

theorem nodesAt_joined {names : List String} {node : Node} (hwell : root.WellNamed)
    (hget : root.get? names = some node) : nodesAt root (joined names) = node.count := by
  rw [nodesAt, Path.splitNames_joined (hwell.forall_isEntryName hget), hget, Option.elim_some]

namespace ShowsAt

variable {names : List String} {x : String × List Entry}

theorem weight_expand_lt (h : ShowsAt walk root names x) (hwell : root.WellNamed)
    (hseparator : walk.separator = "/") :
    ((walk.expand x.1 x.2).map (Task.weight root)).sum < nodesAt root x.1 := by
  obtain ⟨entries, hget, hperm⟩ := h.shows
  -- A task weighs no more than what is at its path, and a file is a node.
  have htask : ∀ task ∈ walk.expand x.1 x.2, task.weight root ≤ nodesAt root task.path := by
    intro task htask
    obtain ⟨name, node, hnode, -, ⟨-, -, rfl⟩ | ⟨-, rfl⟩⟩ :=
      (h.mem_expand hwell hseparator).mp htask
    · rw [Task.path, nodesAt_joined hwell hnode]
      exact node.count_pos
    · exact Nat.le_refl _
  have hitems : ((walk.items x).map (nodesAt root)).sum = Node.countEntries entries := by
    have hshown := ((hperm.map fun entry => walk.itemPath x.1 entry.name).map
      (nodesAt root)).sum_eq
    rw [items, hshown, Node.countEntries_eq, List.map_map, List.map_map]
    refine congrArg List.sum (List.map_congr_left fun entry hentry => ?_)
    have hnode := (hwell.get?_append_singleton hget).mpr hentry
    simp [h.itemPath_eq hwell hseparator, nodesAt_joined hwell hnode]
  obtain ⟨taken, htaken, hsublist⟩ := walk.subperm_items x
  calc ((walk.expand x.1 x.2).map (Task.weight root)).sum
      ≤ (((walk.expand x.1 x.2).map Task.path).map (nodesAt root)).sum := by
        rw [List.map_map]
        exact List.sum_le_sum htask
    _ = (taken.map (nodesAt root)).sum := ((htaken.map (nodesAt root)).sum_eq).symm
    _ ≤ ((walk.items x).map (nodesAt root)).sum :=
        (hsublist.map _).sum_le_sum fun _ _ => Nat.zero_le _
    _ = Node.countEntries entries := hitems
    _ < nodesAt root x.1 := by
        rw [h.path_eq, nodesAt_joined hwell hget]
        exact Nat.lt_succ_self _

end ShowsAt

/-- A walk does not come to more files and directories than there are. -/
theorem Course.length_add_length_le {tasks left : List Task} {log : Log} {files : List String}
    (h : Course walk tasks log files left) (hwell : root.WellNamed)
    (hseparator : walk.separator = "/") (hshown : ∀ x ∈ log, ∃ names, ShowsAt walk root names x) :
    files.length + log.length ≤ (tasks.map (Task.weight root)).sum := by
  have hweights := (h.perm.map (Task.weight root)).sum_eq
  -- With each listing something is lost: the directory itself.
  have hbrought : ∀ log : Log, (∀ x ∈ log, ∃ names, ShowsAt walk root names x) →
      ((log.flatMap fun x => walk.expand x.1 x.2).map (Task.weight root)).sum + log.length ≤
        (log.map fun x => nodesAt root x.1).sum := by
    intro log hlog
    induction log with
    | nil => simp
    | cons x log ih =>
      rw [List.forall_mem_cons] at hlog
      obtain ⟨⟨names, hx⟩, hrest⟩ := hlog
      have hfirst := hx.weight_expand_lt hwell hseparator
      have hlater := ih hrest
      simp only [List.flatMap_cons, List.map_append, List.sum_append, List.map_cons,
        List.sum_cons, List.length_cons]
      omega
  have hfiles : (files.map (Task.weight root ∘ Task.file)).sum = files.length := by
    have hone : Task.weight root ∘ Task.file = fun _ => 1 := rfl
    simp [hone]
  have hlisted : (log.map (Task.weight root ∘ fun x => Task.directory x.1)) =
      log.map fun x => nodesAt root x.1 := rfl
  simp only [List.map_append, List.sum_append, List.map_map, hfiles, hlisted] at hweights
  have hall := hbrought log hshown
  omega

theorem weight_tasks (walk : Walk) (root : Node) :
    (walk.tasks.map (Task.weight root)).sum = walk.included.length + root.count := by
  have hone : Task.weight root ∘ Task.file = fun _ => 1 := rfl
  have hroot : nodesAt root "" = root.count := by simp [nodesAt, splitNames]
  simp [tasks, Task.weight, hone, hroot]

end Walk

end LintRun
