import Mathlib
import LintRun.Host.Scripted
import LintRun.Proofs.CheckLaws
import LintRun.Proofs.Reach

/-!
# The files a run has to check

While the tree of a host stays the same, a batch run comes only to files that have to be checked,
and to all of them if its walk is over. The walk may meet links anywhere, and listings may fail.
-/

namespace LintRun

open LintRun.Path (joined)

/-- What a listing may show of a path: the entries that are there, in any order. -/
def Tree.Lists (tree : Tree) (path : Path) (listed : List Entry) : Prop :=
  ∃ shown, tree.list path = .ok shown ∧ listed.Perm shown

def Tree.WellNamed (tree : Tree) : Prop :=
  tree.root.WellNamed

/-- In the course of the events the tree stays as it is, and a listing shows what the tree has. -/
structure Host.Steady {σ : Type} (host : Host σ) (s : σ) (events : List Event) : Prop where
  tree_eq : ∀ {before}, before <+: events → host.tree (host.after s before) = host.tree s
  lists : ∀ {before later path listed}, events = before ++ .list path :: later →
    (host.list path (host.after s before)).1 = .ok listed →
    (host.tree (host.after s before)).Lists path listed

/-- A file has to be checked if it is included by name, or if it is below the directory and is
selected there. -/
def Check.MustCheck (tree : Tree) (options : Options) (file : String) : Prop :=
  file ∈ options.included ∨
    ∃ root names, tree.find options.directory = .ok root ∧
      (Check.walkOf options).Selects root names ∧ file = joined names

theorem Tree.WellNamed.of_find {tree : Tree} {path : Path} {node : Node} (h : tree.WellNamed)
    (hfind : tree.find path = .ok node) : node.WellNamed := by
  obtain ⟨names, -, hget⟩ := Tree.find_eq_ok_iff.mp hfind
  exact Node.WellNamed.of_get? h hget

theorem Tree.Lists.find_eq {tree : Tree} {path : Path} {listed : List Entry}
    (h : tree.Lists path listed) : ∃ entries, tree.find path = .ok (.directory entries) := by
  obtain ⟨shown, hshown, -⟩ := h
  obtain ⟨names, entries, hnames, hget, -⟩ := Tree.list_eq_ok_iff.mp hshown
  exact ⟨entries, Tree.find_eq_ok_iff.mpr ⟨names, hnames, hget⟩⟩

namespace Walk

variable {walk : Walk} {tree : Tree}

theorem not_selects_of_not_directory {root : Node} {names : List String}
    (h : root.isDirectory = false) : ¬walk.Selects root names := by
  rintro ⟨⟨node, hget, -⟩, ⟨last, hlast, -⟩, -⟩
  cases names with
  | nil => cases hlast
  | cons name names =>
    obtain ⟨entries, -, rfl, -⟩ := Node.get?_cons_eq_some.mp hget
    cases h

theorem showsBelow_lists (hwell : tree.WellNamed) {root : Node}
    (hfind : tree.find walk.directory = .ok root) : walk.ShowsBelow root tree.Lists := by
  intro above entries listed hget hlisted
  have hroot := hwell.of_find hfind
  obtain ⟨shown, hshown, hperm⟩ := hlisted
  rw [pathOf_joined (hroot.forall_isEntryName hget)] at hshown
  rw [← Tree.list_below hfind hroot hget hshown]
  exact hperm

/-- Where the directory of the walk cannot be listed, an empty one stands for it. -/
theorem exists_root (walk : Walk) (hwell : tree.WellNamed) :
    ∃ root : Node, root.WellNamed ∧ root.isDirectory = true ∧ walk.ShowsBelow root tree.Lists ∧
      ∀ names, walk.Selects root names ↔
        ∃ found, tree.find walk.directory = .ok found ∧ walk.Selects found names := by
  by_cases hdirectory : ∃ entries, tree.find walk.directory = .ok (.directory entries)
  · obtain ⟨entries, hfind⟩ := hdirectory
    refine ⟨.directory entries, hwell.of_find hfind, rfl, showsBelow_lists hwell hfind,
      fun names => ?_⟩
    simp [hfind]
  -- Nothing is selected below what is no directory, and it has no listing to show.
  · refine ⟨.directory [], Node.wellNamed_directory (by simp) (by simp) (by simp), rfl, ?_,
      fun names => ?_⟩
    · intro above entries listed hget hlisted
      cases above with
      | nil => exact absurd hlisted.find_eq hdirectory
      | cons name above => simp [Node.get?] at hget
    · constructor
      · rintro ⟨⟨node, hget, -⟩, ⟨last, hlast, -⟩, -⟩
        cases names with
        | nil => cases hlast
        | cons name names => simp [Node.get?] at hget
      · rintro ⟨found, hfind, hselects⟩
        cases found with
        | directory entries => exact absurd ⟨entries, hfind⟩ hdirectory
        | file | link => exact absurd hselects (not_selects_of_not_directory rfl)

end Walk

theorem Setting.after_eq (setting : Setting) {script : Script} (h : script.effects = [])
    (events : List Event) :
    (setting.host.after script events).tree = script.tree ∧
      (setting.host.after script events).effects = [] := by
  induction events generalizing script with
  | nil => exact ⟨rfl, h⟩
  | cons event events ih =>
    have hkept : (setting.host.perform script event).tree = script.tree ∧
        (setting.host.perform script event).effects = [] := by
      cases event <;> simp [Host.perform, Setting.host, Script.launch, h, Tree.applyAll]
    rw [Host.after_cons, ← hkept.1]
    exact ih hkept.2

theorem Setting.lists_of_list {setting : Setting} {tree : Tree} {path : Path} {listed : List Entry}
    (h : setting.list tree path = .ok listed) : tree.Lists path listed := by
  unfold list at h
  split at h
  · cases h
  · cases hshown : tree.list path with
    | error e => simp [hshown, Except.mapError] at h
    | ok shown =>
      obtain rfl : shown = listed := by simpa [hshown, Except.mapError] using h
      exact ⟨shown, hshown, List.Perm.refl _⟩

/-- A script whose launches change nothing. -/
theorem Setting.steady (setting : Setting) {script : Script} (h : script.effects = [])
    (events : List Event) : setting.host.Steady script events :=
  ⟨fun {before} _ => (setting.after_eq h before).1, fun _ hlist => lists_of_list hlist⟩

theorem Setting.listsAs (setting : Setting) {script : Script} (h : script.effects = [])
    (events : List Event) :
    setting.host.ListsAs script (setting.list script.tree) events := by
  intro x hx
  obtain ⟨before, later, rfl, hanswer⟩ := (setting.host.mem_listed script).mp hx
  rw [← hanswer, ← (setting.after_eq h before).1]
  rfl

theorem Setting.results_subset (setting : Setting) (script : Script) (events : List Event) :
    (setting.host.after script events).results ⊆ script.results := by
  induction events generalizing script with
  | nil => exact List.Subset.refl _
  | cons event events ih =>
    have hkept : (setting.host.perform script event).results ⊆ script.results := by
      cases event with
      | launch => exact List.drop_subset 1 _
      | _ => exact List.Subset.refl _
    exact List.Subset.trans (ih _) hkept

theorem Script.exists_result {script : Script}
    (h : ∀ scripted ∈ script.results, ∃ result, scripted = .ok result) :
    ∃ result, script.launch.1.result = .ok result := by
  unfold launch
  cases hresults : script.results with
  | nil => exact ⟨{}, rfl⟩
  | cons scripted rest =>
    obtain ⟨result, rfl⟩ := h scripted (hresults ▸ List.mem_cons_self)
    exact ⟨result, rfl⟩

theorem Setting.givesResults (setting : Setting) {script : Script}
    (h : ∀ scripted ∈ script.results, ∃ result, scripted = .ok result) (events : List Event) :
    setting.host.GivesResults script events := by
  intro answer hanswer
  obtain ⟨before, invocation, later, rfl, rfl⟩ := (setting.host.mem_results script).mp hanswer
  have hsubset := setting.results_subset script before
  exact Script.exists_result fun scripted hscripted => h scripted (hsubset hscripted)

/-- A directory with another one, in which there is a link to nowhere. -/
def sampleTree : Tree where
  root := .directory [("w", .directory [("b", .directory [("c.php", .link "/nowhere")])])]

def sampleDirectory : Path := ⟨.root, ["w"]⟩

def sampleScript : Script := { tree := sampleTree }

def sampleOverrides : Overrides := { supportDuplicatedNames := some true }

def sampleHost : Host Script :=
  Setting.host {
    platform := .posix
    environment := []
    helper := ""
    probe := fun _ => .ok { stdout := some "70433" }
    unlistable := [] }

def sampleOptions : Options where
  directory := sampleDirectory
  included := []
  excluded := []
  failOnWarnings := false
  supportDuplicatedNames := true
  debug := false
  php := "php"
  timeout := none

theorem sampleHost_version (script : Script) :
    (sampleHost.version sampleOptions.php script).result = .ok ⟨7, 4, 33⟩ := by cbv

theorem sampleOptions_select :
    Strategy.select ⟨7, 4, 33⟩ sampleOptions.supportDuplicatedNames sampleOptions.php =
      .batch "php" false := by decide

theorem sampleTree_wellNamed : sampleTree.WellNamed := by
  refine Node.wellNamed_directory (by decide) (by decide) ?_
  rintro _ (⟨⟩ | ⟨_, ⟨⟩⟩)
  refine Node.wellNamed_directory (by decide) (by decide) ?_
  rintro _ (⟨⟩ | ⟨_, ⟨⟩⟩)
  refine Node.wellNamed_directory (by decide) (by decide) ?_
  rintro _ (⟨⟩ | ⟨_, ⟨⟩⟩)
  exact Node.wellNamed_link "/nowhere"

namespace Check

variable {σ : Type} {host : Host σ} {s : σ} {options : Options} {packing : Packing}
  {events : List Event}

theorem lists_of_steady (h : host.Steady s events) {path : Path} {listed : List Entry}
    (hlisted : (path, .ok listed) ∈ host.listed s events) : (host.tree s).Lists path listed := by
  obtain ⟨before, later, rfl, hlist⟩ := (host.mem_listed s).mp hlisted
  have hshown := h.lists rfl hlist
  rwa [h.tree_eq (List.prefix_append _ _)] at hshown

/-- The listings of a course show a tree in which the selected files are those to check. -/
theorem exists_shown (hsteady : host.Steady s events) (hwell : (host.tree s).WellNamed)
    {log : Walk.Log} {files : List String} {left : List Walk.Task}
    (h : (walkOf options).Course (walkOf options).tasks log files left)
    (hlisted : (walkOf options).answers log ⊆ host.listed s events) :
    ∃ root : Node, root.WellNamed ∧
      (∀ x ∈ log, ∃ names, (walkOf options).ShowsAt root names x) ∧
      ∀ file, MustCheck (host.tree s) options file ↔ file ∈ options.included ∨
        ∃ names, (walkOf options).Selects root names ∧ file = joined names := by
  obtain ⟨root, hroot, hdirectory, hshows, hselects⟩ := (walkOf options).exists_root hwell
  have hlog : ∀ x ∈ log, (host.tree s).Lists ((walkOf options).pathOf x.1) x.2 :=
    fun x hx => lists_of_steady hsteady (hlisted (List.mem_map.mpr ⟨x, hx, rfl⟩))
  have htasks : ∀ task ∈ (walkOf options).tasks, task.Entered (walkOf options) root :=
    fun task => Walk.entered_of_mem_tasks hdirectory
  refine ⟨root, hroot, (h.shows rfl hroot hshows hlog htasks).1, fun file => ?_⟩
  refine or_congr_right ⟨?_, ?_⟩
  · rintro ⟨found, names, hfind, hfound, rfl⟩
    exact ⟨names, (hselects names).mpr ⟨found, hfind, hfound⟩, rfl⟩
  · rintro ⟨names, hnames, rfl⟩
    obtain ⟨found, hfind, hfound⟩ := (hselects names).mp hnames
    exact ⟨found, names, hfind, hfound, rfl⟩

theorem mustCheck_of_mem_provisions (hsteady : host.Steady s events)
    (hwell : (host.tree s).WellNamed)
    (h : BatchSoFar host options packing s (walkOf options).tasks {} events) {file : String}
    (hfile : file ∈ provisions events) : MustCheck (host.tree s) options file := by
  obtain ⟨log, left, hcourse, hlisted⟩ := h.exists_course
  obtain ⟨root, hroot, hshown, hmust⟩ := exists_shown hsteady hwell hcourse hlisted
  exact (hmust file).mpr (hcourse.included_or_selects hroot rfl hshown hfile)

/-- A batch run with a verdict has come to all of them. -/
theorem mem_provisions_iff (hsteady : host.Steady s events) (hwell : (host.tree s).WellNamed)
    {verdict out : Verdict}
    (h : BatchDone host options packing s (walkOf options).tasks {} verdict events out)
    (file : String) : file ∈ provisions events ↔ MustCheck (host.tree s) options file := by
  obtain ⟨log, hcourse, hlisted⟩ := h.exists_course
  obtain ⟨root, hroot, hshown, hmust⟩ := exists_shown hsteady hwell hcourse hlisted
  obtain ⟨found, hfiles, -, hfound⟩ := hcourse.exists_found hroot rfl hshown
  rw [hmust, hfiles, List.mem_append, hfound]
  rfl

end Check

end LintRun
