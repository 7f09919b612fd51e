import LintRun.Proofs.Coverage
import LintRun.Proofs.Reach

/-!
# Walks of a tree that stays the same

While every listing shows what is in the tree, an iteration that fails at no listing comes to the
selected files and to no others, after those that are included by name, and each directory is
listed once that is not excluded (`Provider.drain_start_census`). The counters tell how many these
files are, and how many entries were skipped.
-/

namespace LintRun

open LintRun.Path (joined)

namespace Walk

/-- What `list` shows is in the tree. It need not show every directory. -/
structure Faithful (walk : Walk) (tree : Tree) (root : Node)
    (list : Path → Except OsError (List Entry)) : Prop where
  separator_eq : walk.separator = "/"
  wellNamed : tree.WellNamed
  find_eq : tree.find walk.directory = .ok root
  isDirectory : root.isDirectory = true
  lists : ∀ {path listed}, list path = .ok listed → tree.Lists path listed

variable {walk : Walk} {tree : Tree} {root : Node} {list : Path → Except OsError (List Entry)}
  {log : Log} {files : List String} {left : List Task}

theorem forall_mem_of_answers {σ : Type} {host : Host σ} {s : σ} {events : List Event}
    (hlists : host.ListsAs s list events) (hlog : walk.answers log <+: host.listed s events) :
    ∀ x ∈ log, list (walk.pathOf x.1) = .ok x.2 := by
  intro x hx
  exact (hlists _ (hlog.subset (List.mem_map.mpr ⟨x, hx, rfl⟩))).symm

namespace Faithful

variable (hfaithful : walk.Faithful tree root list)

include hfaithful

theorem root_wellNamed : root.WellNamed :=
  hfaithful.wellNamed.of_find hfaithful.find_eq

theorem pathOf_joined {names : List String} {node : Node} (hget : root.get? names = some node) :
    walk.pathOf (joined names) =
      ⟨walk.directory.anchor, walk.directory.names ++ names⟩ :=
  Walk.pathOf_joined (hfaithful.root_wellNamed.forall_isEntryName hget)

section
variable (h : Course walk walk.tasks log files left)
  (hlog : ∀ x ∈ log, list (walk.pathOf x.1) = .ok x.2)

include h hlog

theorem shows :
    (∀ x ∈ log, ∃ names, ShowsAt walk root names x) ∧ ∀ task ∈ left, task.Entered walk root := by
  have hlisted : ∀ x ∈ log, tree.Lists (walk.pathOf x.1) x.2 :=
    fun x hx => hfaithful.lists (hlog x hx)
  exact h.shows hfaithful.separator_eq hfaithful.root_wellNamed
    (showsBelow_lists hfaithful.wellNamed hfaithful.find_eq) hlisted
    fun task => entered_of_mem_tasks hfaithful.isDirectory

/-- A walk ends before the fuel does that is enough for all that there is. -/
theorem length_lt {fuel : Nat} (hfuel : walk.included.length + root.count + 1 < fuel) :
    files.length + log.length + 1 < fuel := by
  have hlength := h.length_add_length_le hfaithful.root_wellNamed hfaithful.separator_eq
    (hfaithful.shows h hlog).1
  rw [weight_tasks] at hlength
  omega

end

end Faithful

-- ---------------------------------------------------------------------------
-- Walks that are over
-- ---------------------------------------------------------------------------

/-- The files found, the directories listed and the entries skipped, each of them once. -/
structure Census (walk : Walk) (root : Node) (found : List String) (listed : List Path)
    (skipped : List String) : Prop where
  nodup_found : found.Nodup
  mem_found_iff : ∀ file,
    file ∈ found ↔ ∃ names, walk.Selects root names ∧ file = joined names
  nodup_listed : listed.Nodup
  mem_listed_iff : ∀ path, path ∈ listed ↔ ∃ names, walk.Enters root names ∧
    path = ⟨walk.directory.anchor, walk.directory.names ++ names⟩
  nodup_skipped : skipped.Nodup
  mem_skipped_iff : ∀ item,
    item ∈ skipped ↔ ∃ names, walk.Prunes root names ∧ item = joined names

theorem Faithful.exists_census (hfaithful : walk.Faithful tree root list)
    (h : Course walk walk.tasks log files []) (hlog : ∀ x ∈ log, list (walk.pathOf x.1) = .ok x.2) :
    ∃ found, files = walk.included ++ found ∧
      walk.Census root found ((walk.answers log).map Prod.fst) (walk.skippedItems log) := by
  have hwell := hfaithful.root_wellNamed
  have hseparator := hfaithful.separator_eq
  have hshown := (hfaithful.shows h hlog).1
  have hpaths : (walk.answers log).map Prod.fst = (log.map Prod.fst).map walk.pathOf := by
    simp [answers]
  have hlisted : ∀ path, path ∈ log.map Prod.fst ↔
      ∃ names, walk.Enters root names ∧ path = joined names :=
    fun path => h.mem_listed_iff hwell hseparator hshown
  obtain ⟨found, hfiles, hnodup, hfound⟩ := h.exists_found hwell hseparator hshown
  refine ⟨found, hfiles, hnodup, hfound, ?_, fun path => ?_,
    h.nodup_skippedItems hwell hseparator hshown,
    fun item => h.mem_skippedItems_iff hwell hseparator hshown⟩
  · -- Different names lead to different places.
    rw [hpaths]
    refine (h.nodup_listed hwell hseparator hshown).map_on fun path hpath other hother heq => ?_
    obtain ⟨names, henters, rfl⟩ := (hlisted path).mp hpath
    obtain ⟨others, henters', rfl⟩ := (hlisted other).mp hother
    obtain ⟨entries, hget⟩ := henters.exists_directory
    obtain ⟨others', hget'⟩ := henters'.exists_directory
    rw [hfaithful.pathOf_joined hget, hfaithful.pathOf_joined hget'] at heq
    obtain rfl : names = others := by simpa using heq
    rfl
  · rw [hpaths, List.mem_map]
    constructor
    · rintro ⟨item, hitem, rfl⟩
      obtain ⟨names, henters, rfl⟩ := (hlisted item).mp hitem
      obtain ⟨entries, hget⟩ := henters.exists_directory
      exact ⟨names, henters, hfaithful.pathOf_joined hget⟩
    · rintro ⟨names, henters, rfl⟩
      obtain ⟨entries, hget⟩ := henters.exists_directory
      exact ⟨_, (hlisted _).mpr ⟨names, henters, rfl⟩, hfaithful.pathOf_joined hget⟩

end Walk

namespace Provider

/-- An iteration that is run to its end, whatever the provider has counted before, gives what is
included by name and then what the walk selects. -/
theorem drain_start_census {σ : Type} (host : Host σ) (s : σ) {walk : Walk} {root : Node}
    {list : Path → Except OsError (List Entry)} (provider : Provider) (name : String) (fuel : Nat)
    (hfaithful : walk.Faithful (host.tree s) root list)
    (hlistable : ∀ names, walk.Enters root names →
      ∃ listed, list ⟨walk.directory.anchor, walk.directory.names ++ names⟩ = .ok listed)
    (hlists : host.ListsAs s list
      ((provider.start name).drain walk host.runList name fuel s).events)
    (hfuel : walk.included.length + root.count + 1 < fuel) :
    ∃ found skipped last,
      ((provider.start name).drain walk host.runList name fuel s).result =
        .ok (walk.included ++ found, .finished, last) ∧
      walk.Census root found
        ((host.listed s ((provider.start name).drain walk host.runList name fuel s).events).map
          Prod.fst) skipped ∧
      last.counters = ⟨walk.included.length + found.length, skipped.length⟩ := by
  obtain ⟨⟨files, pull, last⟩, hresult, log, hends, hcounters⟩ :=
    (drain_triple host fuel (begun?_start walk provider name) s).exists_ok
  generalize ((provider.start name).drain walk host.runList name fuel s).events = events at *
  dsimp only at hends hcounters
  obtain ⟨left, hcourse, hlog⟩ := hends.exists_course
  have hlog := Walk.forall_mem_of_answers hlists hlog
  generalize hlisted : host.listed s events = answers at hends ⊢
  cases hends with
  | finished hcourse =>
    obtain ⟨found, rfl, hcensus⟩ := hfaithful.exists_census hcourse hlog
    refine ⟨found, walk.skippedItems log, last, hresult, hcensus, ?_⟩
    rw [hcounters rfl]
    simp [Walk.countersAfter]
  | failed error hcourse =>
    obtain ⟨names, henters, rfl⟩ := (hfaithful.shows hcourse hlog).2 _ List.mem_cons_self
    obtain ⟨entries, hget⟩ := henters.exists_directory
    obtain ⟨shown, hshown⟩ := hlistable names henters
    have hfailed := hlists _ (hlisted ▸ List.mem_append_right _ (List.mem_singleton_self _))
    rw [hfaithful.pathOf_joined hget, hshown] at hfailed
    cases hfailed
  | exhausted hcourse hspent =>
    have henough := hfaithful.length_lt hcourse hlog hfuel
    omega

end Provider

/-- What there is in the directory of the sample. -/
def sampleRoot : Node :=
  .directory [("b", .directory [("c.php", .link "/nowhere")])]

def sampleWalk : Walk := ⟨sampleDirectory, ["a.php"], [], "/"⟩

def sampleList (path : Path) : Except OsError (List Entry) :=
  (sampleHost.list path sampleScript).1

theorem sampleTree_faithful {walk : Walk} {list : Path → Except OsError (List Entry)}
    (hdirectory : walk.directory = sampleDirectory) (hseparator : walk.separator = "/")
    (hlists : ∀ {path listed}, list path = .ok listed → sampleTree.Lists path listed) :
    walk.Faithful sampleTree sampleRoot list where
  separator_eq := hseparator
  wellNamed := sampleTree_wellNamed
  find_eq := by rw [hdirectory]; cbv
  isDirectory := rfl
  lists := hlists

theorem lists_of_sampleList {path : Path} {listed : List Entry}
    (h : sampleList path = .ok listed) : sampleTree.Lists path listed := by
  simp only [sampleList, sampleHost, Setting.host] at h
  exact Setting.lists_of_list h

theorem sampleList_enters {names : List String} (h : sampleWalk.Enters sampleRoot names) :
    ∃ listed, sampleList ⟨.root, "w" :: names⟩ = .ok listed := by
  obtain ⟨entries, hget⟩ := h.exists_directory
  cases names with
  | nil => exact ⟨[⟨"b", true⟩], by cbv⟩
  | cons name names =>
    obtain ⟨_, child, ⟨⟩, hchild, hbelow⟩ := Node.get?_cons_eq_some.mp hget
    obtain ⟨rfl, rfl⟩ := List.mem_singleton.mp (Node.mem_of_lookup hchild)
    cases names with
    | nil => exact ⟨[⟨"c.php", false⟩], by cbv⟩
    | cons name names =>
      -- The only entry there is a link.
      obtain ⟨_, child, ⟨⟩, hchild, hbelow⟩ := Node.get?_cons_eq_some.mp hbelow
      obtain ⟨rfl, rfl⟩ := List.mem_singleton.mp (Node.mem_of_lookup hchild)
      cases names <;> simp [Node.get?] at hbelow

/-- What is counted before an iteration does not matter. -/
theorem Provider.drain_start_census_sample :
    ∃ found skipped last,
      ((Provider.start ⟨[], ⟨7, 7⟩⟩ "files").drain sampleWalk sampleHost.runList "files" 7
        sampleScript).result = .ok ("a.php" :: found, .finished, last) ∧
      sampleWalk.Census sampleRoot found
        ((sampleHost.listed sampleScript ((Provider.start ⟨[], ⟨7, 7⟩⟩ "files").drain sampleWalk
          sampleHost.runList "files" 7 sampleScript).events).map Prod.fst) skipped ∧
      last.counters = ⟨1 + found.length, skipped.length⟩ :=
  drain_start_census sampleHost sampleScript ⟨[], ⟨7, 7⟩⟩ "files" 7
    (sampleTree_faithful rfl rfl lists_of_sampleList) (fun _ henters => sampleList_enters henters)
    (Setting.listsAs _ rfl _) (by decide)

end LintRun
