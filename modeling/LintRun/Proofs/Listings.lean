import Mathlib.Data.List.Perm.Subperm
import LintRun.Proofs.Course

/-!
# Listings

What the walk makes of a listing that shows a directory of the tree. The items of a listing are
paths that no listing of another directory has, and those of them that are not excluded are taken
up, each of them once, as files or as directories.
-/

namespace LintRun

open LintRun.Path (joined splitNames)

namespace Path

theorem joined_inj {names others : List String} (h : ∀ name ∈ names, IsEntryName name)
    (hothers : ∀ name ∈ others, IsEntryName name) :
    joined names = joined others ↔ names = others := by
  refine ⟨fun heq => ?_, congrArg joined⟩
  rw [← splitNames_joined h, heq, splitNames_joined hothers]

theorem joined_ne_empty {names : List String} (hne : names ≠ [])
    (h : ∀ name ∈ names, IsEntryName name) : joined names ≠ "" := by
  intro heq
  have hnil : joined names = joined [] := heq
  exact hne ((joined_inj h (List.forall_mem_nil _)).mp hnil)

end Path

namespace Walk

variable {walk : Walk} {root : Node}

-- ---------------------------------------------------------------------------
-- Exclusions
-- ---------------------------------------------------------------------------

/-- Whether what is at these names is excluded, by itself or with a directory above it. -/
def Excludes (walk : Walk) (names : List String) : Prop :=
  ∃ above, above ≠ [] ∧ above <+: names ∧ joined above ∈ walk.excluded

theorem not_excludes_nil : ¬walk.Excludes [] := by
  rintro ⟨above, hne, habove, -⟩
  exact hne (List.prefix_nil.mp habove)

theorem Excludes.mono {names below : List String} (h : walk.Excludes names)
    (hbelow : names <+: below) : walk.Excludes below := by
  obtain ⟨above, hne, habove, hmem⟩ := h
  exact ⟨above, hne, habove.trans hbelow, hmem⟩

/-- Whether the walk is to list what is at these names. Links are no directories, wherever they
lead. -/
structure Enters (walk : Walk) (root : Node) (names : List String) : Prop where
  exists_directory : ∃ entries, root.get? names = some (.directory entries)
  not_excluded : ¬walk.Excludes names

/-- Whether the walk is to skip what is at these names: that is excluded, and the directory that
holds it is not. -/
structure Prunes (walk : Walk) (root : Node) (names : List String) : Prop where
  exists_node : ∃ node, root.get? names = some node
  excluded : walk.Excludes names
  holder_not_excluded : ¬walk.Excludes names.dropLast

-- ---------------------------------------------------------------------------
-- A single listing
-- ---------------------------------------------------------------------------

/-- A listing that shows, in some order, what the tree has at names that the walk is to enter. -/
structure ShowsAt (walk : Walk) (root : Node) (names : List String) (x : String × List Entry) :
    Prop where
  path_eq : x.1 = joined names
  not_excluded : ¬walk.Excludes names
  shows : ∃ entries, root.get? names = some (.directory entries) ∧
    x.2.Perm (entries.map fun (name, node) => ⟨name, node.isDirectory⟩)

def Task.path : Task → String
  | .file path | .directory path => path

/-- Of each listing the walk takes up every item at most once. -/
theorem subperm_items (walk : Walk) (x : String × List Entry) :
    ((walk.expand x.1 x.2).map Task.path).Subperm (walk.items x) := by
  have hkept : ((walk.kept x.1 x.2).map Prod.fst).Subperm (walk.items x) := by
    have hsorted : (sorted x.2).Perm x.2 := List.mergeSort_perm _ _
    refine ((List.filter_sublist.map Prod.fst).subperm).trans (List.Perm.subperm ?_)
    rw [List.map_map]
    exact hsorted.map _
  refine .trans ?_ hkept
  -- Files are no directories, so the two parts of a listing do not overlap.
  have hparts : ∀ l : List (String × Entry),
      ((l.filter fun y => !y.2.isDirectory && isPhpFile y.2.name) ++
        l.filter fun y => y.2.isDirectory).Subperm l := by
    intro l
    have hfiles : (l.filter fun y => !y.2.isDirectory && isPhpFile y.2.name).Sublist
        (l.filter fun y => !y.2.isDirectory) :=
      List.monotone_filter_right l fun y hy => by simp_all
    have hall := List.filter_append_perm (fun y : String × Entry => y.2.isDirectory) l
    exact (hfiles.append_right _).subperm.trans (List.perm_append_comm.trans hall).subperm
  obtain ⟨l, hperm, hsublist⟩ := hparts (walk.kept x.1 x.2)
  refine ⟨l.map Prod.fst, (hperm.map Prod.fst).trans (List.Perm.of_eq ?_), hsublist.map Prod.fst⟩
  simp [expand, Function.comp_def, Task.path]

namespace ShowsAt

variable {names : List String} {x y : String × List Entry}

theorem enters (h : ShowsAt walk root names x) : walk.Enters root names := by
  obtain ⟨entries, hget, -⟩ := h.shows
  exact ⟨⟨entries, hget⟩, h.not_excluded⟩

section
variable (hwell : root.WellNamed)

include hwell

theorem mem_entries (h : ShowsAt walk root names x) {entry : Entry} :
    entry ∈ x.2 ↔ ∃ node, root.get? (names ++ [entry.name]) = some node ∧
      node.isDirectory = entry.isDirectory := by
  obtain ⟨entries, hget, hperm⟩ := h.shows
  simp only [hperm.mem_iff, List.mem_map, hwell.get?_append_singleton hget, Prod.exists]
  constructor
  · rintro ⟨name, node, hmem, rfl⟩
    exact ⟨node, hmem, rfl⟩
  · rintro ⟨node, hmem, hkind⟩
    exact ⟨entry.name, node, hmem, by rw [hkind]⟩

theorem of_path_eq {others : List String} (h : ShowsAt walk root others x)
    (henters : walk.Enters root names) (hpath : x.1 = joined names) :
    ShowsAt walk root names x := by
  obtain ⟨entries, hget⟩ := henters.exists_directory
  obtain ⟨siblings, hsiblings⟩ := h.enters.exists_directory
  rw [h.path_eq, Path.joined_inj (hwell.forall_isEntryName hsiblings)
    (hwell.forall_isEntryName hget)] at hpath
  exact hpath ▸ h

variable (hseparator : walk.separator = "/")

include hseparator

theorem itemPath_eq (h : ShowsAt walk root names x) (name : String) :
    walk.itemPath x.1 name = joined (names ++ [name]) := by
  obtain ⟨entries, hget, -⟩ := h.shows
  rw [h.path_eq, itemPath_joined hseparator (hwell.forall_isEntryName hget)]

theorem mem_items (h : ShowsAt walk root names x) {item : String} :
    item ∈ walk.items x ↔ ∃ name node, root.get? (names ++ [name]) = some node ∧
      item = joined (names ++ [name]) := by
  simp only [items, List.mem_map, h.mem_entries hwell,
    h.itemPath_eq hwell hseparator]
  constructor
  · rintro ⟨entry, ⟨node, hnode, -⟩, rfl⟩
    exact ⟨entry.name, node, hnode, rfl⟩
  · rintro ⟨name, node, hnode, rfl⟩
    exact ⟨⟨name, node.isDirectory⟩, ⟨node, hnode, rfl⟩, rfl⟩

theorem nodup_items (h : ShowsAt walk root names x) : (walk.items x).Nodup := by
  obtain ⟨entries, hget, hperm⟩ := h.shows
  have hnames : (x.2.map Entry.name).Nodup := by
    rw [(hperm.map Entry.name).nodup_iff, List.map_map]
    exact hwell.nodup hget
  have hitems : walk.items x = (x.2.map Entry.name).map fun name => joined (names ++ [name]) := by
    rw [items, List.map_map]
    exact List.map_congr_left fun entry _ => h.itemPath_eq hwell hseparator entry.name
  have hentry : ∀ name ∈ x.2.map Entry.name, ∀ other ∈ names ++ [name], IsEntryName other := by
    intro name hname
    obtain ⟨entry, hentry, rfl⟩ := List.mem_map.mp hname
    obtain ⟨node, hnode, -⟩ := (h.mem_entries hwell).mp hentry
    exact hwell.forall_isEntryName hnode
  rw [hitems]
  refine List.Nodup.map_on (fun name hname other hother heq => ?_) hnames
  rw [Path.joined_inj (hentry name hname) (hentry other hother)] at heq
  simpa using heq

/-- An item tells the directory that it is in. -/
theorem path_eq_of_mem_items {others : List String} (h : ShowsAt walk root names x)
    (hy : ShowsAt walk root others y) {item : String} (hx : item ∈ walk.items x)
    (hitem : item ∈ walk.items y) : x.1 = y.1 := by
  obtain ⟨name, node, hnode, rfl⟩ := (h.mem_items hwell hseparator).mp hx
  obtain ⟨other, node', hnode', heq⟩ := (hy.mem_items hwell hseparator).mp hitem
  rw [Path.joined_inj (hwell.forall_isEntryName hnode) (hwell.forall_isEntryName hnode')] at heq
  rw [h.path_eq, hy.path_eq, (List.append_inj' heq rfl).1]

theorem mem_expand (h : ShowsAt walk root names x) {task : Task} :
    task ∈ walk.expand x.1 x.2 ↔ ∃ name node, root.get? (names ++ [name]) = some node ∧
      ¬walk.Excludes (names ++ [name]) ∧
      ((node.isDirectory = false ∧ isPhpFile name = true ∧
          task = .file (joined (names ++ [name]))) ∨
        (node.isDirectory = true ∧ task = .directory (joined (names ++ [name])))) := by
  have hskipped : ∀ {name node}, root.get? (names ++ [name]) = some node →
      (walk.isSkipped (joined (names ++ [name])) = false ↔ ¬walk.Excludes (names ++ [name])) := by
    intro name node hnode
    rw [← Bool.not_eq_true, isSkipped_joined hseparator (by simp)
      (hwell.forall_isEntryName hnode)]
    rfl
  simp only [Walk.mem_expand, h.itemPath_eq hwell hseparator, h.mem_entries hwell]
  constructor
  · rintro ⟨entry, ⟨node, hnode, hkind⟩, hskip, htask⟩
    rw [hskipped hnode] at hskip
    exact ⟨entry.name, node, hnode, hskip, by rwa [hkind]⟩
  · rintro ⟨name, node, hnode, hexcluded, htask⟩
    exact ⟨⟨name, node.isDirectory⟩, ⟨node, hnode, rfl⟩, (hskipped hnode).mpr hexcluded, htask⟩

end

end ShowsAt

end Walk

end LintRun
