import Mathlib.Logic.Basic
import LintRun.Proofs.TreeLaws
import LintRun.Walk

/-!
# What the walk is to come to

A file is selected if it is there, its name is that of a file to check, and neither it nor a
directory above it is excluded. A listing leaves the entries to do that are not excluded; as no name
has a slash in it, their paths tell whether they are, and where they are in the tree.
-/

namespace LintRun

open LintRun.Path (joined splitNames splitOn_joined)

-- ---------------------------------------------------------------------------
-- Exclusions
-- ---------------------------------------------------------------------------

/-- A text with a slash after it starts a path exactly if it leads to a directory on the way. -/
theorem Path.isPrefixOf_joined {names : List String} (h : ∀ name ∈ names, '/' ∉ name.toList)
    (text : String) :
    (text ++ "/").toList.isPrefixOf (joined names).toList = true ↔
      ∃ above below, above ≠ [] ∧ below ≠ [] ∧ names = above ++ below ∧ text = joined above := by
  have hslash : "/".toList = ['/'] := rfl
  rw [List.isPrefixOf_iff_prefix, String.toList_append, hslash]
  constructor
  · rintro ⟨after, hafter⟩
    have hne : names ≠ [] := by
      rintro rfl
      simp [joined] at hafter
    -- No name has a slash in it, so that splitting at the slashes gives all names back.
    have hsplit := splitOn_joined hne h
    rw [← hafter, List.append_assoc, List.singleton_append, List.splitOn_append_cons_self] at hsplit
    obtain ⟨above, below, rfl, habove, hbelow⟩ := List.map_eq_append_iff.mp hsplit.symm
    refine ⟨above, below, ?_, ?_, rfl, ?_⟩
    · rintro rfl
      simp at habove
    · rintro rfl
      simp at hbelow
    · rw [← String.toList_inj, Path.toList_joined, habove, List.intercalate_splitOn]
  · rintro ⟨above, below, habove, hbelow, rfl, rfl⟩
    exact ⟨(joined below).toList, by simp [Path.joined_append habove hbelow, hslash]⟩

namespace Walk

variable {walk : Walk}

/-- A path is skipped exactly if it, or a directory above it, is excluded. -/
theorem isSkipped_joined (hseparator : walk.separator = "/") {names : List String}
    (hne : names ≠ []) (h : ∀ name ∈ names, IsEntryName name) :
    walk.isSkipped (joined names) = true ↔
      ∃ above, above ≠ [] ∧ above <+: names ∧ joined above ∈ walk.excluded := by
  have hslash : ∀ name ∈ names, '/' ∉ name.toList := fun name hname => (h name hname).2.2.2
  simp only [isSkipped, isExcluded, List.any_eq_true, covers, hseparator, Bool.or_eq_true,
    beq_iff_eq, Path.isPrefixOf_joined hslash]
  constructor
  · rintro ⟨text, htext, rfl | ⟨above, below, habove, -, rfl, rfl⟩⟩
    · exact ⟨names, hne, List.prefix_rfl, htext⟩
    · exact ⟨above, habove, List.prefix_append above below, htext⟩
  · rintro ⟨above, habove, ⟨below, rfl⟩, hmem⟩
    refine ⟨joined above, hmem, ?_⟩
    by_cases hbelow : below = []
    · exact .inl (by simp [hbelow])
    · exact .inr ⟨above, below, habove, hbelow, rfl, rfl⟩

-- ---------------------------------------------------------------------------
-- Selected files
-- ---------------------------------------------------------------------------

/-- Whether the walk is to come to what is at these names below its directory: that is no directory
itself, its name is that of a file to check, and neither it nor a directory above it is excluded. -/
structure Selects (walk : Walk) (root : Node) (names : List String) : Prop where
  exists_node : ∃ node, root.get? names = some node ∧ node.isDirectory = false
  exists_last : ∃ name, names.getLast? = some name ∧ isPhpFile name = true
  not_excluded : ∀ above, above ≠ [] → above <+: names → joined above ∉ walk.excluded

-- ---------------------------------------------------------------------------
-- Steps of the walk
-- ---------------------------------------------------------------------------

@[simp] theorem itemPath_joined (hseparator : walk.separator = "/") {above : List String}
    (h : ∀ name ∈ above, IsEntryName name) (name : String) :
    walk.itemPath (joined above) name = joined (above ++ [name]) := by
  unfold itemPath
  by_cases habove : above = []
  · simp [habove, joined]
  · rw [if_neg, hseparator, Path.joined_append habove (by simp)]
    · simp [joined]
    · intro hempty
      have hnames := Path.splitNames_joined h
      rw [hempty] at hnames
      exact habove hnames.symm

theorem pathOf_joined {above : List String} (h : ∀ name ∈ above, IsEntryName name) :
    walk.pathOf (joined above) = ⟨walk.directory.anchor, walk.directory.names ++ above⟩ := by
  unfold pathOf
  split
  · rename_i hempty
    have hnames := Path.splitNames_joined h
    rw [hempty] at hnames
    simp [← hnames, splitNames]
  · exact Path.join_ofString_joined walk.directory h

theorem mem_expand {path : String} {listed : List Entry} {task : Task} :
    task ∈ walk.expand path listed ↔
      ∃ entry ∈ listed, walk.isSkipped (walk.itemPath path entry.name) = false ∧
        ((entry.isDirectory = false ∧ isPhpFile entry.name = true ∧
            task = .file (walk.itemPath path entry.name)) ∨
          (entry.isDirectory = true ∧ task = .directory (walk.itemPath path entry.name))) := by
  simp only [expand, kept, sorted, List.mem_append, List.mem_map, List.mem_filter,
    List.mem_mergeSort]
  constructor
  · rintro (⟨_, ⟨⟨⟨entry, hmem, rfl⟩, hskip⟩, hentry⟩, rfl⟩ |
      ⟨_, ⟨⟨⟨entry, hmem, rfl⟩, hskip⟩, hentry⟩, rfl⟩)
    · exact ⟨entry, hmem, by simpa using hskip, .inl (by simpa using hentry)⟩
    · exact ⟨entry, hmem, by simpa using hskip, .inr (by simpa using hentry)⟩
  · rintro ⟨entry, hmem, hskip, ⟨hfile, hphp, rfl⟩ | ⟨hdirectory, rfl⟩⟩
    · exact .inl ⟨_, ⟨⟨⟨entry, hmem, rfl⟩, by simpa using hskip⟩, by simp [hfile, hphp]⟩, rfl⟩
    · exact .inr ⟨_, ⟨⟨⟨entry, hmem, rfl⟩, by simpa using hskip⟩, by simpa using hdirectory⟩, rfl⟩

/-- Listings show, in any order, what the directories below the directory of the walk have. -/
def ShowsBelow (walk : Walk) (root : Node) (lists : Path → List Entry → Prop) : Prop :=
  ∀ {above entries listed}, root.get? above = some (.directory entries) →
    lists (walk.pathOf (joined above)) listed →
    listed.Perm (entries.map fun (name, node) => ⟨name, node.isDirectory⟩)

end Walk

end LintRun
