import LintRun.Proofs.FileLists
import LintRun.Proofs.ResolveLaws

/-!
# Options that have been resolved

What a run may rely on, whichever layers its options come from: the entries of the file lists are
names of something, and the directory is there (`Options.resolved_of_resolve`).
-/

namespace LintRun

/-- A path that leads somewhere has no character that the system takes for its end. -/
theorem Tree.not_contains_nul_of_hasDirectory {tree : Tree} {path : Path}
    (h : tree.hasDirectory path = .ok true) : path.text.contains '\x00' = false := by
  cases hnul : path.text.contains '\x00' with
  | false => rfl
  | true =>
    unfold hasDirectory test at h
    rw [if_pos hnul] at h
    cases h

namespace Options

/-- What is known of options that resolution gives. -/
structure Resolved (tree : Tree) (options : Options) : Prop where
  included_ne : ∀ entry ∈ options.included, entry ≠ ""
  excluded_ne : ∀ entry ∈ options.excluded, entry ≠ ""
  isAbsolute : options.directory.isAbsolute = true
  hasDirectory : tree.hasDirectory options.directory = .ok true

variable {tree : Tree} {options : Options}

theorem validate_eq_ok {proposed : Proposed} {directory : Path}
    (hdirectory : proposed.directory = some directory)
    (h : validate tree proposed = .ok options) :
    directoryError? tree (some directory) = .ok none ∧ options.directory = directory ∧
      options.included = proposed.included ∧ options.excluded = proposed.excluded := by
  obtain ⟨hnone, -, -, rfl⟩ := validate_eq_ok_iff.mp h
  exact ⟨hdirectory ▸ hnone, by simp [Proposed.accepted, hdirectory], rfl, rfl⟩

theorem resolve_eq_ofLayers {overrides : Overrides} {environment : Environment} {cwd : Path}
    {defaults : Table} (h : defaultsIn tree (requestedDirectory overrides environment cwd)
      (overrides.config.map cwd.join) = .ok defaults) :
    resolve tree overrides environment cwd = ofLayers tree overrides environment defaults
      (requestedDirectory overrides environment cwd) := by
  unfold resolve
  dsimp only
  rw [h]
  rfl

/-- Options come from a configuration that was loaded, and what was read of the layers is valid. -/
theorem exists_proposed_of_resolve {overrides : Overrides} {environment : Environment} {cwd : Path}
    (h : resolve tree overrides environment cwd = .ok options) :
    ∃ defaults proposed, defaultsIn tree (requestedDirectory overrides environment cwd)
        (overrides.config.map cwd.join) = .ok defaults ∧
      Proposes overrides environment defaults (requestedDirectory overrides environment cwd)
        proposed ∧
      validate tree proposed = .ok options := by
  cases hloaded : defaultsIn tree (requestedDirectory overrides environment cwd)
      (overrides.config.map cwd.join) with
  | error failure =>
    unfold resolve at h
    dsimp only at h
    rw [hloaded] at h
    cases h
  | ok defaults =>
    rw [resolve_eq_ofLayers hloaded] at h
    obtain ⟨proposed, hproposed, hvalid⟩ := ofLayers_eq_ok_iff.mp h
    exact ⟨defaults, proposed, rfl, propose_eq_ok_iff.mp hproposed, hvalid⟩

theorem resolved_of_resolve {overrides : Overrides} {environment : Environment} {cwd : Path}
    (h : resolve tree overrides environment cwd = .ok options) : options.Resolved tree := by
  obtain ⟨_, proposed, -, hproposes, hvalid⟩ := exists_proposed_of_resolve h
  obtain ⟨hnone, hdirectory, hincluded, hexcluded⟩ := validate_eq_ok hproposes.directory_eq hvalid
  obtain ⟨habsolute, hfound⟩ := directoryError?_eq_none_iff.mp hnone
  refine ⟨?_, ?_, hdirectory ▸ habsolute, hdirectory ▸ hfound⟩
  · intro entry hentry
    exact (Value.isRelative_of_mem_asPaths hproposes.included_eq (hincluded ▸ hentry)).ne_empty
  · intro entry hentry
    exact (Value.isRelative_of_mem_asPaths hproposes.excluded_eq (hexcluded ▸ hentry)).ne_empty

end Options

end LintRun
