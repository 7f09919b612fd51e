import LintRun.Proofs.Coverage
import LintRun.Proofs.Iteration

/-!
# The order of the walk

The files that the walk finds come in a fixed order of their paths (`Before`): in each directory its
own files come before what is below its subdirectories, and both go by their names. How a listing
orders its entries makes no difference (`Provider.drain_rearranged`).
-/

namespace LintRun

-- ---------------------------------------------------------------------------
-- The order of paths
-- ---------------------------------------------------------------------------

/-- The order of paths, given as the names that lead to a file. In the last directory that two paths
have in common a file comes before what is in a subdirectory, and else the names decide. -/
inductive Before : List String → List String → Prop
  | file (file directory : String) {below : List String} :
      below ≠ [] → Before [file] (directory :: below)
  | name {name other : String} {below others : List String} :
      (below = [] ↔ others = []) → name < other → Before (name :: below) (other :: others)
  | within (directory : String) {names others : List String} :
      Before names others → Before (directory :: names) (directory :: others)

namespace Before

variable {names others more : List String}

theorem ne_nil (h : Before names others) : names ≠ [] ∧ others ≠ [] := by
  cases h <;> exact ⟨List.cons_ne_nil _ _, List.cons_ne_nil _ _⟩

theorem append (directory : List String) (h : Before names others) :
    Before (directory ++ names) (directory ++ others) := by
  induction directory with
  | nil => exact h
  | cons name directory ih => exact .within name ih

theorem irrefl (names : List String) : ¬Before names names := by
  induction names with
  | nil => rintro ⟨⟩
  | cons name below ih =>
    intro h
    cases h with
    | file _ _ hbelow => exact hbelow rfl
    | name _ hlt => exact String.lt_irrefl name hlt
    | within _ h => exact ih h

theorem trans (h : Before names others) (hmore : Before others more) : Before names more := by
  induction h generalizing more with
  | file file directory hbelow =>
    cases hmore with
    | file => exact absurd rfl hbelow
    | name hends _ => exact .file file _ fun hnil => hbelow (hends.mpr hnil)
    | within _ hmore => exact .file file _ hmore.ne_nil.2
  | name hends hlt =>
    cases hmore with
    | file _ _ hbelow =>
      obtain rfl := hends.mpr rfl
      exact .file _ _ hbelow
    | name hends' hlt' => exact .name (hends.trans hends') (String.lt_trans hlt hlt')
    | within _ hmore => exact .name (by simp [hends, hmore.ne_nil]) hlt
  | within directory h ih =>
    cases hmore with
    | file => exact absurd rfl h.ne_nil.2
    | name hends hlt => exact .name (by simp [← hends, h.ne_nil]) hlt
    | within _ hmore => exact .within directory (ih hmore)

/-- Of two paths that are not the same one comes before the other. -/
theorem trichotomy (hnames : names ≠ []) (hothers : others ≠ []) :
    names = others ∨ Before names others ∨ Before others names := by
  induction names generalizing others with
  | nil => exact absurd rfl hnames
  | cons name below ih =>
    obtain ⟨other, others, rfl⟩ := List.exists_cons_of_ne_nil hothers
    by_cases hends : below = [] ↔ others = []
    · rcases lt_trichotomy name other with hlt | rfl | hlt
      · exact .inr (.inl (.name hends hlt))
      · by_cases hbelow : below = []
        · exact .inl (by rw [hbelow, hends.mp hbelow])
        · rcases ih hbelow (mt hends.mpr hbelow) with rfl | h | h
          · exact .inl rfl
          · exact .inr (.inl (.within name h))
          · exact .inr (.inr (.within name h))
      · exact .inr (.inr (.name hends.symm hlt))
    · by_cases hbelow : below = []
      · subst hbelow
        exact .inr (.inl (.file name other (by simpa using hends)))
      · obtain rfl : others = [] := by simpa [hbelow] using hends
        exact .inr (.inr (.file other name hbelow))

end Before

-- ---------------------------------------------------------------------------
-- Names of a path
-- ---------------------------------------------------------------------------

/-- The names on a path that is given as a text, where `c` separates them. -/
def namesOf (c : Char) (path : String) : List String :=
  ((path.toList.splitOn c).map String.ofList).filter (· ≠ "")

/-- What a listing shows of a directory: each name once, and no name that is empty or has the
separator in it. -/
structure Named (c : Char) (entries : List Entry) : Prop where
  nodup : (entries.map Entry.name).Nodup
  ne_empty : ∀ entry ∈ entries, entry.name ≠ ""
  not_mem : ∀ entry ∈ entries, c ∉ entry.name.toList

@[simp] theorem namesOf_empty (c : Char) : namesOf c "" = [] := by
  simp [namesOf]

theorem namesOf_name {c : Char} {name : String} (hne : name ≠ "") (hc : c ∉ name.toList) :
    namesOf c name = [name] := by
  simp [namesOf, List.splitOn_eq_singleton hc, hne]

theorem Tree.Lists.named {tree : Tree} {path : Path} {listed : List Entry}
    (hwell : tree.WellNamed) (h : tree.Lists path listed) : Named '/' listed := by
  obtain ⟨shown, hshown, hperm⟩ := h
  obtain ⟨names, entries, -, hget, -, rfl⟩ := Tree.list_eq_ok_iff.mp hshown
  have hnode : (Node.directory entries).WellNamed := hwell.of_get? hget
  have hname : ∀ entry ∈ listed, IsEntryName entry.name := by
    intro entry hentry
    obtain ⟨⟨name, node⟩, hmem, rfl⟩ := List.mem_map.mp (hperm.mem_iff.mp hentry)
    exact hnode.isEntryName (Node.get?_nil _) _ hmem
  refine ⟨?_, fun entry hentry => (hname entry hentry).1,
    fun entry hentry => (hname entry hentry).2.2.2⟩
  rw [(hperm.map Entry.name).nodup_iff, List.map_map]
  exact hnode.nodup (Node.get?_nil _)

namespace Walk

variable {walk : Walk} {c : Char} {path : String} {entries listed : List Entry}

theorem namesOf_itemPath (hseparator : walk.separator = String.singleton c) {name : String}
    (hne : name ≠ "") (hc : c ∉ name.toList) :
    namesOf c (walk.itemPath path name) = namesOf c path ++ [name] := by
  unfold itemPath
  split
  · rename_i hempty
    rw [hempty, namesOf_empty, namesOf_name hne hc, List.nil_append]
  · rw [← namesOf_name hne hc, hseparator]
    simp [namesOf, List.splitOn_append_cons_self]

-- ---------------------------------------------------------------------------
-- A single listing
-- ---------------------------------------------------------------------------

theorem sorted_pairwise_le (entries : List Entry) :
    (sorted entries).Pairwise fun a b => a.name ≤ b.name := by
  have htrans : ∀ a b c : Entry, decide (a.name ≤ b.name) → decide (b.name ≤ c.name) →
      decide (a.name ≤ c.name) := by
    simp only [decide_eq_true_eq]
    exact fun a b c => le_trans
  have htotal : ∀ a b : Entry, decide (a.name ≤ b.name) || decide (b.name ≤ a.name) := by
    simp only [Bool.or_eq_true, decide_eq_true_eq]
    exact fun a b => le_total a.name b.name
  exact (List.pairwise_mergeSort htrans htotal entries).imp of_decide_eq_true

theorem sorted_pairwise_lt (h : (entries.map Entry.name).Nodup) :
    (sorted entries).Pairwise fun a b => a.name < b.name := by
  have hperm : (sorted entries).Perm entries := List.mergeSort_perm _ _
  have hne : (sorted entries).Pairwise fun a b => a.name ≠ b.name := by
    rw [← List.pairwise_map]
    exact (hperm.map Entry.name).nodup_iff.mpr h
  exact (sorted_pairwise_le entries).imp₂ (fun a b => lt_of_le_of_ne) hne

theorem expand_eq (walk : Walk) (path : String) (entries : List Entry) :
    walk.expand path entries =
      (((sorted entries).filter fun entry => entry.isDirectory == false).filter fun entry =>
          isPhpFile entry.name && !walk.isSkipped (walk.itemPath path entry.name)).map
        (fun entry => .file (walk.itemPath path entry.name)) ++
      (((sorted entries).filter fun entry => entry.isDirectory == true).filter fun entry =>
          !walk.isSkipped (walk.itemPath path entry.name)).map
        fun entry => .directory (walk.itemPath path entry.name) := by
  simp only [expand, kept, List.filter_map, List.map_map, List.filter_filter, Function.comp_def]
  congr 3
  · funext entry
    grind
  · funext entry
    grind

/-- In the order of their names there is one way to write down entries of one kind, even if a name
comes twice. -/
theorem filter_sorted_congr (h : entries.Perm listed) (directories : Bool) :
    (sorted entries).filter (fun entry => entry.isDirectory == directories) =
      (sorted listed).filter fun entry => entry.isDirectory == directories := by
  have hperm : (sorted entries).Perm (sorted listed) :=
    (List.mergeSort_perm _ _).trans (h.trans (List.mergeSort_perm _ _).symm)
  refine List.Perm.eq_of_pairwise ?_ ((sorted_pairwise_le entries).filter _)
    ((sorted_pairwise_le listed).filter _) (hperm.filter _)
  intro a b ha hb hab hba
  have hkind : a.isDirectory = b.isDirectory := by
    rw [beq_iff_eq.mp (List.mem_filter.mp ha).2, beq_iff_eq.mp (List.mem_filter.mp hb).2]
  have hname := le_antisymm hab hba
  cases a
  cases b
  simp_all

theorem expand_congr (walk : Walk) (path : String) (h : entries.Perm listed) :
    walk.expand path entries = walk.expand path listed := by
  rw [expand_eq, expand_eq, filter_sorted_congr h false, filter_sorted_congr h true]

theorem skippedIn_congr (walk : Walk) (path : String) (h : entries.Perm listed) :
    walk.skippedIn path entries = walk.skippedIn path listed :=
  h.countP_eq _

/-- Whether a task can come to a file with these names. -/
def Task.LeadsTo (c : Char) : Task → List String → Prop
  | .file path, names => names = namesOf c path
  | .directory path, names => ∃ below, below ≠ [] ∧ names = namesOf c path ++ below

/-- All that the one task can come to is before all that the other one can come to. -/
def Task.Before (c : Char) (task other : Task) : Prop :=
  ∀ names others, task.LeadsTo c names → other.LeadsTo c others → LintRun.Before names others

section
variable (hseparator : walk.separator = String.singleton c) (hnamed : Named c entries)

include hseparator hnamed

/-- What an entry leads to is below its directory, and goes on only if the entry is a directory
itself. -/
theorem leadsTo_entry {entry : Entry} (hentry : entry ∈ entries) {names : List String} :
    (Task.LeadsTo c (.file (walk.itemPath path entry.name)) names ↔
      names = namesOf c path ++ [entry.name]) ∧
    (Task.LeadsTo c (.directory (walk.itemPath path entry.name)) names ↔
      ∃ below, below ≠ [] ∧ names = namesOf c path ++ entry.name :: below) := by
  have hnames : namesOf c (walk.itemPath path entry.name) = namesOf c path ++ [entry.name] :=
    namesOf_itemPath hseparator (hnamed.ne_empty entry hentry) (hnamed.not_mem entry hentry)
  simp [Task.LeadsTo, hnames]

theorem leadsTo_of_mem_expand {task : Task} (htask : task ∈ walk.expand path entries)
    {names : List String} (h : task.LeadsTo c names) :
    Task.LeadsTo c (.directory path) names := by
  obtain ⟨entry, hentry, -, ⟨-, -, rfl⟩ | ⟨-, rfl⟩⟩ := mem_expand.mp htask
  · rw [(leadsTo_entry hseparator hnamed hentry).1] at h
    exact ⟨_, List.cons_ne_nil _ _, h⟩
  · obtain ⟨below, -, rfl⟩ := (leadsTo_entry hseparator hnamed hentry).2.mp h
    exact ⟨_, List.cons_ne_nil _ _, rfl⟩

theorem expand_pairwise (path : String) :
    (walk.expand path entries).Pairwise (Task.Before c) := by
  have hmem : ∀ {entry}, entry ∈ sorted entries → entry ∈ entries :=
    fun h => (List.mergeSort_perm _ _).mem_iff.mp h
  have hsorted : ∀ p q : Entry → Bool, (((sorted entries).filter p).filter q).Pairwise
      fun a b => a ∈ entries ∧ b ∈ entries ∧ a.name < b.name :=
    fun p q => (((sorted_pairwise_lt hnamed.nodup).imp_of_mem
      fun ha hb hlt => ⟨hmem ha, hmem hb, hlt⟩).filter p).filter q
  rw [expand_eq, List.pairwise_append, List.pairwise_map, List.pairwise_map]
  refine ⟨(hsorted _ _).imp ?_, (hsorted _ _).imp ?_, ?_⟩
  · rintro a b ⟨ha, hb, hlt⟩ names others hnames hothers
    obtain rfl := (leadsTo_entry hseparator hnamed ha).1.mp hnames
    obtain rfl := (leadsTo_entry hseparator hnamed hb).1.mp hothers
    exact .append _ (.name Iff.rfl hlt)
  · rintro a b ⟨ha, hb, hlt⟩ names others hnames hothers
    obtain ⟨below, hbelow, rfl⟩ := (leadsTo_entry hseparator hnamed ha).2.mp hnames
    obtain ⟨beneath, hbeneath, rfl⟩ := (leadsTo_entry hseparator hnamed hb).2.mp hothers
    exact .append _ (.name (by simp [hbelow, hbeneath]) hlt)
  · intro task htask other hother names others hnames hothers
    obtain ⟨a, ha, rfl⟩ := List.mem_map.mp htask
    obtain ⟨b, hb, rfl⟩ := List.mem_map.mp hother
    have ha := hmem (List.mem_filter.mp (List.mem_filter.mp ha).1).1
    have hb := hmem (List.mem_filter.mp (List.mem_filter.mp hb).1).1
    obtain rfl := (leadsTo_entry hseparator hnamed ha).1.mp hnames
    obtain ⟨below, hbelow, rfl⟩ := (leadsTo_entry hseparator hnamed hb).2.mp hothers
    exact .append _ (.file _ _ hbelow)

end

-- ---------------------------------------------------------------------------
-- Whole walks
-- ---------------------------------------------------------------------------

namespace Course

variable {tasks left : List Task} {log : Log} {files more : List String}

/-- What comes after the files that are included by name. -/
theorem drop (h : Course walk (more.map .file ++ tasks) log files left) :
    ∃ rest, Course walk tasks log (files.drop more.length) rest := by
  induction more generalizing files with
  | nil => exact ⟨left, h⟩
  | cons path more ih =>
    cases h with
    | stop => exact ⟨tasks, .stop tasks⟩
    | file h => exact ih h

section
variable (hseparator : walk.separator = String.singleton c)
  (h : Course walk tasks log files left) (hlog : ∀ x ∈ log, Named c x.2)

include hseparator h hlog

theorem exists_leadsTo {file : String} (hfile : file ∈ files) :
    ∃ task ∈ tasks, task.LeadsTo c (namesOf c file) := by
  induction h with
  | stop => cases hfile
  | @file path rest left log files _ ih =>
    rcases List.mem_cons.mp hfile with rfl | hfile
    · exact ⟨.file file, List.mem_cons_self, rfl⟩
    · obtain ⟨task, htask, hleads⟩ := ih hlog hfile
      exact ⟨task, List.mem_cons_of_mem _ htask, hleads⟩
  | @directory path entries rest left log files _ ih =>
    rw [List.forall_mem_cons] at hlog
    obtain ⟨task, htask, hleads⟩ := ih hlog.2 hfile
    rcases List.mem_append.mp htask with htask | htask
    · exact ⟨.directory path, List.mem_cons_self,
        leadsTo_of_mem_expand hseparator hlog.1 htask hleads⟩
    · exact ⟨task, List.mem_cons_of_mem _ htask, hleads⟩

/-- Tasks in the order of what they can come to give files in that order, as what a directory leaves
to do is in order and takes its place. -/
theorem pairwise_before (htasks : tasks.Pairwise (Task.Before c)) :
    (files.map (namesOf c)).Pairwise LintRun.Before := by
  induction h with
  | stop => exact List.Pairwise.nil
  | @file path rest left log files hrest ih =>
    obtain ⟨hpath, htasks⟩ := List.pairwise_cons.mp htasks
    rw [List.map_cons, List.pairwise_cons]
    refine ⟨?_, ih hlog htasks⟩
    intro others hothers
    obtain ⟨file, hfile, rfl⟩ := List.mem_map.mp hothers
    obtain ⟨task, htask, hleads⟩ := hrest.exists_leadsTo hseparator hlog hfile
    exact hpath task htask _ _ rfl hleads
  | @directory path entries rest left log files _ ih =>
    rw [List.forall_mem_cons] at hlog
    obtain ⟨hpath, htasks⟩ := List.pairwise_cons.mp htasks
    refine ih hlog.2 (List.pairwise_append.mpr
      ⟨expand_pairwise hseparator hlog.1 path, htasks, ?_⟩)
    intro task htask other hother names others hnames hothers
    exact hpath other hother _ _ (leadsTo_of_mem_expand hseparator hlog.1 htask hnames) hothers

end

end Course

end Walk

-- ---------------------------------------------------------------------------
-- Listings in another order
-- ---------------------------------------------------------------------------

/-- The host with the entries of its listings in another order, which may be one order now and
another one later. -/
def Host.rearranged {σ : Type} (host : Host σ) (arrange : σ → Path → List Entry → List Entry) :
    Host σ where
  __ := host
  list path s := ((host.list path s).1.map (arrange s path), (host.list path s).2)

section
variable {σ : Type} {host : Host σ} {arrange : σ → Path → List Entry → List Entry}
  (harrange : ∀ s path entries, (arrange s path entries).Perm entries)

include harrange

/-- What is done with a listing does not depend on its order. -/
theorem Host.runList_rearranged {α : Type} (path : Path)
    {f : Except OsError (List Entry) → Run σ α}
    (hf : ∀ {entries listed}, entries.Perm listed → f (.ok entries) = f (.ok listed)) :
    (host.rearranged arrange).runList path >>= f = host.runList path >>= f := by
  funext s
  have hanswer : f ((host.list path s).1.map (arrange s path)) = f (host.list path s).1 := by
    cases (host.list path s).1 with
    | error e => rfl
    | ok entries => exact hf (harrange s path entries)
  simp [runList, rearranged, Bind.bind, Run.andThen, Run.emit, Run.act, hanswer]

theorem Walk.next_rearranged (walk : Walk) (fuel : Nat) (tasks : List Task) (counters : Counters) :
    walk.next (host.rearranged arrange).runList fuel tasks counters =
      walk.next host.runList fuel tasks counters := by
  fun_induction Walk.next walk host.runList fuel tasks counters with
  | case1 | case2 | case3 => simp only [Walk.next]
  | case4 fuel path rest counters ih =>
    rw [Walk.next]
    simp only [ih]
    refine Host.runList_rearranged harrange _ fun hperm => ?_
    dsimp only
    rw [walk.expand_congr path hperm, walk.skippedIn_congr path hperm]

theorem Provider.advance_rearranged (provider : Provider) (walk : Walk) (fuel : Nat)
    (name : String) :
    provider.advance walk (host.rearranged arrange).runList fuel name =
      provider.advance walk host.runList fuel name := by
  unfold advance
  simp only [Walk.next_rearranged harrange]

theorem Provider.drain_rearranged (provider : Provider) (walk : Walk) (name : String)
    (fuel : Nat) :
    provider.drain walk (host.rearranged arrange).runList name fuel =
      provider.drain walk host.runList name fuel := by
  induction fuel generalizing provider with
  | zero => rfl
  | succ fuel ih => simp only [drain, advance_rearranged harrange, ih]

end

/-- The files that an iteration finds come in the order of their paths, which is a strict total
order, also if the iteration breaks off. An iteration over listings that give their entries in
another order does and gives the same. -/
theorem Provider.drain_start_ordered {σ : Type} (host : Host σ) (s : σ) {walk : Walk} {c : Char}
    (provider : Provider) (name : String) (fuel : Nat)
    (arrange : σ → Path → List Entry → List Entry)
    (hseparator : walk.separator = String.singleton c)
    (hnamed : ∀ path entries, (path, .ok entries) ∈ host.listed s
      ((provider.start name).drain walk host.runList name fuel s).events → Named c entries)
    (harrange : ∀ t path entries, (arrange t path entries).Perm entries) :
    ((∀ names, ¬Before names names) ∧
      (∀ names others more, Before names others → Before others more → Before names more) ∧
      ∀ names others, names ≠ [] → others ≠ [] →
        names = others ∨ Before names others ∨ Before others names) ∧
    (∃ files pull last,
      ((provider.start name).drain walk host.runList name fuel s).result =
        .ok (files, pull, last) ∧
      ((files.drop walk.included.length).map (namesOf c)).Pairwise Before) ∧
    (provider.start name).drain walk (host.rearranged arrange).runList name fuel =
      (provider.start name).drain walk host.runList name fuel := by
  refine ⟨⟨Before.irrefl, fun _ _ _ => Before.trans, fun _ _ => Before.trichotomy⟩, ?_,
    drain_rearranged harrange _ walk name fuel⟩
  obtain ⟨⟨files, pull, last⟩, hresult, log, hends, -⟩ :=
    (drain_triple host fuel (begun?_start walk provider name) s).exists_ok
  refine ⟨files, pull, last, hresult, ?_⟩
  obtain ⟨left, hcourse, hlisted⟩ := hends.exists_course
  obtain ⟨rest, hfound⟩ := hcourse.drop
  refine hfound.pairwise_before hseparator (fun x hx => ?_) (List.pairwise_singleton _ _)
  exact hnamed _ _ (hlisted.subset (List.mem_map.mpr ⟨x, hx, rfl⟩))

/-- A directory whose entries are in no order. -/
def unsortedTree : Tree where
  root := .directory [("b", .directory [("z.php", .link "/")]), ("c.php", .file [] false),
    ("B.php", .file [] false)]

def unsortedScript : Script := { tree := unsortedTree }

def unsortedWalk : Walk := ⟨⟨.root, []⟩, ["a.php"], [], "/"⟩

theorem unsortedTree_wellNamed : unsortedTree.WellNamed := by
  refine Node.wellNamed_directory (by decide) (by decide) ?_
  rintro _ (⟨⟩ | ⟨_, ⟨⟩ | ⟨_, ⟨⟩ | ⟨_, ⟨⟩⟩⟩⟩)
  · refine Node.wellNamed_directory (by decide) (by decide) ?_
    rintro _ (⟨⟩ | ⟨_, ⟨⟩⟩)
    exact Node.wellNamed_link "/"
  · exact Node.wellNamed_file [] false
  · exact Node.wellNamed_file [] false

theorem Provider.drain_start_ordered_sample :
    (∃ files pull last,
      ((Provider.start {} "files").drain unsortedWalk sampleHost.runList "files" 9
        unsortedScript).result = .ok (files, pull, last) ∧
      ((files.drop 1).map (namesOf '/')).Pairwise Before) ∧
    (Provider.start {} "files").drain unsortedWalk
        (sampleHost.rearranged fun _ _ => List.reverse).runList "files" 9 =
      (Provider.start {} "files").drain unsortedWalk sampleHost.runList "files" 9 :=
  (drain_start_ordered sampleHost unsortedScript {} "files" 9 (fun _ _ => List.reverse) rfl
    (fun _ _ hlisted => (Check.lists_of_steady (Setting.steady _ rfl _) hlisted).named
      unsortedTree_wellNamed)
    fun _ _ entries => entries.reverse_perm).2

example : (((Provider.start {} "files").drain unsortedWalk sampleHost.runList "files" 9
    unsortedScript).result.toOption.map Prod.fst) =
      some ["a.php", "B.php", "c.php", "b/z.php"] := by cbv

end LintRun
