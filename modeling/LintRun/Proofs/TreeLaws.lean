import LintRun.Tree

/-!
# Paths below a directory

In a tree whose names are those that a file system can hold, the path of a directory, followed by
names that lead through directories only, is that of the node at these names: `list_below`. What
comes before, links included, matters no more once the directory is found.
-/

namespace LintRun

-- ---------------------------------------------------------------------------
-- Names
-- ---------------------------------------------------------------------------

/-- A name that an entry of a directory can have. -/
def IsEntryName (name : String) : Prop :=
  name ≠ "" ∧ name ≠ "." ∧ name ≠ ".." ∧ '/' ∉ name.toList

instance (name : String) : Decidable (IsEntryName name) :=
  inferInstanceAs (Decidable (_ ∧ _))

namespace Path

def joined (names : List String) : String :=
  "/".intercalate names

theorem toList_joined (names : List String) :
    (joined names).toList = ['/'].intercalate (names.map String.toList) :=
  String.toList_intercalate

theorem joined_append {above below : List String} (habove : above ≠ []) (hbelow : below ≠ []) :
    joined (above ++ below) = joined above ++ "/" ++ joined below :=
  String.intercalate_append_of_ne_nil habove hbelow

theorem splitOn_joined {names : List String} (hne : names ≠ [])
    (h : ∀ name ∈ names, '/' ∉ name.toList) :
    (joined names).toList.splitOn '/' = names.map String.toList := by
  rw [toList_joined]
  refine List.splitOn_intercalate '/' ?_ (by simpa using hne)
  intro cs hcs
  obtain ⟨name, hname, rfl⟩ := List.mem_map.mp hcs
  exact h name hname

theorem splitNames_joined {names : List String} (h : ∀ name ∈ names, IsEntryName name) :
    splitNames (joined names) = names := by
  by_cases hne : names = []
  · subst hne; rfl
  · have hid : String.ofList ∘ String.toList = id := by
      funext name
      simp
    have hslash : ∀ name ∈ names, '/' ∉ name.toList := fun name hname => (h name hname).2.2.2
    rw [splitNames, splitOn_joined hne hslash, List.map_map, hid, List.map_id, List.filter_eq_self]
    intro name hname
    simp [(h name hname).1, (h name hname).2.1]

theorem exists_head?_joined {first : String} (hne : first ≠ "") (hslash : '/' ∉ first.toList)
    (rest : List String) :
    ∃ c, (joined (first :: rest)).toList.head? = some c ∧ c ≠ '/' := by
  cases hcs : first.toList with
  | nil => exact absurd (String.toList_eq_nil_iff.mp hcs) hne
  | cons c cs =>
    have hc : c ≠ '/' := by
      rintro rfl
      exact hslash (by simp [hcs])
    rw [toList_joined]
    cases rest with
    | nil => exact ⟨c, by simp [hcs], hc⟩
    | cons second rest => exact ⟨c, by simp [hcs, List.intercalate_cons_cons], hc⟩

theorem exists_getLast?_joined {last : String} (hne : last ≠ "") (hslash : '/' ∉ last.toList)
    (before : List String) :
    ∃ c, (joined (before ++ [last])).toList.getLast? = some c ∧ c ≠ '/' := by
  have hlist : last.toList ≠ [] := fun h => hne (String.toList_eq_nil_iff.mp h)
  have hc : last.toList.getLast hlist ≠ '/' := by
    intro heq
    exact hslash (heq ▸ List.getLast_mem hlist)
  refine ⟨_, ?_, hc⟩
  by_cases hbefore : before = []
  · simp [hbefore, joined, List.getLast?_eq_some_getLast hlist]
  · rw [joined_append hbefore (by simp)]
    simp [joined, List.getLast?_append, List.getLast?_cons, List.getLast?_eq_some_getLast hlist]

theorem anchorOf_joined {names : List String} (h : ∀ name ∈ names, IsEntryName name) :
    anchorOf (joined names).toList = .relative := by
  cases names with
  | nil => rfl
  | cons first rest =>
    have hfirst := h first (by simp)
    obtain ⟨c, hhead, hc⟩ := exists_head?_joined hfirst.1 hfirst.2.2.2 rest
    obtain ⟨cs, hcs⟩ := List.head?_eq_some_iff.mp hhead
    rw [hcs]
    unfold anchorOf
    split <;> simp_all

theorem join_ofString_joined (p : Path) {names : List String}
    (h : ∀ name ∈ names, IsEntryName name) :
    p.join (ofString (joined names)) = ⟨p.anchor, p.names ++ names⟩ := by
  rw [join, ofString, anchorOf_joined h, splitNames_joined h]
  rfl

end Path

-- ---------------------------------------------------------------------------
-- Nodes
-- ---------------------------------------------------------------------------

namespace Node

@[simp] theorem get?_nil (node : Node) : node.get? [] = some node := by
  cases node <;> rfl

theorem get?_append (node : Node) (names rest : List String) :
    node.get? (names ++ rest) = (node.get? names).bind (·.get? rest) := by
  induction names generalizing node with
  | nil => simp
  | cons name names ih =>
    cases node with
    | directory entries =>
      simp only [List.cons_append, get?, Option.bind_assoc]
      exact congrArg _ (funext fun child => ih child)
    | file => rfl
    | link => rfl

theorem get?_cons_eq_some {node child : Node} {name : String} {rest : List String} :
    node.get? (name :: rest) = some child ↔
      ∃ entries next, node = .directory entries ∧ entries.lookup name = some next ∧
        next.get? rest = some child := by
  cases node with
  | directory entries => simp [get?, Option.bind_eq_some_iff]
  | file => simp [get?]
  | link => simp [get?]

theorem exists_directory {node child : Node} {names rest : List String} (hrest : rest ≠ [])
    (h : node.get? (names ++ rest) = some child) :
    ∃ entries, node.get? names = some (.directory entries) := by
  rw [get?_append, Option.bind_eq_some_iff] at h
  obtain ⟨parent, hparent, hchild⟩ := h
  obtain ⟨name, rest, rfl⟩ := List.exists_cons_of_ne_nil hrest
  obtain ⟨entries, -, rfl, -⟩ := get?_cons_eq_some.mp hchild
  exact ⟨entries, hparent⟩

/-- In each directory the names are such as a file system can hold, each of them once. -/
structure WellNamed (node : Node) : Prop where
  isEntryName : ∀ {names entries}, node.get? names = some (.directory entries) →
    ∀ entry ∈ entries, IsEntryName entry.1
  nodup : ∀ {names entries}, node.get? names = some (.directory entries) →
    (entries.map Prod.fst).Nodup

theorem WellNamed.of_get? {node child : Node} {names : List String} (h : node.WellNamed)
    (hget : node.get? names = some child) : child.WellNamed := by
  have hchild : ∀ rest, child.get? rest = node.get? (names ++ rest) := by
    intro rest
    simp [get?_append, hget]
  exact ⟨fun hrest => h.isEntryName ((hchild _).symm.trans hrest),
    fun hrest => h.nodup ((hchild _).symm.trans hrest)⟩

theorem wellNamed_file (content : Text.Bytes) (executable : Bool) :
    (file content executable).WellNamed := by
  constructor <;> intro names entries h <;> cases names <;> simp [get?] at h

theorem wellNamed_link (target : String) : (link target).WellNamed := by
  constructor <;> intro names entries h <;> cases names <;> simp [get?] at h

theorem mem_of_lookup {entries : List (String × Node)} {name : String} {node : Node}
    (h : entries.lookup name = some node) : (name, node) ∈ entries := by
  obtain ⟨before, after, rfl, -⟩ := List.lookup_eq_some_iff.mp h
  simp

theorem wellNamed_directory {entries : List (String × Node)}
    (hnames : ∀ entry ∈ entries, IsEntryName entry.1) (hnodup : (entries.map Prod.fst).Nodup)
    (hchildren : ∀ entry ∈ entries, entry.2.WellNamed) : (directory entries).WellNamed := by
  have hcases : ∀ {names found}, (directory entries).get? names = some (directory found) →
      found = entries ∨
        ∃ (child : Node) (rest : List String), child.WellNamed ∧
          child.get? rest = some (directory found) := by
    intro names found h
    cases names with
    | nil => exact .inl (by simpa using h.symm)
    | cons name rest =>
      obtain ⟨_, child, ⟨⟩, hlookup, hrest⟩ := get?_cons_eq_some.mp h
      exact .inr ⟨child, rest, hchildren _ (mem_of_lookup hlookup), hrest⟩
  constructor
  · intro names found h
    rcases hcases h with rfl | ⟨child, rest, hchild, hrest⟩
    · exact hnames
    · exact hchild.isEntryName hrest
  · intro names found h
    rcases hcases h with rfl | ⟨child, rest, hchild, hrest⟩
    · exact hnodup
    · exact hchild.nodup hrest

theorem lookup_of_mem {entries : List (String × Node)} {name : String} {node : Node}
    (h : (entries.map Prod.fst).Nodup) (hmem : (name, node) ∈ entries) :
    entries.lookup name = some node := by
  induction entries with
  | nil => cases hmem
  | cons entry rest ih =>
    obtain ⟨key, other⟩ := entry
    simp only [List.map_cons, List.nodup_cons] at h
    rcases List.mem_cons.mp hmem with heq | hrest
    · obtain ⟨rfl, rfl⟩ := Prod.mk.inj heq
      simp
    · have hne : name ≠ key := by
        rintro rfl
        exact h.1 (List.mem_map.mpr ⟨(name, node), hrest, rfl⟩)
      simpa only [List.lookup_cons, beq_eq_false_iff_ne.mpr hne] using ih h.2 hrest

theorem WellNamed.forall_isEntryName {node child : Node} {names : List String} (h : node.WellNamed)
    (hget : node.get? names = some child) : ∀ name ∈ names, IsEntryName name := by
  induction names generalizing node with
  | nil => simp
  | cons name names ih =>
    obtain ⟨entries, next, rfl, hlookup, hnext⟩ := get?_cons_eq_some.mp hget
    intro other hother
    rcases List.mem_cons.mp hother with rfl | hother
    · exact h.isEntryName (get?_nil _) _ (mem_of_lookup hlookup)
    · have hchild : (Node.directory entries).get? [name] = some next :=
        get?_cons_eq_some.mpr ⟨entries, next, rfl, hlookup, get?_nil next⟩
      exact ih (h.of_get? hchild) hnext other hother

theorem WellNamed.get?_append_singleton {node child : Node} {names : List String} {name : String}
    {entries : List (String × Node)} (h : node.WellNamed)
    (hget : node.get? names = some (.directory entries)) :
    node.get? (names ++ [name]) = some child ↔ (name, child) ∈ entries := by
  simp only [get?_append, hget, Option.bind_some, get?_cons_eq_some]
  constructor
  · rintro ⟨_, next, ⟨⟩, hlookup, hnext⟩
    obtain rfl : next = child := by simpa using hnext
    exact mem_of_lookup hlookup
  · intro hmem
    exact ⟨entries, child, rfl, lookup_of_mem (h.nodup hget) hmem, by simp⟩

end Node

-- ---------------------------------------------------------------------------
-- Following a path
-- ---------------------------------------------------------------------------

namespace Tree

/-- What one name leads to on the way to a node: the links that are left, the directory, and the
names to follow before those that come. -/
def advance (tree : Tree) (links : Nat) (here : List String) (name : String) :
    Except Errno (Nat × List String × List String) :=
  match tree.root.get? here.reverse with
  | some (.directory entries) =>
    if tree.unsearchable.contains here.reverse then .error .denied
    else if name = "." then .ok (links, here, [])
    else if name = ".." then .ok (links, here.tail, [])
    else if 255 < Text.Utf8.size name then .error .nameTooLong
    else
      match entries.lookup name with
      | none => .error .noEntry
      | some (.link target) =>
        match links with
        | 0 => .error .tooManyLinks
        | links + 1 =>
          let path := Path.followed target
          .ok (links, if path.isAbsolute then [] else here, path.names)
      | some _ => .ok (links, name :: here, [])
  | _ => .error .notDirectory

theorem follow_cons (tree : Tree) (links : Nat) (here : List String) (name : String)
    (rest : List String) :
    follow tree .node links here (name :: rest) =
      (advance tree links here name).bind fun (links, here, names) =>
        follow tree .node links here (names ++ rest) := by
  have hplace : (Goal.node == Goal.place) = false := rfl
  have hentry : (Goal.node == Goal.entry) = false := rfl
  rw [follow, advance]
  simp only [hplace, hentry, Bool.and_false, Bool.false_eq_true, if_false]
  cases hnode : tree.root.get? here.reverse with
  | none => rfl
  | some node =>
    cases node with
    | file | link => rfl
    | directory entries =>
      dsimp only
      by_cases hclosed : tree.unsearchable.contains here.reverse = true
      · rw [if_pos hclosed, if_pos hclosed]
        rfl
      by_cases hdot : name = "."
      · rw [if_neg hclosed, if_neg hclosed, if_pos hdot, if_pos hdot]
        rfl
      by_cases hdots : name = ".."
      · rw [if_neg hclosed, if_neg hclosed, if_neg hdot, if_neg hdot, if_pos hdots, if_pos hdots]
        rfl
      by_cases hlong : 255 < Text.Utf8.size name
      · rw [if_neg hclosed, if_neg hclosed, if_neg hdot, if_neg hdot, if_neg hdots, if_neg hdots,
          if_pos hlong, if_pos hlong]
        rfl
      simp only [if_neg hclosed, if_neg hdot, if_neg hdots, if_neg hlong]
      cases entries.lookup name with
      | none => rfl
      | some child =>
        cases child with
        | file | directory => rfl
        | link target => cases links <;> rfl

/-- A link is followed at the cost of one; any other name leaves nothing more to follow. -/
theorem advance_cases {tree : Tree} {links left : Nat} {here there more : List String}
    {name : String} (h : advance tree links here name = .ok (left, there, more)) :
    (left = links ∧ more = []) ∨ links = left + 1 := by
  unfold advance at h
  split at h <;> try cases h
  split at h
  · cases h
  split at h
  · cases h; exact .inl ⟨rfl, rfl⟩
  split at h
  · cases h; exact .inl ⟨rfl, rfl⟩
  split at h
  · cases h
  split at h
  · cases h
  · split at h <;> cases h
    exact .inr rfl
  · cases h; exact .inl ⟨rfl, rfl⟩

/-- What holds where nothing is left to follow, and before a name if it holds after it, holds before
any names: a link may add some, but it costs one. -/
theorem follow_induction (tree : Tree) {motive : Nat → List String → List String → Prop}
    (nil : ∀ links here, motive links here [])
    (cons : ∀ links here name rest, (∀ left there more,
      advance tree links here name = .ok (left, there, more) → motive left there (more ++ rest)) →
      motive links here (name :: rest))
    (links : Nat) (here names : List String) : motive links here names := by
  -- By the links first, and then by the names.
  induction links using Nat.strongRecOn generalizing here names with
  | ind links ihLinks =>
    induction names generalizing here with
    | nil => exact nil links here
    | cons name names ih =>
      refine cons links here name names fun left there more hadvance => ?_
      rcases advance_cases hadvance with ⟨rfl, rfl⟩ | rfl
      · exact ih there
      · exact ihLinks left (Nat.lt_succ_self left) there (more ++ names)

/-- Where names have led, further names are followed from there, with the links that are left. -/
theorem follow_append {tree : Tree} {links : Nat} {here there names : List String}
    (h : follow tree .node links here names = .ok there) :
    ∃ left, ∀ rest,
      follow tree .node links here (names ++ rest) = follow tree .node left there rest := by
  induction links, here, names using follow_induction tree with
  | nil links here =>
    rw [follow] at h
    obtain rfl := Except.ok.inj h
    exact ⟨links, fun rest => rfl⟩
  | cons links here name names ih =>
    simp only [List.cons_append, follow_cons] at h ⊢
    cases hadvance : advance tree links here name with
    | error e => simp [hadvance, Except.bind] at h
    | ok step =>
      obtain ⟨left, next, more⟩ := step
      simp only [hadvance, Except.bind, ← List.append_assoc] at h ⊢
      exact ih left next more hadvance h

/-- The system does not tell what is there. -/
def IsRefusal (e : Errno) : Prop :=
  e = .nameTooLong ∨ e = .denied

instance (e : Errno) : Decidable (IsRefusal e) :=
  inferInstanceAs (Decidable (_ ∨ _))

/-- Why a name leads nowhere: nothing is there, or it is too long or out of reach. -/
theorem advance_errno {tree : Tree} {links : Nat} {here : List String} {name : String} {e : Errno}
    (h : advance tree links here name = .error e) :
    (e = .noEntry ∨ e = .notDirectory ∨ e = .tooManyLinks) ∨ IsRefusal e := by
  unfold advance at h
  split at h
  · split at h
    · cases h; exact .inr (.inr rfl)
    split at h
    · cases h
    split at h
    · cases h
    split at h
    · cases h; exact .inr (.inl rfl)
    split at h
    · cases h; exact .inl (.inl rfl)
    · split at h <;> cases h
      exact .inl (.inr (.inr rfl))
    · cases h
  · cases h; exact .inl (.inr (.inl rfl))

theorem follow_errno {tree : Tree} {links : Nat} {here names : List String} {e : Errno}
    (h : follow tree .node links here names = .error e) :
    (e = .noEntry ∨ e = .notDirectory ∨ e = .tooManyLinks) ∨ IsRefusal e := by
  induction links, here, names using follow_induction tree with
  | nil links here =>
    rw [follow] at h
    cases h
  | cons links here name names ih =>
    rw [follow_cons] at h
    cases hadvance : advance tree links here name with
    | error other =>
      obtain rfl : other = e := by simpa [hadvance, Except.bind] using h
      exact advance_errno hadvance
    | ok step =>
      obtain ⟨left, next, more⟩ := step
      exact ih left next more hadvance (by simpa [hadvance, Except.bind] using h)

theorem advance_of_directory {tree : Tree} {entries : List (String × Node)} (links : Nat)
    {here : List String} {name : String} (hname : IsEntryName name)
    (hget : tree.root.get? (here.reverse ++ [name]) = some (.directory entries)) :
    advance tree links here name = .ok (links, name :: here, []) ∨
      ∃ e, advance tree links here name = .error e := by
  rw [Node.get?_append, Option.bind_eq_some_iff] at hget
  obtain ⟨parent, hparent, hchild⟩ := hget
  obtain ⟨siblings, next, rfl, hlookup, hnext⟩ := Node.get?_cons_eq_some.mp hchild
  obtain rfl : next = .directory entries := by simpa using hnext
  simp only [advance, hparent, hname.2.1, hname.2.2.1, if_false, hlookup]
  split
  · exact .inr ⟨_, rfl⟩
  split
  · exact .inr ⟨_, rfl⟩
  · exact .inl rfl

/-- Names that lead through directories are followed to where they lead, unless one is too long or
out of reach. -/
theorem follow_directories {tree : Tree} {entries : List (String × Node)} (links : Nat)
    {here names : List String} (hnames : ∀ name ∈ names, IsEntryName name)
    (hget : tree.root.get? (here.reverse ++ names) = some (.directory entries)) :
    follow tree .node links here names = .ok (names.reverse ++ here) ∨
      ∃ e, follow tree .node links here names = .error e := by
  induction names generalizing here entries with
  | nil => exact .inl (by simp [follow])
  | cons name names ih =>
    have hsplit : here.reverse ++ name :: names = (here.reverse ++ [name]) ++ names := by simp
    -- Only the last name could lead to something else, and it does not.
    have hfirst : ∃ siblings,
        tree.root.get? (here.reverse ++ [name]) = some (.directory siblings) := by
      rw [hsplit] at hget
      cases names with
      | nil => exact ⟨entries, by simpa using hget⟩
      | cons second names => exact Node.exists_directory (by simp) hget
    obtain ⟨siblings, hfirst⟩ := hfirst
    rw [follow_cons]
    rcases advance_of_directory links (hnames name (by simp)) hfirst with hstep | ⟨e, hstep⟩
    · rw [hstep]
      have hbelow : tree.root.get? ((name :: here).reverse ++ names) =
          some (.directory entries) := by
        simpa using hget
      have hrest := ih (fun other h => hnames other (by simp [h])) hbelow
      simpa [Except.bind] using hrest
    · exact .inr ⟨e, by rw [hstep]; rfl⟩

theorem join_names_append (home directory : Path) (names : List String) :
    (home.join ⟨directory.anchor, directory.names ++ names⟩).names =
      (home.join directory).names ++ names := by
  unfold Path.join Path.isAbsolute
  split <;> simp

/-- Where a path has led, further names are followed from there. -/
theorem locate_cases {tree : Tree} {path : Path} {names : List String}
    (h : tree.locate path .node = .ok names) :
    ∃ left, ∀ rest, follow tree .node linkLimit [] ((tree.home.join path).names ++ rest) =
      follow tree .node left names.reverse rest := by
  unfold locate at h
  split at h
  · cases h
  · cases hfollow : follow tree .node linkLimit [] (tree.home.join path).names with
    | error e => simp [hfollow, Except.map] at h
    | ok there =>
      simp only [hfollow, Except.map] at h
      rw [← Except.ok.inj h, List.reverse_reverse]
      exact follow_append hfollow

theorem find_eq_ok_iff {tree : Tree} {path : Path} {node : Node} : tree.find path = .ok node ↔
    ∃ names, tree.locate path .node = .ok names ∧ tree.root.get? names = some node := by
  unfold find
  cases tree.locate path .node with
  | error e => simp [Except.bind]
  | ok names => cases hget : tree.root.get? names <;> simp [Except.bind, hget]

theorem list_eq_ok_iff {tree : Tree} {path : Path} {listed : List Entry} :
    tree.list path = .ok listed ↔ ∃ names entries, tree.locate path .node = .ok names ∧
      tree.root.get? names = some (.directory entries) ∧ names ∉ tree.unreadable ∧
      listed = entries.map fun (name, node) => ⟨name, node.isDirectory⟩ := by
  unfold list
  cases tree.locate path .node with
  | error e => simp [Except.bind]
  | ok names =>
    cases hget : tree.root.get? names with
    | none => simp [Except.bind, hget]
    | some node =>
      cases node with
      | file | link => simp [Except.bind, hget]
      | directory entries =>
        by_cases hmem : names ∈ tree.unreadable
        · simp [Except.bind, hget, hmem]
        · simp [Except.bind, hget, hmem, eq_comm]

/-- What is listed at a path below a directory is what the node there has, in its order. -/
theorem list_below {tree : Tree} {directory : Path} {root : Node} {names : List String}
    {entries : List (String × Node)} {listed : List Entry}
    (hfind : tree.find directory = .ok root) (hwell : root.WellNamed)
    (hget : root.get? names = some (.directory entries))
    (hlist : tree.list ⟨directory.anchor, directory.names ++ names⟩ = .ok listed) :
    listed = entries.map fun (name, node) => ⟨name, node.isDirectory⟩ := by
  obtain ⟨above, habove, hroot⟩ := find_eq_ok_iff.mp hfind
  obtain ⟨there, found, hthere, hfound, -, rfl⟩ := list_eq_ok_iff.mp hlist
  obtain ⟨left, hfollow⟩ := locate_cases habove
  have hbelow : tree.root.get? (above ++ names) = some (.directory entries) := by
    rw [Node.get?_append, hroot]
    exact hget
  unfold locate at hthere
  split at hthere
  · cases hthere
  · rw [join_names_append, hfollow] at hthere
    rcases follow_directories left (hwell.forall_isEntryName hget)
      (by rw [List.reverse_reverse]; exact hbelow) with hok | ⟨e, herror⟩
    · rw [hok] at hthere
      obtain rfl : above ++ names = there := by simpa [Except.map] using hthere
      rw [hbelow] at hfound
      cases hfound
      rfl
    · rw [herror] at hthere
      cases hthere

end Tree

end LintRun
