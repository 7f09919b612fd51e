import LintRun.Options
import LintRun.Proofs.ShownValues

/-!
# Lists of files

The entries of a list of files are its lines, in whatever form the list comes: as lists within
lists, as one text, or as the entries themselves. They become paths within the directory one by
one, unless some entry is a path from the root; then the first of these is refused
(`entries_become_paths`).
-/

namespace LintRun

namespace Value

variable {separator : Char} {option entry path : String} {listed paths texts : List String}

-- ---------------------------------------------------------------------------
-- Entries
-- ---------------------------------------------------------------------------

theorem linesOfText_eq (s : String) :
    linesOfText s = (Text.contents s.toList).map String.ofList := by
  have hlines : linesOfText s = ((Text.lines s.toList).map
      (String.ofList ∘ Text.trimWhile Text.isBlank)).filter (· != "") := rfl
  rw [hlines, Text.contents, ← List.map_map, List.filter_map]
  congr 1
  refine List.filter_congr ?_
  intro line _
  rw [Bool.eq_iff_iff]
  simp [String.ofList_eq_empty_iff]

theorem entriesOfItems_eq (items : List Value) :
    entriesOfItems items = (items.mapM entries).map List.flatten := by
  induction items with
  | nil => rfl
  | cons item rest ih =>
    rw [entriesOfItems, ih, List.mapM_cons]
    cases entries item with
    | error e => rfl
    | ok first =>
      cases rest.mapM entries with
      | error e => rfl
      | ok later => rfl

theorem entries_list (items : List Value) :
    entries (.list items) = (items.mapM entries).map List.flatten := by
  rw [entries, entriesOfItems_eq]

theorem entriesOfItems_cons_eq_ok_iff {item : Value} {rest : List Value} :
    entriesOfItems (item :: rest) = .ok listed ↔ ∃ first later, entries item = .ok first ∧
      entriesOfItems rest = .ok later ∧ listed = first ++ later := by
  rw [entriesOfItems]
  cases entries item with
  | error e => simp [Except.bind]
  | ok first =>
    cases entriesOfItems rest with
    | error e => simp [Except.bind, Except.map]
    | ok later => simp [Except.bind, Except.map, eq_comm]

/-- The entry of a value that is neither a text nor a list. -/
theorem single_eq_error_iff {value : Value} {e : OptionError} :
    (value.written.map fun shown => [Text.trim shown]) = .error e ↔
      HasOverlong value ∧ e = .overlong := by
  rw [← written_eq_error_iff]
  cases value.written with
  | ok shown => simp [Except.map]
  | error d => simp [Except.map]

theorem single_eq_ok_iff {value : Value} :
    (value.written.map fun shown => [Text.trim shown]) = .ok listed ↔
      ¬HasOverlong value ∧ listed = [Text.trim value.shown] := by
  by_cases h : HasOverlong value
  · simp [written_of_hasOverlong h, h, Except.map]
  · simp [written_of_not_hasOverlong h, h, Except.map, eq_comm]

/-- What a list lists, its items do. -/
theorem exists_entries_of_mem {item : Value} {items : List Value}
    (h : entries (.list items) = .ok listed) (hitem : item ∈ items) :
    ∃ inner, entries item = .ok inner ∧ inner ⊆ listed := by
  rw [entries] at h
  induction items generalizing listed with
  | nil => cases hitem
  | cons first rest ih =>
    obtain ⟨head, tail, hhead, htail, rfl⟩ := entriesOfItems_cons_eq_ok_iff.mp h
    rcases List.mem_cons.mp hitem with rfl | hlater
    · exact ⟨head, hhead, List.subset_append_left _ _⟩
    · obtain ⟨inner, hinner, hsubset⟩ := ih htail hlater
      exact ⟨inner, hinner, List.Subset.trans hsubset (List.subset_append_right _ _)⟩

mutual
/-- A value lists no entries if there is an overlong integer in it, and for no other reason. -/
theorem entries_eq_error_iff (value : Value) (e : OptionError) :
    entries value = .error e ↔ HasOverlong value ∧ e = .overlong := by
  cases value with
  | list items =>
    rw [entries, entriesOfItems_eq_error_iff, hasOverlong_list]
  | null | text =>
    constructor
    · intro h
      cases h
    · rintro ⟨h, -⟩
      cases h
  | _ => rw [entries, single_eq_error_iff] <;> simp

theorem entriesOfItems_eq_error_iff (items : List Value) (e : OptionError) :
    entriesOfItems items = .error e ↔ (∃ item ∈ items, HasOverlong item) ∧ e = .overlong := by
  cases items with
  | nil => simp [entriesOfItems]
  | cons item rest =>
    rw [entriesOfItems, List.exists_mem_cons_iff]
    cases hitem : entries item with
    | error d =>
      obtain ⟨hlong, rfl⟩ := (entries_eq_error_iff item d).mp hitem
      simp [Except.bind, hlong, eq_comm]
    | ok first =>
      have hshort : ¬HasOverlong item := by
        intro hlong
        rw [(entries_eq_error_iff item .overlong).mpr ⟨hlong, rfl⟩] at hitem
        cases hitem
      have hlater := entriesOfItems_eq_error_iff rest e
      simp only [hshort, false_or]
      rw [← hlater]
      cases entriesOfItems rest with
      | error d => simp [Except.bind, Except.map]
      | ok later => simp [Except.bind, Except.map]
end

mutual
theorem solid_of_mem_entries (value : Value) {listed : List String} (h : entries value = .ok listed)
    (entry : String) (hentry : entry ∈ listed) : Text.Solid entry.toList := by
  cases value with
  | null =>
    obtain rfl := Except.ok.inj h
    cases hentry
  | text s =>
    obtain rfl := Except.ok.inj h
    rw [linesOfText_eq] at hentry
    obtain ⟨line, hline, rfl⟩ := List.mem_map.mp hentry
    rw [String.toList_ofList]
    exact Text.solid_of_mem_contents hline
  | list items => exact solid_of_mem_entriesOfItems items h entry hentry
  | _ =>
    rw [entries, single_eq_ok_iff] at h
    · obtain ⟨-, rfl⟩ := h
      rw [List.mem_singleton.mp hentry]
      exact solid_trim_shown nofun
    all_goals simp

theorem solid_of_mem_entriesOfItems (items : List Value) {listed : List String}
    (h : entriesOfItems items = .ok listed) (entry : String) (hentry : entry ∈ listed) :
    Text.Solid entry.toList := by
  cases items with
  | nil =>
    obtain rfl := Except.ok.inj h
    cases hentry
  | cons item rest =>
    obtain ⟨first, later, hfirst, hlater, rfl⟩ := entriesOfItems_cons_eq_ok_iff.mp h
    rcases List.mem_append.mp hentry with hmem | hmem
    · exact solid_of_mem_entries item hfirst entry hmem
    · exact solid_of_mem_entriesOfItems rest hlater entry hmem
end

theorem linesOfText_of_solid (h : Text.Solid entry.toList) : linesOfText entry = [entry] := by
  rw [linesOfText_eq, h.contents_eq, List.map_singleton, String.ofList_toList]

theorem linesOfText_trim (s : String) : linesOfText (Text.trim s) = linesOfText s := by
  rw [linesOfText_eq, linesOfText_eq, Text.trim, String.toList_ofList, Text.contents_trimWhile]

theorem entries_map_text (texts : List String) :
    entries (.list (texts.map .text)) = .ok (texts.flatMap linesOfText) := by
  induction texts with
  | nil => rfl
  | cons text rest ih =>
    rw [entries] at ih ⊢
    rw [List.map_cons, List.flatMap_cons, entriesOfItems, ih]
    rfl

theorem entries_texts (h : ∀ entry ∈ listed, Text.Solid entry.toList) :
    entries (.list (listed.map .text)) = .ok listed := by
  rw [entries_map_text]
  induction listed with
  | nil => rfl
  | cons entry rest ih =>
    obtain ⟨hentry, hrest⟩ := List.forall_mem_cons.mp h
    rw [List.flatMap_cons, linesOfText_of_solid hentry, Except.ok.inj (ih hrest),
      List.singleton_append]

def lineBreaks : List String := ["\n", "\r\n", "\r"]

/-- The texts in one, with a line break of any kind between each two. -/
inductive Joined : List String → String → Prop
  | none : Joined [] ""
  | one (text : String) : Joined [text] text
  | more {first second joined lineBreak : String} {rest : List String}
      (hbreak : lineBreak ∈ lineBreaks) (hrest : Joined (second :: rest) joined) :
      Joined (first :: second :: rest) (first ++ lineBreak ++ joined)

theorem linesOfText_append_break {lineBreak : String} (hbreak : lineBreak ∈ lineBreaks)
    (first joined : String) : linesOfText (first ++ lineBreak ++ joined) =
      linesOfText first ++ linesOfText joined := by
  simp only [linesOfText_eq, String.toList_append, List.append_assoc, ← List.map_append]
  congr 1
  obtain rfl | rfl | rfl : lineBreak = "\n" ∨ lineBreak = "\r\n" ∨ lineBreak = "\r" := by
    simpa [lineBreaks] using hbreak
  · exact Text.contents_append_break (c := '\n') (by decide) _ _
  · have hpair : Text.contents ('\n' :: joined.toList) = Text.contents joined.toList :=
      Text.contents_append_break (c := '\n') (by decide) [] _
    rw [← hpair]
    exact Text.contents_append_break (c := '\r') (by decide) _ _
  · exact Text.contents_append_break (c := '\r') (by decide) _ _

theorem entries_joined {joined : String} (h : Joined texts joined) :
    entries (.list (texts.map .text)) = entries (.text joined) := by
  rw [entries_map_text]
  refine congrArg Except.ok ?_
  induction h with
  | none => rfl
  | one text => simp
  | more hbreak _ ih => rw [List.flatMap_cons, ih, linesOfText_append_break hbreak]

-- ---------------------------------------------------------------------------
-- Paths
-- ---------------------------------------------------------------------------

/-- An entry with the separator for each slash. -/
def slashed (separator : Char) (entry : String) : List Char :=
  entry.toList.map fun c => if c = '/' then separator else c

theorem slashed_slash (entry : String) : slashed '/' entry = entry.toList := by
  have hid : (fun c => if c = '/' then '/' else c) = id := by
    funext c
    by_cases hc : c = '/' <;> simp [hc]
  rw [slashed, hid, List.map_id]

/-- A path from the root, or from a drive where the separator is a backslash. -/
def IsRooted (separator : Char) (path : List Char) : Prop :=
  path.head? = some separator ∨ separator = '\\' ∧ path[1]? = some ':'

instance (separator : Char) (path : List Char) : Decidable (IsRooted separator path) :=
  inferInstanceAs (Decidable (_ ∨ _))

def relativePath (separator : Char) (entry : String) : String :=
  String.ofList ((slashed separator entry).rdropWhile (· == separator))

/-- A path within the directory: it is one line that neither starts nor ends with a separator. -/
structure IsRelative (separator : Char) (path : String) : Prop where
  ne_empty : path ≠ ""
  head : path.toList.head? ≠ some separator
  last : path.toList.getLast? ≠ some separator
  unbroken : '\n' ∉ path.toList ∧ '\r' ∉ path.toList

theorem withSeparator_toList (separator : Char) (entry : String) :
    withSeparator [separator] entry.toList = slashed separator entry := by
  rw [withSeparator, slashed, List.map_eq_flatMap]
  congr 1
  funext c
  split <;> rfl

theorem isAbsoluteEntry_iff {cs : List Char} :
    isAbsoluteEntry [separator] cs = true ↔ IsRooted separator cs := by
  have hhead : [separator].isPrefixOf cs = true ↔ cs.head? = some separator := by
    cases cs with
    | nil => simp
    | cons c cs => simpa using eq_comm
  simp only [isAbsoluteEntry, IsRooted, Bool.or_eq_true, hhead, Bool.and_eq_true, beq_iff_eq,
    List.head?_drop, List.cons.injEq, and_true]

theorem relativePaths_cons (hentry : Text.Solid entry.toList) :
    relativePaths option [separator] (entry :: listed) =
      if IsRooted separator (slashed separator entry) then
        .error (.absoluteEntry option (String.ofList (slashed separator entry)))
      else (relativePaths option [separator] listed).map (relativePath separator entry :: ·) := by
  have hne : (slashed separator entry).isEmpty = false := by simpa [slashed] using hentry.ne_nil
  have hcut : ∀ cs, Text.dropEndWhile [separator].contains cs =
      cs.rdropWhile (· == separator) := by
    intro cs
    rw [Text.dropEndWhile_eq_rdropWhile]
    congr 1
    funext c
    rw [List.contains_cons, List.contains_nil, Bool.or_false]
  rw [relativePaths, hentry.trimmed, withSeparator_toList]
  simp only [hne, isAbsoluteEntry_iff, hcut, Bool.false_eq_true, if_false, relativePath]

theorem relativePaths_relative (hlisted : ∀ entry ∈ listed, Text.Solid entry.toList)
    (hrelative : ∀ entry ∈ listed, ¬IsRooted separator (slashed separator entry)) :
    relativePaths option [separator] listed = .ok (listed.map (relativePath separator)) := by
  induction listed with
  | nil => rfl
  | cons entry rest ih =>
    obtain ⟨hentry, hrest⟩ := List.forall_mem_cons.mp hlisted
    obtain ⟨hfirst, hlater⟩ := List.forall_mem_cons.mp hrelative
    rw [relativePaths_cons hentry, if_neg hfirst, ih hrest hlater, List.map_cons]
    rfl

theorem relativePaths_rooted {before after : List String}
    (hlisted : ∀ listed ∈ before ++ entry :: after, Text.Solid listed.toList)
    (hbefore : ∀ earlier ∈ before, ¬IsRooted separator (slashed separator earlier))
    (hrooted : IsRooted separator (slashed separator entry)) :
    relativePaths option [separator] (before ++ entry :: after) =
      .error (.absoluteEntry option (String.ofList (slashed separator entry))) := by
  induction before with
  | nil => rw [List.nil_append, relativePaths_cons (hlisted entry (by simp)), if_pos hrooted]
  | cons first rest ih =>
    obtain ⟨hfirst, hrest⟩ := List.forall_mem_cons.mp hlisted
    obtain ⟨hrelative, hlater⟩ := List.forall_mem_cons.mp hbefore
    rw [List.cons_append, relativePaths_cons hfirst, if_neg hrelative, ih hrest hlater]
    rfl

theorem exists_first_rooted
    (h : ∃ entry ∈ listed, IsRooted separator (slashed separator entry)) :
    ∃ before entry after, listed = before ++ entry :: after ∧
      (∀ earlier ∈ before, ¬IsRooted separator (slashed separator earlier)) ∧
      IsRooted separator (slashed separator entry) := by
  induction listed with
  | nil => simp at h
  | cons entry rest ih =>
    by_cases hrooted : IsRooted separator (slashed separator entry)
    · exact ⟨[], entry, rest, rfl, List.forall_mem_nil _, hrooted⟩
    · have hlater : ∃ entry ∈ rest, IsRooted separator (slashed separator entry) := by
        simpa [hrooted] using h
      obtain ⟨before, first, after, rfl, hbefore, hfirst⟩ := ih hlater
      exact ⟨entry :: before, first, after, rfl,
        List.forall_mem_cons.mpr ⟨hrooted, hbefore⟩, hfirst⟩

theorem exists_error_iff (option : String)
    (hlisted : ∀ entry ∈ listed, Text.Solid entry.toList) :
    (∃ error, relativePaths option [separator] listed = .error error) ↔
      ∃ entry ∈ listed, IsRooted separator (slashed separator entry) := by
  constructor
  · rintro ⟨error, herror⟩
    by_contra hnone
    push Not at hnone
    rw [relativePaths_relative hlisted hnone] at herror
    cases herror
  · intro hexists
    obtain ⟨before, entry, after, rfl, hbefore, hrooted⟩ := exists_first_rooted hexists
    exact ⟨_, relativePaths_rooted hlisted hbefore hrooted⟩

theorem relativePaths_eq_ok_iff (hlisted : ∀ entry ∈ listed, Text.Solid entry.toList) :
    relativePaths option [separator] listed = .ok paths ↔
      (∀ entry ∈ listed, ¬IsRooted separator (slashed separator entry)) ∧
        paths = listed.map (relativePath separator) := by
  constructor
  · intro h
    have hrelative : ∀ entry ∈ listed, ¬IsRooted separator (slashed separator entry) := by
      intro entry hentry hrooted
      obtain ⟨error, herror⟩ := (exists_error_iff option hlisted).mpr ⟨entry, hentry, hrooted⟩
      rw [herror] at h
      cases h
    rw [relativePaths_relative hlisted hrelative] at h
    exact ⟨hrelative, (Except.ok.inj h).symm⟩
  · rintro ⟨hrelative, rfl⟩
    exact relativePaths_relative hlisted hrelative

theorem isRelative_relativePath (hseparator : separator = '/' ∨ separator = '\\')
    (hentry : Text.Solid entry.toList) (hrelative : ¬IsRooted separator (slashed separator entry)) :
    IsRelative separator (relativePath separator entry) := by
  have hhead : (slashed separator entry).head? ≠ some separator := fun h => hrelative (.inl h)
  have hunbroken : ∀ c ∈ slashed separator entry, Text.isBreak c = false := by
    intro c hc
    obtain ⟨d, hd, rfl⟩ := List.mem_map.mp hc
    split
    · rcases hseparator with rfl | rfl <;> decide
    · exact hentry.unbroken d hd
  have hcut : (relativePath separator entry).toList =
      Text.dropEndWhile (· == separator) (slashed separator entry) := by
    rw [relativePath, String.toList_ofList, Text.dropEndWhile_eq_rdropWhile]
  have hbreak : ∀ c, Text.isBreak c = true → c ∉ (relativePath separator entry).toList := by
    intro c hc hmem
    rw [hcut] at hmem
    rw [hunbroken c (Text.mem_of_mem_dropEndWhile hmem)] at hc
    cases hc
  refine ⟨?_, ?_, ?_, hbreak '\n' (by decide), hbreak '\r' (by decide)⟩
  · intro hempty
    rw [hempty, eq_comm, Text.dropEndWhile_eq_rdropWhile, String.toList_empty,
      List.rdropWhile_eq_nil_iff] at hcut
    obtain ⟨first, rest, hcons⟩ : ∃ first rest, slashed separator entry = first :: rest :=
      List.exists_cons_of_ne_nil (by simpa [slashed] using hentry.ne_nil)
    obtain rfl : first = separator := by simpa using hcut first (by simp [hcons])
    exact hhead (by simp [hcons])
  · rw [hcut]
    exact fun h => hhead (Text.head?_of_head?_dropEndWhile h)
  · rw [hcut]
    intro h
    simpa using Text.eq_false_of_getLast?_dropEndWhile h

theorem asPaths_eq_ok_iff {value : Value} : value.asPaths option = .ok paths ↔
    ∃ listed, entries value = .ok listed ∧ relativePaths option ['/'] listed = .ok paths := by
  rw [asPaths]
  cases entries value with
  | error e => simp [Except.bind]
  | ok listed => simp [Except.bind]

theorem isRelative_of_mem_asPaths {value : Value} (h : value.asPaths option = .ok paths)
    (hpath : path ∈ paths) : IsRelative '/' path := by
  obtain ⟨listed, hlisted, hpaths⟩ := asPaths_eq_ok_iff.mp h
  have hsolid := solid_of_mem_entries value hlisted
  obtain ⟨hrelative, rfl⟩ := (relativePaths_eq_ok_iff hsolid).mp hpaths
  obtain ⟨entry, hentry, rfl⟩ := List.mem_map.mp hpath
  exact isRelative_relativePath (.inl rfl) (hsolid entry hentry) (hrelative entry hentry)

-- ---------------------------------------------------------------------------
-- Lists of files
-- ---------------------------------------------------------------------------

theorem exists_entries {value : Value} (h : ¬HasOverlong value) :
    ∃ listed, entries value = .ok listed := by
  cases hentries : entries value with
  | ok listed => exact ⟨listed, rfl⟩
  | error e => exact absurd ((entries_eq_error_iff value e).mp hentries).1 h

/-- The entries of a list of files become paths one by one unless one of them is a path from the
root, of which the first is refused. There are no entries if an integer in the list is overlong.
Texts that are listed are as good as the texts joined by line breaks of any kind, lists within lists
as good as what they list, and any value as good as its entries. -/
theorem entries_become_paths (separator : Char) (hseparator : separator = '/' ∨ separator = '\\') :
    (∀ (option : String) (value : Value),
      (∃ error, (entries value).bind (relativePaths option [separator]) = .error error) ↔
        HasOverlong value ∨ ∃ listed, entries value = .ok listed ∧
          ∃ entry ∈ listed, IsRooted separator (slashed separator entry)) ∧
    (∀ value : Value, HasOverlong value → entries value = .error .overlong) ∧
    (∀ (option : String) (value : Value) (before : List String) (entry : String)
      (after : List String), entries value = .ok (before ++ entry :: after) →
      (∀ earlier ∈ before, ¬IsRooted separator (slashed separator earlier)) →
      IsRooted separator (slashed separator entry) →
      ∃ error, (entries value).bind (relativePaths option [separator]) = .error error ∧
        error.message = "Invalid " ++ option ++ " option: \"" ++
          String.ofList (slashed separator entry) ++ "\" is an absolute path") ∧
    (∀ (option : String) (value : Value), ¬HasOverlong value →
      ∃ listed, entries value = .ok listed ∧
        ((∀ entry ∈ listed, ¬IsRooted separator (slashed separator entry)) →
          (entries value).bind (relativePaths option [separator]) =
              .ok (listed.map (relativePath separator)) ∧
            ∀ path ∈ listed.map (relativePath separator), IsRelative separator path)) ∧
    (∀ (texts : List String) (joined : String), Joined texts joined →
      entries (.list (texts.map .text)) = entries (.text joined)) ∧
    (∀ items : List Value, entries (.list items) = (items.mapM entries).map List.flatten) ∧
    ∀ (value : Value) (listed : List String), entries value = .ok listed →
      entries (.list (listed.map .text)) = .ok listed := by
  refine ⟨?_, ?_, ?_, ?_, ?_, ?_, ?_⟩
  · intro option value
    by_cases hlong : HasOverlong value
    · simp [(entries_eq_error_iff value _).mpr ⟨hlong, rfl⟩, hlong, Except.bind]
    · obtain ⟨listed, hlisted⟩ := exists_entries hlong
      rw [hlisted, or_iff_right hlong]
      simpa [Except.bind] using exists_error_iff option (solid_of_mem_entries value hlisted)
  · intro value hlong
    exact (entries_eq_error_iff value _).mpr ⟨hlong, rfl⟩
  · intro option value before entry after hentries hbefore hrooted
    rw [hentries]
    refine ⟨_, relativePaths_rooted (solid_of_mem_entries value hentries) hbefore hrooted, ?_⟩
    rw [← String.toList_inj]
    simp [OptionError.message, OptionError.invalid, OptionError.inQuotes]
  · intro option value hshort
    obtain ⟨listed, hlisted⟩ := exists_entries hshort
    have hsolid := solid_of_mem_entries value hlisted
    refine ⟨listed, hlisted, fun hrelative => ⟨?_, ?_⟩⟩
    · rw [hlisted]
      exact relativePaths_relative hsolid hrelative
    · intro path hpath
      obtain ⟨entry, hentry, rfl⟩ := List.mem_map.mp hpath
      exact isRelative_relativePath hseparator (hsolid entry hentry) (hrelative entry hentry)
  · intro texts joined hjoined
    exact entries_joined hjoined
  · intro items
    exact entries_list items
  · intro value listed hlisted
    exact entries_texts (solid_of_mem_entries value hlisted)

/-- A list within a list, the first entry with a drive, and a break across two texts. -/
theorem entries_become_paths_sample :
    (∃ error, (entries (.list [.text "lib/\r\n a/b//", .list [.text "c:tmp", .text "/etc"]])).bind
        (relativePaths "exclude" ['\\']) = .error error ∧
      error.message = "Invalid exclude option: \"c:tmp\" is an absolute path") ∧
    (entries (.text "lib/\r\n a/b//")).bind (relativePaths "include" ['\\']) =
      .ok ["lib", "a\\b"] ∧
    entries (.list [.text "lib\r", .text "\ntests"]) = entries (.text "lib\r\r\n\ntests") := by
  obtain ⟨-, -, hfirst, hpaths, hjoined, -, -⟩ := entries_become_paths '\\' (.inr rfl)
  refine ⟨?_, ?_, ?_⟩
  · have hentries : entries (.list [.text "lib/\r\n a/b//", .list [.text "c:tmp", .text "/etc"]]) =
        .ok (["lib/", "a/b//"] ++ "c:tmp" :: ["/etc"]) := by cbv
    obtain ⟨error, herror, hmessage⟩ :=
      hfirst "exclude" _ _ _ _ hentries (by decide) (by decide)
    exact ⟨error, herror, by rw [hmessage]; decide⟩
  · have hentries : entries (.text "lib/\r\n a/b//") = .ok ["lib/", "a/b//"] := by cbv
    have hshort : ¬HasOverlong (.text "lib/\r\n a/b//") := by
      intro h
      cases h
    obtain ⟨listed, hlisted, hrelative⟩ := hpaths "include" _ hshort
    obtain rfl := Except.ok.inj (hentries.symm.trans hlisted)
    rw [(hrelative (by decide)).1]
    exact congrArg Except.ok (by decide)
  · have hbreak : "\r\n" ∈ lineBreaks := by decide
    exact hjoined ["lib\r", "\ntests"] _ (.more hbreak (.one "\ntests"))

/-- An integer with one digit too many is refused although no entry is a path from the root. -/
theorem entries_become_paths_overlong :
    (entries (.int (10 ^ Text.digitLimit))).bind (relativePaths "include" ['/']) =
      .error .overlong ∧
    ¬∃ listed, entries (.int (10 ^ Text.digitLimit)) = .ok listed ∧
      ∃ entry ∈ listed, IsRooted '/' (slashed '/' entry) := by
  have hentries := (entries_eq_error_iff _ .overlong).mpr ⟨hasOverlong_pow, rfl⟩
  rw [hentries]
  refine ⟨rfl, ?_⟩
  rintro ⟨listed, hlisted, -⟩
  cases hlisted

end Value

end LintRun
