import LintRun.Check
import LintRun.Proofs.FileLists
import LintRun.Proofs.LayerLaws
import LintRun.Proofs.WalkLaws

/-!
# Exclusions

Names that are written as an exclusion, with any number of slashes after them, exclude what is at
these names and all below it, whichever layer they are written in and whatever is written beside
them; alone they exclude nothing else (`exclusion_is_subtree`).
-/

namespace LintRun

open LintRun.Path (joined splitOn_joined)
open LintRun.Value (entries linesOfText lineBreaks slashed slashed_slash relativePath IsRooted)

-- ---------------------------------------------------------------------------
-- Names as an entry
-- ---------------------------------------------------------------------------

def spelled (names : List String) (slashes : Nat) : String :=
  joined names ++ String.ofList (List.replicate slashes '/')

/-- Names below the directory that can be written on a line, with so many slashes after them: no
line break is in them, and the blanks around the line are not theirs. -/
structure Spells (names : List String) (slashes : Nat) : Prop where
  ne_nil : names ≠ []
  plain : ∀ name ∈ names, name ≠ "" ∧ ∀ c ∈ name.toList, c ≠ '/' ∧ c ≠ '\n' ∧ c ≠ '\r'
  first : ∀ c, (joined names).toList.head? = some c → Text.isBlank c = false
  last : slashes = 0 → ∀ c, (joined names).toList.getLast? = some c → Text.isBlank c = false

theorem toList_spelled (names : List String) (slashes : Nat) :
    (spelled names slashes).toList = (joined names).toList ++ List.replicate slashes '/' := by
  rw [spelled, String.toList_append, String.toList_ofList]

namespace Spells

variable {names : List String} {slashes : Nat}

theorem slash_not_mem (h : Spells names slashes) : ∀ name ∈ names, '/' ∉ name.toList :=
  fun name hname hslash => ((h.plain name hname).2 '/' hslash).1 rfl

theorem exists_head? (h : Spells names slashes) :
    ∃ c, (joined names).toList.head? = some c ∧ c ≠ '/' := by
  obtain ⟨first, rest, rfl⟩ := List.exists_cons_of_ne_nil h.ne_nil
  exact Path.exists_head?_joined (h.plain first (by simp)).1 (h.slash_not_mem first (by simp)) rest

theorem exists_getLast? (h : Spells names slashes) :
    ∃ c, (joined names).toList.getLast? = some c ∧ c ≠ '/' := by
  obtain ⟨before, last, rfl⟩ := (List.eq_nil_or_concat' names).resolve_left h.ne_nil
  exact Path.exists_getLast?_joined (h.plain last (by simp)).1 (h.slash_not_mem last (by simp))
    before

theorem unbroken (h : Spells names slashes) : Text.Unbroken (joined names) := by
  refine Text.unbroken_intercalate (by decide) ?_
  intro name hname c hc
  obtain ⟨-, hnewline, hreturn⟩ := (h.plain name hname).2 c hc
  simp [Text.isBreak, hnewline, hreturn]

theorem solid (h : Spells names slashes) : Text.Solid (spelled names slashes).toList := by
  obtain ⟨first, hfirst, -⟩ := h.exists_head?
  rw [toList_spelled]
  refine ⟨?_, Text.trimWhile_of_ends ?_ ?_, ?_⟩
  · intro hnil
    rw [(List.append_eq_nil_iff.mp hnil).1] at hfirst
    cases hfirst
  · intro c hc
    rw [List.head?_append, hfirst, Option.some_or] at hc
    exact h.first c (hfirst.trans hc)
  · intro c hc
    rw [List.getLast?_append, List.getLast?_replicate] at hc
    -- A slash is no blank, so that the names may end in one if a slash follows.
    by_cases hslashes : slashes = 0
    · exact h.last hslashes c (by simpa [hslashes] using hc)
    · obtain rfl : '/' = c := by simpa [hslashes] using hc
      decide
  · intro c hc
    rcases List.mem_append.mp hc with hc | hc
    · exact h.unbroken c hc
    · rw [(List.mem_replicate.mp hc).2]
      decide

theorem not_isRooted (h : Spells names slashes) :
    ¬IsRooted '/' (slashed '/' (spelled names slashes)) := by
  obtain ⟨c, hc, hne⟩ := h.exists_head?
  rw [slashed_slash, toList_spelled, IsRooted, List.head?_append, hc]
  simp [hne]

theorem relativePath_eq (h : Spells names slashes) :
    relativePath '/' (spelled names slashes) = joined names := by
  -- The slashes after the names go one by one, and the last character of the names stops it.
  have hcut : ∀ n : Nat, ((joined names).toList ++ List.replicate n '/').rdropWhile (· == '/') =
      (joined names).toList := by
    obtain ⟨last, hlast, hne⟩ := h.exists_getLast?
    intro n
    induction n with
    | zero =>
      rw [List.replicate_zero, List.append_nil, List.rdropWhile_eq_self_iff]
      intro hnil
      rw [List.getLast?_eq_some_getLast hnil, Option.some.injEq] at hlast
      simpa [hlast] using hne
    | succ n ih =>
      rw [List.replicate_succ', ← List.append_assoc, List.rdropWhile_concat_pos _ _ _ (by simp), ih]
  rw [relativePath, slashed_slash, toList_spelled, hcut, String.ofList_toList]

end Spells

-- ---------------------------------------------------------------------------
-- Written entries
-- ---------------------------------------------------------------------------

/-- A text with this line, whatever its lines end with. -/
inductive HasLine (line : String) : String → Prop
  | only : HasLine line line
  | first {lineBreak : String} (rest : String) (hbreak : lineBreak ∈ lineBreaks) :
      HasLine line (line ++ lineBreak ++ rest)
  | later {lineBreak rest : String} (before : String)
      (hbreak : lineBreak ∈ lineBreaks) (hrest : HasLine line rest) :
      HasLine line (before ++ lineBreak ++ rest)

/-- A value with this line in a text, which may be an item of a list. -/
inductive Value.Lists (line : String) : Value → Prop
  | text {s : String} (h : HasLine line s) : Lists line (.text s)
  | item {item : Value} {items : List Value} (hitem : item ∈ items) (h : Lists line item) :
      Lists line (.list items)

theorem HasLine.mem_linesOfText {line text : String} (hline : Text.Solid line.toList)
    (h : HasLine line text) : line ∈ linesOfText text := by
  induction h with
  | only => simp [Value.linesOfText_of_solid hline]
  | first rest hbreak =>
    simp [Value.linesOfText_append_break hbreak, Value.linesOfText_of_solid hline]
  | later before hbreak _ ih => simp [Value.linesOfText_append_break hbreak, ih]

theorem Value.Lists.mem_entries {line : String} {value : Value} (hline : Text.Solid line.toList)
    (h : value.Lists line) {listed : List String} (hlisted : entries value = .ok listed) :
    line ∈ listed := by
  induction h generalizing listed with
  | text h =>
    obtain rfl := Except.ok.inj hlisted
    exact h.mem_linesOfText hline
  | item hitem _ ih =>
    obtain ⟨inner, hinner, hmem⟩ := Value.exists_entries_of_mem hlisted hitem
    exact hmem (ih hinner)

namespace Options

variable {overrides : Overrides} {environment : Environment} {defaults : Table}

/-- The value in which the exclusions are written: the command line's, else the variable's if it is
not blank, else the configuration's. -/
inductive WritesExclusions (overrides : Overrides) (environment : Environment) (defaults : Table) :
    Value → Prop
  | items {items : List String} (hoverride : overrides.excluded = some items) :
      WritesExclusions overrides environment defaults (.list (items.map .text))
  | input {raw : String} (hoverride : overrides.excluded = none)
      (hlookup : environment.lookup "INPUT_EXCLUDE" = some raw) (hraw : Text.allBlank raw = false) :
      WritesExclusions overrides environment defaults (.text raw)
  | entry {value : Value} (hoverride : overrides.excluded = none)
      (hblank : ∀ raw, environment.lookup "INPUT_EXCLUDE" = some raw → Text.allBlank raw = true)
      (hlookup : defaults.lookup "exclude" = some value) :
      WritesExclusions overrides environment defaults value

theorem entries_pick_exclude {value : Value}
    (h : WritesExclusions overrides environment defaults value) :
    entries (pick environment defaults "exclude" (overrides.excluded.map textList)) =
      entries value := by
  have hname : inputName "exclude" = "INPUT_EXCLUDE" := by decide
  unfold pick
  cases h with
  | items hoverride =>
    rw [hoverride]
    rfl
  | @input raw hoverride hlookup hraw =>
    have hinput : environment.input? "exclude" = some (Text.trim raw) :=
      Environment.input?_eq_some_iff.mpr ⟨raw, ⟨hname ▸ hlookup, hraw⟩, rfl⟩
    rw [hoverride, hinput]
    exact congrArg Except.ok (Value.linesOfText_trim raw)
  | entry hoverride hblank hlookup =>
    have hinput : environment.input? "exclude" = none := by
      refine Environment.input?_eq_none_iff.mpr ?_
      rintro raw ⟨hraw, hsome⟩
      rw [hblank raw (hname ▸ hraw)] at hsome
      cases hsome
    rw [hoverride, hinput, hlookup]
    rfl

theorem excluded_of_resolve {tree : Tree} {cwd : Path} {options : Options}
    (h : resolve tree overrides environment cwd = .ok options) :
    ∃ defaults, defaultsIn tree (requestedDirectory overrides environment cwd)
        (overrides.config.map cwd.join) = .ok defaults ∧
      ∀ value, WritesExclusions overrides environment defaults value →
        ∃ listed, entries value = .ok listed ∧
          options.excluded = listed.map (relativePath '/') := by
  obtain ⟨defaults, proposed, hloaded, hproposes, hvalid⟩ := exists_proposed_of_resolve h
  obtain ⟨-, -, -, rfl⟩ := validate_eq_ok_iff.mp hvalid
  refine ⟨defaults, hloaded, ?_⟩
  intro value hwrites
  rw [← entries_pick_exclude hwrites]
  obtain ⟨listed, hlisted, hpaths⟩ := Value.asPaths_eq_ok_iff.mp hproposes.excluded_eq
  have hsolid := Value.solid_of_mem_entries _ hlisted
  exact ⟨listed, hlisted, ((Value.relativePaths_eq_ok_iff hsolid).mp hpaths).2⟩

end Options

-- ---------------------------------------------------------------------------
-- What an exclusion covers
-- ---------------------------------------------------------------------------

theorem covers_iff {excluded path : String} :
    covers "/" excluded path = true ↔ path = excluded ∨ ∃ below, path = excluded ++ "/" ++ below := by
  rw [covers, Bool.or_eq_true, beq_iff_eq, List.isPrefixOf_iff_prefix]
  refine or_congr Iff.rfl ⟨?_, ?_⟩
  · rintro ⟨below, hbelow⟩
    refine ⟨String.ofList below, ?_⟩
    rw [← String.toList_inj, String.toList_append, String.toList_ofList, hbelow]
  · rintro ⟨below, rfl⟩
    exact ⟨below.toList, by simp⟩

theorem eq_of_joined_eq {names other : List String} (hnames : names ≠ []) (hother : other ≠ [])
    (hslash : ∀ name ∈ names, '/' ∉ name.toList) (hslash' : ∀ name ∈ other, '/' ∉ name.toList)
    (h : joined names = joined other) : names = other := by
  have hsplit := splitOn_joined hnames hslash
  rw [h, splitOn_joined hother hslash'] at hsplit
  exact (List.map_injective_iff.mpr fun _ _ => String.toList_inj.mp) hsplit.symm

theorem Spells.covers_joined_iff {names other : List String} {slashes : Nat}
    (h : Spells names slashes) (hother : ∀ name ∈ other, '/' ∉ name.toList) :
    covers "/" (joined names) (joined other) = true ↔ names <+: other := by
  rw [covers, Bool.or_eq_true, beq_iff_eq, Path.isPrefixOf_joined hother]
  constructor
  · rintro (heq | ⟨above, below, habove, -, rfl, heq⟩)
    · have hne : other ≠ [] := by
        rintro rfl
        obtain ⟨c, hc, -⟩ := h.exists_head?
        rw [← heq] at hc
        cases hc
      rw [eq_of_joined_eq hne h.ne_nil hother h.slash_not_mem heq]
    · obtain rfl := eq_of_joined_eq h.ne_nil habove h.slash_not_mem
        (fun name hname => hother name (List.mem_append_left _ hname)) heq
      exact List.prefix_append _ _
  · rintro ⟨below, rfl⟩
    by_cases hbelow : below = []
    · exact .inl (by rw [hbelow, List.append_nil])
    · exact .inr ⟨names, below, h.ne_nil, hbelow, rfl, rfl⟩

-- ---------------------------------------------------------------------------
-- Subtrees
-- ---------------------------------------------------------------------------

/-- Names that are written as an exclusion, however many slashes follow them, are read as what they
spell, whatever else is written that can be read. In each layer they then exclude what is at the
names and everything below. Alone, they exclude nothing else: only paths that start with all of
these names. -/
theorem exclusion_is_subtree {names : List String} {slashes : Nat} (h : Spells names slashes) :
    (∀ (value : Value) (listed : List String), value.Lists (spelled names slashes) →
      entries value = .ok listed →
      (∀ entry ∈ listed, entry ≠ spelled names slashes → ¬IsRooted '/' (slashed '/' entry)) →
      ∃ paths, value.asPaths "exclude" = .ok paths ∧ joined names ∈ paths) ∧
    entries (.text (spelled names slashes)) = .ok [spelled names slashes] ∧
    entries (.list [.text (spelled names slashes)]) = .ok [spelled names slashes] ∧
    ∀ (tree : Tree) (overrides : Overrides) (environment : Environment) (cwd : Path)
      (options : Options), Options.resolve tree overrides environment cwd = .ok options →
      ∃ defaults, Options.defaultsIn tree (Options.requestedDirectory overrides environment cwd)
          (overrides.config.map cwd.join) = .ok defaults ∧
        ∀ value, Options.WritesExclusions overrides environment defaults value →
          (value.Lists (spelled names slashes) →
            (Check.walkOf options).isSkipped (joined names) = true ∧
              ∀ below, (Check.walkOf options).isSkipped (joined names ++ "/" ++ below) = true) ∧
          (entries value = .ok [spelled names slashes] →
            (∀ path, (Check.walkOf options).isSkipped path = true ↔
              path = joined names ∨ ∃ below, path = joined names ++ "/" ++ below) ∧
            ∀ other : List String, (∀ name ∈ other, '/' ∉ name.toList) →
              ((Check.walkOf options).isSkipped (joined other) = true ↔ names <+: other)) := by
  have hsolid : ∀ entry ∈ [spelled names slashes], Text.Solid entry.toList :=
    List.forall_mem_singleton.mpr h.solid
  have halone : entries (.text (spelled names slashes)) = .ok [spelled names slashes] :=
    congrArg Except.ok (Value.linesOfText_of_solid h.solid)
  refine ⟨?_, halone, Value.entries_texts hsolid, ?_⟩
  · intro value listed hlists hlisted hothers
    have hrelative : ∀ entry ∈ listed, ¬IsRooted '/' (slashed '/' entry) := by
      intro entry hentry
      by_cases heq : entry = spelled names slashes
      · exact heq ▸ h.not_isRooted
      · exact hothers entry hentry heq
    have hpaths : Value.relativePaths "exclude" ['/'] listed = .ok (listed.map (relativePath '/')) :=
      Value.relativePaths_relative (Value.solid_of_mem_entries value hlisted) hrelative
    refine ⟨_, Value.asPaths_eq_ok_iff.mpr ⟨listed, hlisted, hpaths⟩, ?_⟩
    exact List.mem_map.mpr ⟨_, hlists.mem_entries h.solid hlisted, h.relativePath_eq⟩
  · intro tree overrides environment cwd options hresolved
    obtain ⟨defaults, hloaded, hexcluded⟩ := Options.excluded_of_resolve hresolved
    refine ⟨defaults, hloaded, ?_⟩
    intro value hwrites
    obtain ⟨listed, hlisted, hoptions⟩ := hexcluded value hwrites
    have hskipped : ∀ path, (Check.walkOf options).isSkipped path = true ↔
        ∃ entry ∈ listed, covers "/" (relativePath '/' entry) path = true := by
      intro path
      simp [Walk.isSkipped, Check.walkOf, isExcluded, hoptions]
    refine ⟨?_, ?_⟩
    · intro hlists
      have hmem := hlists.mem_entries h.solid hlisted
      simp only [hskipped]
      refine ⟨⟨_, hmem, ?_⟩, fun below => ⟨_, hmem, ?_⟩⟩
      · exact covers_iff.mpr (.inl h.relativePath_eq.symm)
      · exact covers_iff.mpr (.inr ⟨below, by rw [h.relativePath_eq]⟩)
    · intro honly
      obtain rfl := Except.ok.inj (hlisted.symm.trans honly)
      have hcovers : ∀ path, (Check.walkOf options).isSkipped path = true ↔
          covers "/" (joined names) path = true := by
        intro path
        simp [hskipped, h.relativePath_eq]
      simp only [hcovers]
      exact ⟨fun path => covers_iff, fun other hother => h.covers_joined_iff hother⟩

-- ---------------------------------------------------------------------------
-- A directory in the variable
-- ---------------------------------------------------------------------------

def libEnvironment : Environment := [("INPUT_EXCLUDE", "lib//\n")]

theorem asPaths_lib :
    (Options.pick libEnvironment [] "exclude" none).asPaths "exclude" = .ok ["lib"] := by
  have hread : ((Options.pick libEnvironment [] "exclude" none).asPaths "exclude").toOption =
      some ["lib"] := by decide +kernel
  revert hread
  cases Value.asPaths "exclude" _ with
  | error e => nofun
  | ok paths => exact fun h => congrArg Except.ok (Option.some.inj h)

theorem exists_resolve_lib :
    ∃ options, Options.resolve (Options.configuredTree []) {} libEnvironment
      Options.configuredDirectory = .ok options := by
  have hdirectory : Options.requestedDirectory {} libEnvironment Options.configuredDirectory =
      Options.configuredDirectory := rfl
  have hloaded : Options.defaultsIn (Options.configuredTree [])
      (Options.requestedDirectory {} libEnvironment Options.configuredDirectory)
      (Option.map Options.configuredDirectory.join none) = .ok [] :=
    Options.defaultsIn_unconfigured
  have hproposes : Options.Proposes {} libEnvironment [] Options.configuredDirectory {
      directory := some Options.configuredDirectory
      excluded := ["lib"] } :=
    ⟨rfl, rfl, asPaths_lib, rfl, rfl, rfl, rfl, rfl⟩
  rw [Options.resolve_eq_ofLayers hloaded, hdirectory]
  exact ⟨_, Options.ofLayers_eq_ok_iff.mpr ⟨_, Options.propose_eq_ok_iff.mpr hproposes, by cbv⟩⟩

/-- The directory and what is in it are left out, and another that starts with its name is not. -/
theorem exclusion_is_subtree_lib :
    ∃ options, Options.resolve (Options.configuredTree []) {} libEnvironment
        Options.configuredDirectory = .ok options ∧
      (Check.walkOf options).isSkipped "lib/a.php" = true ∧
      (Check.walkOf options).isSkipped "library/a.php" = false := by
  have hspells : Spells ["lib"] 2 :=
    ⟨by decide, by simp, by rintro _ ⟨⟩; decide, nofun⟩
  obtain ⟨options, hresolved⟩ := exists_resolve_lib
  obtain ⟨-, -, -, hlayers⟩ := exclusion_is_subtree hspells
  obtain ⟨defaults, -, hvalue⟩ := hlayers _ _ _ _ _ hresolved
  have hwrites : Options.WritesExclusions {} libEnvironment defaults
      (.text "lib//\n") := .input rfl rfl (by decide)
  obtain ⟨hlisted, honly⟩ := hvalue _ hwrites
  have hline : HasLine "lib//" "lib//\n" := .first "" (by decide : "\n" ∈ lineBreaks)
  have hentries : entries (.text "lib//\n") = .ok ["lib//"] :=
    congrArg Except.ok (by decide +kernel : linesOfText "lib//\n" = ["lib//"])
  refine ⟨options, hresolved, (hlisted (.text hline)).2 "a.php", ?_⟩
  rw [← Bool.not_eq_true]
  intro hskipped
  have hother := ((honly hentries).2 ["library", "a.php"] (by decide)).mp hskipped
  exact absurd hother (by decide)

end LintRun
