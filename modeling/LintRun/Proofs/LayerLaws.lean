import LintRun.Proofs.ResolvedOptions
import LintRun.Proofs.Text.TrimLaws

/-!
# Layers that hide each other

Each option is read from the first layer that has it, and the layers below may hold anything for it,
even what would be refused: `resolve_reads_first_layer`. A layer is left out only where it gives no
value at all, so that a flag that is off, an empty list and an empty text count as given.
-/

namespace LintRun

-- ---------------------------------------------------------------------------
-- Lists of named values
-- ---------------------------------------------------------------------------

/-- Two lists of named values give the same for every other name. -/
def AgreeExcept {α : Type} (names : List String) (first second : List (String × α)) : Prop :=
  ∀ other ∉ names, second.lookup other = first.lookup other

theorem AgreeExcept.refl {α : Type} (names : List String) (values : List (String × α)) :
    AgreeExcept names values values :=
  fun _ _ => rfl

theorem AgreeExcept.single {α : Type} (name : String) (first second : α) :
    AgreeExcept [name] [(name, first)] [(name, second)] := by
  intro other hother
  have hne : (other == name) = false := by simpa using hother
  simp [List.lookup, hne]

-- ---------------------------------------------------------------------------
-- Names of options
-- ---------------------------------------------------------------------------

namespace Options

/-- An option that each of the three layers can give. -/
inductive Key
  | included
  | excluded
  | failOnWarnings
  | supportDuplicatedNames
  | debug
  | php
  | timeout
  deriving DecidableEq

namespace Key

def name : Key → String
  | .included => "include"
  | .excluded => "exclude"
  | .failOnWarnings => "fail-on-warnings"
  | .supportDuplicatedNames => "support-duplicated-names"
  | .debug => "debug"
  | .php => "php"
  | .timeout => "timeout"

def all : List Key :=
  [.included, .excluded, .failOnWarnings, .supportDuplicatedNames, .debug, .php, .timeout]

theorem mem_all (key : Key) : key ∈ all := by
  cases key <;> decide

def override? (overrides : Overrides) : Key → Option Value
  | .included => overrides.included.map textList
  | .excluded => overrides.excluded.map textList
  | .failOnWarnings => overrides.failOnWarnings.map .bool
  | .supportDuplicatedNames => overrides.supportDuplicatedNames.map .bool
  | .debug => overrides.debug.map .bool
  | .php => overrides.php.map .text
  | .timeout => overrides.timeout.map .float

end Key

/-- The names of the options that the environment can give. -/
def variableOptions : List String :=
  "directory" :: Key.all.map Key.name

theorem Key.name_mem (key : Key) : key.name ∈ variableOptions :=
  List.mem_cons_of_mem _ (List.mem_map_of_mem key.mem_all)

theorem Key.name_ne_directory (key : Key) : key.name ≠ "directory" := by
  cases key <;> decide

theorem Key.name_inj {first second : Key} (h : first.name = second.name) : first = second := by
  have hnodup : (all.map name).Nodup := by decide
  exact List.inj_on_of_nodup_map hnodup first.mem_all second.mem_all h

theorem inputName_inj {first second : String} (hfirst : first ∈ variableOptions)
    (hsecond : second ∈ variableOptions) (h : inputName first = inputName second) :
    first = second := by
  have hnodup : (variableOptions.map inputName).Nodup := by decide
  exact List.inj_on_of_nodup_map hnodup hfirst hsecond h

end Options

-- ---------------------------------------------------------------------------
-- Variables
-- ---------------------------------------------------------------------------

namespace Environment

/-- The variable of an option is there, with this text and not only blanks. -/
def Gives (environment : Environment) (option raw : String) : Prop :=
  environment.lookup (inputName option) = some raw ∧ Text.allBlank raw = false

variable {environment other : Environment} {option changed : String}

theorem input?_eq_some_iff {text : String} : environment.input? option = some text ↔
    ∃ raw, environment.Gives option raw ∧ text = Text.trim raw := by
  unfold input? Gives
  cases environment.lookup (inputName option) with
  | none => simp
  | some raw =>
    simp only [Option.bind_some, Text.trim_eq_empty_iff, Option.some.injEq, and_assoc,
      exists_eq_left']
    cases Text.allBlank raw <;> simp [eq_comm]

theorem input?_eq_none_iff :
    environment.input? option = none ↔ ∀ raw, ¬environment.Gives option raw := by
  rw [Option.eq_none_iff_forall_ne_some]
  simp only [ne_eq, input?_eq_some_iff]
  constructor
  · intro h raw hgives
    exact h _ ⟨raw, hgives, rfl⟩
  · rintro h text ⟨raw, hgives, -⟩
    exact h raw hgives

theorem input?_congr (h : AgreeExcept [inputName changed] environment other)
    (hchanged : changed ∈ Options.variableOptions) (hoption : option ∈ Options.variableOptions)
    (hne : option ≠ changed) : other.input? option = environment.input? option := by
  have hname : inputName option ∉ [inputName changed] := by
    rw [List.mem_singleton]
    exact fun heq => hne (Options.inputName_inj hoption hchanged heq)
  simp only [input?, h _ hname]

end Environment

namespace Options

-- ---------------------------------------------------------------------------
-- The deciding layer
-- ---------------------------------------------------------------------------

section
variable (overrides : Overrides) (environment : Environment) (defaults : Table)

/-- The value of an option in the first layer that has one: the command line, the environment, the
configuration. The environment counts only if its variable is not blank. -/
inductive Key.Has (key : Key) : Value → Prop
  | override {value : Value} : key.override? overrides = some value → key.Has value
  | input {raw : String} : key.override? overrides = none → environment.Gives key.name raw →
      key.Has (.text (Text.trim raw))
  | entry {value : Value} : key.override? overrides = none →
      (∀ raw, ¬environment.Gives key.name raw) → defaults.lookup key.name = some value →
      key.Has value
  | missing : key.override? overrides = none → (∀ raw, ¬environment.Gives key.name raw) →
      defaults.lookup key.name = none → key.Has .null

theorem Key.has_pick (key : Key) : key.Has overrides environment defaults
    (pick environment defaults key.name (key.override? overrides)) := by
  unfold pick
  cases hoverride : key.override? overrides with
  | some value => exact .override hoverride
  | none =>
    cases hinput : environment.input? key.name with
    | some text =>
      obtain ⟨raw, hgives, rfl⟩ := Environment.input?_eq_some_iff.mp hinput
      exact .input hoverride hgives
    | none =>
      have hnone := Environment.input?_eq_none_iff.mp hinput
      cases hlookup : defaults.lookup key.name with
      | some value => exact .entry hoverride hnone hlookup
      | none => exact .missing hoverride hnone hlookup

end

/-- What the options hold of an option, if it is read from this value. -/
def Key.Reads (options : Options) (value : Value) : Key → Prop
  | .included => value.asPaths "include" = .ok options.included
  | .excluded => value.asPaths "exclude" = .ok options.excluded
  | .failOnWarnings => value.asFlag "fail-on-warnings" = .ok options.failOnWarnings
  | .supportDuplicatedNames =>
    value.asFlag "support-duplicated-names" = .ok options.supportDuplicatedNames
  | .debug => value.asFlag "debug" = .ok options.debug
  | .php => ∃ php, asPhp value = .ok php ∧ options.php = Text.trim php
  | .timeout => value.asTimeout = .ok options.timeout

theorem Proposes.reads {overrides : Overrides} {environment : Environment} {defaults : Table}
    {directory : Path} {proposed : Proposed}
    (h : Proposes overrides environment defaults directory proposed) (key : Key) :
    key.Reads proposed.accepted
      (pick environment defaults key.name (key.override? overrides)) := by
  cases key with
  | included => exact h.included_eq
  | excluded => exact h.excluded_eq
  | failOnWarnings => exact h.failOnWarnings_eq
  | supportDuplicatedNames => exact h.supportDuplicatedNames_eq
  | debug => exact h.debug_eq
  | php => exact ⟨_, h.php_eq, rfl⟩
  | timeout => exact h.timeout_eq

-- ---------------------------------------------------------------------------
-- Two resolutions
-- ---------------------------------------------------------------------------

/-- Two configurations that cannot be loaded for the same reason, or that agree on other options. -/
inductive LoadedAlike (names : List String) : Except ConfigFailure Table →
    Except ConfigFailure Table → Prop
  | failed (failure : ConfigFailure) : LoadedAlike names (.error failure) (.error failure)
  | loaded {first second : Table} : AgreeExcept names first second →
      LoadedAlike names (.ok first) (.ok second)

theorem LoadedAlike.refl (names : List String) (loaded : Except ConfigFailure Table) :
    LoadedAlike names loaded loaded := by
  cases loaded with
  | error failure => exact .failed failure
  | ok defaults => exact .loaded (.refl names defaults)

/-- Two trees of which a resolution sees the same, but for what the configuration says of the named
options. -/
structure ConfiguredAlike (names : List String) (directory : Path) (config : Option Path)
    (first second : Tree) : Prop where
  hasNode_eq : second.hasNode directory = first.hasNode directory
  hasDirectory_eq : second.hasDirectory directory = first.hasDirectory directory
  loadedAlike : LoadedAlike names (Config.defaults first directory config)
    (Config.defaults second directory config)

theorem ConfiguredAlike.refl (names : List String) (directory : Path) (config : Option Path)
    (tree : Tree) : ConfiguredAlike names directory config tree tree :=
  ⟨rfl, rfl, .refl names _⟩

section
variable {overrides : Overrides} {environment environment' : Environment}
  {defaults defaults' : Table} {directory cwd : Path} {tree tree' : Tree} {names : List String}

theorem pick_congr {option : String} {override : Option Value}
    (hinput : override = none → environment'.input? option = environment.input? option)
    (hlookup : override = none → environment.input? option = none →
      defaults'.lookup option = defaults.lookup option) :
    pick environment' defaults' option override = pick environment defaults option override := by
  unfold pick
  cases override with
  | some value => rfl
  | none =>
    rw [hinput rfl]
    cases h : environment.input? option with
    | some text => rfl
    | none => simp only [Option.map_none, Option.orElse_none, hlookup rfl h]

theorem propose_congr (h : ∀ key : Key,
    pick environment' defaults' key.name (key.override? overrides) =
      pick environment defaults key.name (key.override? overrides)) :
    propose overrides environment' defaults' directory =
      propose overrides environment defaults directory := by
  have hincluded := h .included
  have hexcluded := h .excluded
  have hfailOnWarnings := h .failOnWarnings
  have hsupportDuplicatedNames := h .supportDuplicatedNames
  have hdebug := h .debug
  have hphp := h .php
  have htimeout := h .timeout
  dsimp only [Key.name, Key.override?] at hincluded hexcluded hfailOnWarnings hdebug
  dsimp only [Key.name, Key.override?] at hsupportDuplicatedNames hphp htimeout
  simp only [propose, hincluded, hexcluded, hfailOnWarnings, hsupportDuplicatedNames, hdebug, hphp,
    htimeout]

theorem validate_congr (hnode : tree'.hasNode directory = tree.hasNode directory)
    (hfound : tree'.hasDirectory directory = tree.hasDirectory directory) {proposed : Proposed}
    (hdirectory : proposed.directory = some directory) :
    validate tree' proposed = validate tree proposed := by
  simp only [validate, hdirectory, directoryError?, hnode, hfound]

/-- A resolution comes out the same if it picks the same values, whatever is changed for the named
options of the configuration. -/
theorem resolve_congr
    (hdirectory : requestedDirectory overrides environment' cwd =
      requestedDirectory overrides environment cwd)
    (htree : ConfiguredAlike names (requestedDirectory overrides environment cwd)
      (overrides.config.map cwd.join) tree tree')
    (hpick : ∀ {defaults defaults' : Table}, AgreeExcept names defaults defaults' → ∀ key : Key,
      pick environment' defaults' key.name (key.override? overrides) =
        pick environment defaults key.name (key.override? overrides)) :
    resolve tree' overrides environment' cwd = resolve tree overrides environment cwd := by
  obtain ⟨hnode, hfound, hloaded⟩ := htree
  have hlayers : ∀ {defaults defaults' : Table}, AgreeExcept names defaults defaults' →
      ofLayers tree' overrides environment' defaults'
          (requestedDirectory overrides environment cwd) =
        ofLayers tree overrides environment defaults
          (requestedDirectory overrides environment cwd) := by
    intro defaults defaults' hagree
    unfold ofLayers
    rw [propose_congr (hpick hagree)]
    cases hproposed : propose overrides environment defaults
        (requestedDirectory overrides environment cwd) with
    | error failure => rfl
    | ok proposed =>
      have hplaced := (propose_eq_ok_iff.mp hproposed).directory_eq
      simp only [bind, Except.bind, validate_congr hnode hfound hplaced]
  simp only [resolve, hdirectory, defaultsIn, hfound]
  cases tree.hasDirectory (requestedDirectory overrides environment cwd) with
  | error e => rfl
  | ok found =>
    -- Where no directory is found, no configuration is loaded and both tables are empty.
    cases found with
    | false => exact hlayers (.refl names [])
    | true =>
      revert hloaded
      generalize Config.defaults tree _ _ = loaded
      generalize Config.defaults tree' _ _ = loaded'
      intro hloaded
      cases hloaded with
      | failed failure => rfl
      | loaded hagree => exact hlayers hagree

theorem requestedDirectory_congr
    (h : overrides.directory = none →
      environment'.input? "directory" = environment.input? "directory") :
    requestedDirectory overrides environment' cwd =
      requestedDirectory overrides environment cwd := by
  unfold requestedDirectory
  cases hdirectory : overrides.directory with
  | some path => rfl
  | none => rw [h hdirectory]

theorem resolve_of_override {key : Key} (hgiven : key.override? overrides ≠ none)
    (henvironment : AgreeExcept [inputName key.name] environment environment')
    (htree : ConfiguredAlike [key.name] (requestedDirectory overrides environment cwd)
      (overrides.config.map cwd.join) tree tree') :
    resolve tree' overrides environment' cwd = resolve tree overrides environment cwd := by
  refine resolve_congr (requestedDirectory_congr fun _ => ?_) htree ?_
  · exact Environment.input?_congr henvironment key.name_mem List.mem_cons_self
      key.name_ne_directory.symm
  · intro defaults defaults' hagree other
    by_cases hother : other = key
    · subst hother
      exact pick_congr (fun hnone => absurd hnone hgiven) fun hnone => absurd hnone hgiven
    · have hname : other.name ≠ key.name := fun heq => hother (Key.name_inj heq)
      refine pick_congr (fun _ => ?_) fun _ _ => hagree _ (by simpa using hname)
      exact Environment.input?_congr henvironment key.name_mem other.name_mem hname

theorem resolve_of_variable {key : Key} {raw : String} (hgives : environment.Gives key.name raw)
    (htree : ConfiguredAlike [key.name] (requestedDirectory overrides environment cwd)
      (overrides.config.map cwd.join) tree tree') :
    resolve tree' overrides environment cwd = resolve tree overrides environment cwd := by
  refine resolve_congr rfl htree ?_
  intro defaults defaults' hagree other
  refine pick_congr (fun _ => rfl) fun _ hinput => hagree _ ?_
  rw [List.mem_singleton]
  intro heq
  rw [heq] at hinput
  exact Environment.input?_eq_none_iff.mp hinput raw hgives

theorem resolve_of_blank {option : String} (hoption : option ∈ variableOptions)
    (henvironment : AgreeExcept [inputName option] environment environment')
    (hblank : ∀ raw, ¬environment.Gives option raw)
    (hblank' : ∀ raw, ¬environment'.Gives option raw) :
    resolve tree overrides environment' cwd = resolve tree overrides environment cwd := by
  have hinput : ∀ other ∈ variableOptions,
      environment'.input? other = environment.input? other := by
    intro other hother
    by_cases heq : other = option
    · rw [heq, Environment.input?_eq_none_iff.mpr hblank, Environment.input?_eq_none_iff.mpr hblank']
    · exact Environment.input?_congr henvironment hoption hother heq
  refine resolve_congr (requestedDirectory_congr fun _ => hinput _ List.mem_cons_self)
    (.refl [] _ _ tree) ?_
  intro defaults defaults' hagree key
  exact pick_congr (fun _ => hinput _ key.name_mem) fun _ _ => hagree _ List.not_mem_nil

/-- With a directory on the command line, neither the variable matters nor what the trees hold
elsewhere. -/
theorem resolve_of_directory {path : Path} (hgiven : overrides.directory = some path)
    (henvironment : AgreeExcept [inputName "directory"] environment environment')
    (htree : ConfiguredAlike [] (locateDirectory cwd (some path)) (overrides.config.map cwd.join)
      tree tree') :
    resolve tree' overrides environment' cwd = resolve tree overrides environment cwd := by
  have hplace : requestedDirectory overrides environment cwd = locateDirectory cwd (some path) := by
    simp [requestedDirectory, hgiven]
  refine resolve_congr (requestedDirectory_congr fun hnone => ?_) (hplace ▸ htree) ?_
  · rw [hgiven] at hnone
    cases hnone
  · intro defaults defaults' hagree key
    refine pick_congr (fun _ => ?_) fun _ _ => hagree _ List.not_mem_nil
    exact Environment.input?_congr henvironment List.mem_cons_self key.name_mem
      key.name_ne_directory

theorem exists_reads_of_resolve {options : Options}
    (h : resolve tree overrides environment cwd = .ok options) :
    ∃ defaults, defaultsIn tree (requestedDirectory overrides environment cwd)
        (overrides.config.map cwd.join) = .ok defaults ∧
      ∀ key : Key, ∃ value, key.Has overrides environment defaults value ∧
        key.Reads options value := by
  obtain ⟨defaults, proposed, hloaded, hproposes, hvalid⟩ := exists_proposed_of_resolve h
  obtain ⟨-, -, -, rfl⟩ := validate_eq_ok_iff.mp hvalid
  exact ⟨defaults, hloaded, fun key =>
    ⟨_, key.has_pick overrides environment defaults, hproposes.reads key⟩⟩

end

/-- What the layers below the first one say of an option changes nothing, not even the error: what
the command line gives hides the variable and the configuration, and a variable that is not blank
hides the configuration. A blank variable is as good as none. The directory of the command line
hides the variable for it, whatever lies in other directories. Accepted options hold what is read
from the first layer that has them. -/
theorem resolve_reads_first_layer (overrides : Overrides) (cwd : Path) :
    (∀ (key : Key) (environment environment' : Environment) (tree tree' : Tree),
      key.override? overrides ≠ none →
      AgreeExcept [inputName key.name] environment environment' →
      ConfiguredAlike [key.name] (requestedDirectory overrides environment cwd)
        (overrides.config.map cwd.join) tree tree' →
      resolve tree' overrides environment' cwd = resolve tree overrides environment cwd) ∧
    (∀ (key : Key) (raw : String) (environment : Environment) (tree tree' : Tree),
      environment.Gives key.name raw →
      ConfiguredAlike [key.name] (requestedDirectory overrides environment cwd)
        (overrides.config.map cwd.join) tree tree' →
      resolve tree' overrides environment cwd = resolve tree overrides environment cwd) ∧
    (∀ option ∈ variableOptions, ∀ (environment environment' : Environment) (tree : Tree),
      AgreeExcept [inputName option] environment environment' →
      (∀ raw, ¬environment.Gives option raw) → (∀ raw, ¬environment'.Gives option raw) →
      resolve tree overrides environment' cwd = resolve tree overrides environment cwd) ∧
    (∀ (path : Path) (environment environment' : Environment) (tree tree' : Tree),
      overrides.directory = some path →
      AgreeExcept [inputName "directory"] environment environment' →
      ConfiguredAlike [] (locateDirectory cwd (some path)) (overrides.config.map cwd.join)
        tree tree' →
      resolve tree' overrides environment' cwd = resolve tree overrides environment cwd) ∧
    ∀ (environment : Environment) (tree : Tree) (options : Options),
      resolve tree overrides environment cwd = .ok options →
      ∃ defaults, defaultsIn tree (requestedDirectory overrides environment cwd)
          (overrides.config.map cwd.join) = .ok defaults ∧
        ∀ key : Key, ∃ value, key.Has overrides environment defaults value ∧
          key.Reads options value := by
  refine ⟨?_, ?_, ?_, ?_, ?_⟩
  · intro key environment environment' tree tree' hgiven henvironment htree
    exact resolve_of_override hgiven henvironment htree
  · intro key raw environment tree tree' hgives htree
    exact resolve_of_variable hgives htree
  · intro option hoption environment environment' tree henvironment hblank hblank'
    exact resolve_of_blank hoption henvironment hblank hblank'
  · intro path environment environment' tree tree' hgiven henvironment htree
    exact resolve_of_directory hgiven henvironment htree
  · intro environment tree options hresolved
    exact exists_reads_of_resolve hresolved

-- ---------------------------------------------------------------------------
-- A timeout in every layer
-- ---------------------------------------------------------------------------

def timeoutTree (digits : String) : Tree :=
  configuredTree (("[phpsyntax]\ntimeout = " ++ digits).toList.flatMap Text.Utf8.encodeChar)

theorem configuredAlike_timeoutTree : ConfiguredAlike ["timeout"] configuredDirectory none
    (timeoutTree "30") (timeoutTree "-3") where
  hasNode_eq := by cbv
  hasDirectory_eq := by cbv
  loadedAlike := by
    rw [timeoutTree, defaults_configured (document_timeout (i := 30) (by decide +kernel)),
      timeoutTree, defaults_configured (document_timeout (i := -3) (by decide +kernel))]
    exact .loaded (.single "timeout" _ _)

/-- A timeout of five seconds on the command line hides a text and a negative number; one of twenty
seconds in the variable hides the negative number. -/
theorem resolve_reads_first_layer_sample :
    let overrides : Overrides := { timeout := some (.ofRatio false 5 1) }
    resolve (timeoutTree "-3") overrides [("INPUT_TIMEOUT", "soon")] configuredDirectory =
        resolve (timeoutTree "30") overrides [("INPUT_TIMEOUT", "20")] configuredDirectory ∧
      resolve (timeoutTree "-3") {} [("INPUT_TIMEOUT", "20")] configuredDirectory =
        resolve (timeoutTree "30") {} [("INPUT_TIMEOUT", "20")] configuredDirectory := by
  intro overrides
  have hvariable : inputName Key.timeout.name = "INPUT_TIMEOUT" := by decide
  refine ⟨?_, ?_⟩
  · refine (resolve_reads_first_layer overrides configuredDirectory).1 .timeout _ _ _ _ ?_ ?_ ?_
    · rintro ⟨⟩
    · rw [hvariable]
      exact .single "INPUT_TIMEOUT" _ _
    · exact configuredAlike_timeoutTree
  · refine (resolve_reads_first_layer {} configuredDirectory).2.1 .timeout "20" _ _ _ ?_ ?_
    · exact ⟨by rw [hvariable]; rfl, by decide⟩
    · exact configuredAlike_timeoutTree

end Options

end LintRun
