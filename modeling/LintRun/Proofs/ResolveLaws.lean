import Mathlib
import LintRun.Options.Layers
import LintRun.Proofs.Number.RangeLaws
import LintRun.Proofs.ShownValues
import LintRun.Proofs.Text.Utf8Laws
import LintRun.Proofs.TreeLaws

/-!
# Resolving options

Once a configuration is loaded, the layers give options if these are acceptable and else say which
one is not, with two exceptions: an integer for the timeout that has no nearest number
(`Oversized`), and an interpreter with an overlong integer in it (`Unshowable`). Before that, what
fails is the loading of the configuration, or the look at a directory whose path is too long or out
of reach (`resolve_cases`).
-/

namespace LintRun

-- ---------------------------------------------------------------------------
-- Looking at a path
-- ---------------------------------------------------------------------------

namespace Tree

variable {tree : Tree} {path : Path}

/-- The system does not tell what is at the path: it is too long, or a name on the way that it leads
is, or a directory on the way may not be searched. -/
def Refuses (tree : Tree) (path : Path) (error : OsError) : Prop :=
  path.text.contains '\x00' = false ∧ ∃ e, IsRefusal e ∧
    tree.find path = .error e ∧ error = e.error (.name path.text)

theorem find_errno {e : Errno} (h : tree.find path = .error e) :
    (e = .noEntry ∨ e = .notDirectory ∨ e = .tooManyLinks) ∨ IsRefusal e := by
  unfold find locate at h
  split at h
  · cases h; exact .inr (.inl rfl)
  · cases hfollow : follow tree .node linkLimit [] (tree.home.join path).names with
    | error other =>
      obtain rfl : other = e := by simpa [hfollow, Except.map, Except.bind] using h
      exact follow_errno hfollow
    | ok there =>
      simp only [hfollow, Except.map, Except.bind] at h
      cases hget : tree.root.get? there.reverse with
      | none =>
        obtain rfl : Errno.noEntry = e := by simpa [hget] using h
        exact .inl (.inl rfl)
      | some node => simp [hget] at h

theorem test_eq_error_iff {p : Node → Bool} {error : OsError} :
    tree.test path p = .error error ↔ tree.Refuses path error := by
  unfold test Refuses
  by_cases hnul : path.text.contains '\x00' = true
  · simp [hnul]
  · cases hfind : tree.find path with
    | ok node => simp [hnul]
    | error e =>
      rcases find_errno hfind with habsent | hrefusal
      · have hother : ¬IsRefusal e := by
          rcases habsent with rfl | rfl | rfl <;> decide
        simp [habsent, hother]
      · have hpresent : ¬(e = .noEntry ∨ e = .notDirectory ∨ e = .tooManyLinks) := by
          rcases hrefusal with rfl | rfl <;> decide
        simp [hnul, hpresent, hrefusal, eq_comm]

theorem not_refuses_of_test {p : Node → Bool} {found : Bool} (h : tree.test path p = .ok found)
    (error : OsError) : ¬tree.Refuses path error := by
  intro hrefuses
  rw [test_eq_error_iff.mpr hrefuses] at h
  cases h

theorem exists_test (h : ∀ error, ¬tree.Refuses path error) (p : Node → Bool) :
    ∃ found, tree.test path p = .ok found := by
  cases htest : tree.test path p with
  | ok found => exact ⟨found, rfl⟩
  | error error => exact absurd (test_eq_error_iff.mp htest) (h error)

/-- Where a node of some kind is, there is a node. -/
theorem hasNode_of_hasDirectory (h : tree.hasDirectory path = .ok true) :
    tree.hasNode path = .ok true := by
  unfold hasDirectory hasNode test at *
  by_cases hnul : path.text.contains '\x00' = true
  · simp [hnul] at h
  · cases hfind : tree.find path with
    | ok node => simp [hnul]
    | error e =>
      rw [if_neg hnul, hfind] at h
      dsimp only at h
      split at h <;> cases h

end Tree

namespace Value

theorem asTimeout_eq_overflow_iff {value : Value} :
    value.asTimeout = .error .overflow ↔ ∃ i, value = .int i ∧ Binary64.OutOfRange i := by
  unfold asTimeout
  cases value with
  | int i =>
    simp only [Value.int.injEq, exists_eq_left', ← Binary64.ofInt?_eq_none_iff]
    cases Binary64.ofInt? i <;> simp
  | text s => cases hread : Binary64.read? s <;> simp [hread]
  | _ => simp

end Value

namespace Options

variable (overrides : Overrides) (environment : Environment) (defaults : Table)

-- ---------------------------------------------------------------------------
-- Reading the layers
-- ---------------------------------------------------------------------------

/-- The options that are read before the timeout have a meaning. -/
structure Readable : Prop where
  included : ∃ paths, (pick environment defaults "include"
    (overrides.included.map textList)).asPaths "include" = .ok paths
  excluded : ∃ paths, (pick environment defaults "exclude"
    (overrides.excluded.map textList)).asPaths "exclude" = .ok paths
  failOnWarnings : ∃ flag, (pick environment defaults "fail-on-warnings"
    (overrides.failOnWarnings.map .bool)).asFlag "fail-on-warnings" = .ok flag
  supportDuplicatedNames : ∃ flag, (pick environment defaults "support-duplicated-names"
    (overrides.supportDuplicatedNames.map .bool)).asFlag "support-duplicated-names" = .ok flag
  debug : ∃ flag, (pick environment defaults "debug"
    (overrides.debug.map .bool)).asFlag "debug" = .ok flag

/-- The timeout is read, and it comes from the configuration as an integer with no number near. -/
structure Oversized : Prop where
  readable : Readable overrides environment defaults
  override_eq : overrides.timeout = none
  input_eq : environment.input? "timeout" = none
  exists_int : ∃ i, defaults.lookup "timeout" = some (.int i) ∧ Binary64.OutOfRange i

/-- The timeout is read as well, but the interpreter comes from the configuration with an overlong
integer in it. -/
structure Unshowable : Prop where
  readable : Readable overrides environment defaults
  timeout : ∃ timeout, (pick environment defaults "timeout"
    (overrides.timeout.map .float)).asTimeout = .ok timeout
  override_eq : overrides.php = none
  input_eq : environment.input? "php" = none
  exists_value : ∃ value, defaults.lookup "php" = some value ∧ value.HasOverlong

/-- The proposed options, each read from the value that was picked for it. -/
structure Proposes (directory : Path) (proposed : Proposed) : Prop where
  directory_eq : proposed.directory = some directory
  included_eq : (pick environment defaults "include"
    (overrides.included.map textList)).asPaths "include" = .ok proposed.included
  excluded_eq : (pick environment defaults "exclude"
    (overrides.excluded.map textList)).asPaths "exclude" = .ok proposed.excluded
  failOnWarnings_eq : (pick environment defaults "fail-on-warnings"
    (overrides.failOnWarnings.map .bool)).asFlag "fail-on-warnings" = .ok proposed.failOnWarnings
  supportDuplicatedNames_eq : (pick environment defaults "support-duplicated-names"
    (overrides.supportDuplicatedNames.map .bool)).asFlag "support-duplicated-names" =
      .ok proposed.supportDuplicatedNames
  debug_eq : (pick environment defaults "debug"
    (overrides.debug.map .bool)).asFlag "debug" = .ok proposed.debug
  timeout_eq : (pick environment defaults "timeout"
    (overrides.timeout.map .float)).asTimeout = .ok proposed.timeout
  php_eq : asPhp (pick environment defaults "php" (overrides.php.map .text)) = .ok proposed.php

/-- The options that a proposal comes to if nothing is wrong with it. -/
def Proposed.accepted (proposed : Proposed) : Options where
  directory := proposed.directory.getD ⟨.root, []⟩
  included := proposed.included
  excluded := proposed.excluded
  failOnWarnings := proposed.failOnWarnings
  supportDuplicatedNames := proposed.supportDuplicatedNames
  debug := proposed.debug
  php := Text.trim proposed.php
  timeout := proposed.timeout

/-- Every option has a meaning, and the directory, the interpreter and the timeout can be used. -/
structure Acceptable (tree : Tree) (directory : Path) : Prop where
  readable : Readable overrides environment defaults
  timeout : ∃ timeout, (pick environment defaults "timeout"
    (overrides.timeout.map .float)).asTimeout = .ok timeout ∧
      ∀ x, timeout = some x → x.atMostZero = false
  php : ∃ php, asPhp (pick environment defaults "php" (overrides.php.map .text)) = .ok php ∧
    Text.allBlank php = false
  isAbsolute : directory.isAbsolute = true
  hasDirectory : tree.hasDirectory directory = .ok true

variable {overrides environment defaults}

theorem Proposes.readable {directory : Path} {proposed : Proposed}
    (h : Proposes overrides environment defaults directory proposed) :
    Readable overrides environment defaults :=
  ⟨⟨_, h.included_eq⟩, ⟨_, h.excluded_eq⟩, ⟨_, h.failOnWarnings_eq⟩,
    ⟨_, h.supportDuplicatedNames_eq⟩, ⟨_, h.debug_eq⟩⟩

theorem pick_eq_int_iff {option : String} {override : Option Value} {i : Int}
    (hoverride : override ≠ some (.int i)) :
    pick environment defaults option override = .int i ↔
      override = none ∧ environment.input? option = none ∧
        defaults.lookup option = some (.int i) := by
  unfold pick
  cases override with
  | some value => simpa using hoverride
  | none =>
    cases environment.input? option with
    | some text => simp
    | none => cases defaults.lookup option <;> simp

theorem oversized_iff : Oversized overrides environment defaults ↔
    Readable overrides environment defaults ∧
      (pick environment defaults "timeout" (overrides.timeout.map .float)).asTimeout =
        .error .overflow := by
  have hpick : ∀ i : Int, pick environment defaults "timeout" (overrides.timeout.map .float) =
      .int i ↔ overrides.timeout = none ∧ environment.input? "timeout" = none ∧
        defaults.lookup "timeout" = some (.int i) := by
    intro i
    rw [pick_eq_int_iff (by simp), Option.map_eq_none_iff]
  simp only [Value.asTimeout_eq_overflow_iff, hpick]
  constructor
  · rintro ⟨hreadable, hoverride, hinput, i, hlookup, hrange⟩
    exact ⟨hreadable, i, ⟨hoverride, hinput, hlookup⟩, hrange⟩
  · rintro ⟨hreadable, i, ⟨hoverride, hinput, hlookup⟩, hrange⟩
    exact ⟨hreadable, hoverride, hinput, i, hlookup, hrange⟩

theorem pick_hasOverlong_iff {option : String} {override : Option Value}
    (hoverride : ∀ value, override = some value → ¬value.HasOverlong) :
    (pick environment defaults option override).HasOverlong ↔
      override = none ∧ environment.input? option = none ∧
        ∃ value, defaults.lookup option = some value ∧ value.HasOverlong := by
  have hnull : ¬Value.null.HasOverlong := by
    intro h
    cases h
  have htext : ∀ s, ¬(Value.text s).HasOverlong := by
    intro s h
    cases h
  unfold pick
  cases override with
  | some value => simpa using hoverride value rfl
  | none =>
    cases environment.input? option with
    | some text => simp [htext]
    | none => cases defaults.lookup option <;> simp [hnull]

theorem asPhp_eq_error_iff {value : Value} {failure : ResolveFailure} :
    asPhp value = .error failure ↔ value.HasOverlong ∧ failure = .overlong := by
  by_cases hlong : value.HasOverlong
  · have hwritten := Value.written_of_hasOverlong hlong
    cases value with
    | null => cases hlong
    | _ => simp [asPhp, hwritten, hlong, eq_comm]
  · have hwritten := Value.written_of_not_hasOverlong hlong
    cases value with
    | null => simp [asPhp, hlong]
    | _ => simp [asPhp, hwritten, hlong]

theorem unshowable_iff : Unshowable overrides environment defaults ↔
    Readable overrides environment defaults ∧
      (∃ timeout, (pick environment defaults "timeout"
        (overrides.timeout.map .float)).asTimeout = .ok timeout) ∧
      asPhp (pick environment defaults "php" (overrides.php.map .text)) = .error .overlong := by
  have htext : ∀ value, overrides.php.map Value.text = some value → ¬value.HasOverlong := by
    intro value hvalue hlong
    obtain ⟨php, -, rfl⟩ := Option.map_eq_some_iff.mp hvalue
    cases hlong
  rw [asPhp_eq_error_iff, pick_hasOverlong_iff htext, Option.map_eq_none_iff]
  constructor
  · rintro ⟨hreadable, htimeout, hoverride, hinput, hvalue⟩
    exact ⟨hreadable, htimeout, ⟨hoverride, hinput, hvalue⟩, rfl⟩
  · rintro ⟨hreadable, htimeout, ⟨hoverride, hinput, hvalue⟩, -⟩
    exact ⟨hreadable, htimeout, hoverride, hinput, hvalue⟩

-- ---------------------------------------------------------------------------
-- What can fail
-- ---------------------------------------------------------------------------

section
variable {α β : Type} {f : α → Except ResolveFailure β} {failure : ResolveFailure}

theorem asPhp_bind_eq_error_iff {value : Value} {f : String → Except ResolveFailure β} :
    (asPhp value >>= f) = .error failure ↔
      (asPhp value = .error .overlong ∧ failure = .overlong) ∨
        ∃ php, asPhp value = .ok php ∧ f php = .error failure := by
  cases hphp : asPhp value with
  | ok php => simp [bind, Except.bind]
  | error other =>
    obtain ⟨-, rfl⟩ := asPhp_eq_error_iff.mp hphp
    simp [bind, Except.bind, eq_comm]

variable (h : ∀ error, failure ≠ .option error)

include h

theorem liftOption_bind_eq_error_iff {read : Except OptionError α} :
    (liftOption read >>= f) = .error failure ↔ ∃ a, read = .ok a ∧ f a = .error failure := by
  cases read with
  | ok a => simp [liftOption, bind, Except.bind]
  | error e => simpa [liftOption, bind, Except.bind] using fun heq => h e heq.symm

theorem liftTimeout_bind_eq_error_iff {read : Except TimeoutFailure α} :
    (liftTimeout read >>= f) = .error failure ↔
      (read = .error .overflow ∧ failure = .overflow) ∨
        ∃ a, read = .ok a ∧ f a = .error failure := by
  cases read with
  | ok a => simp [liftTimeout, bind, Except.bind]
  | error timeoutFailure =>
    cases timeoutFailure with
    | invalid e => simpa [liftTimeout, bind, Except.bind] using fun heq => h e heq.symm
    | overflow => simp [liftTimeout, bind, Except.bind, eq_comm]

theorem propose_eq_error_iff {directory : Path} :
    propose overrides environment defaults directory = .error failure ↔
      (Oversized overrides environment defaults ∧ failure = .overflow) ∨
      (Unshowable overrides environment defaults ∧ failure = .overlong) := by
  unfold propose
  simp only [liftOption_bind_eq_error_iff h, liftTimeout_bind_eq_error_iff h, oversized_iff,
    unshowable_iff, asPhp_bind_eq_error_iff]
  constructor
  · rintro ⟨included, hincluded, excluded, hexcluded, failOnWarnings, hfailOnWarnings,
      supportDuplicatedNames, hsupportDuplicatedNames, debug, hdebug, hlater⟩
    have hreadable : Readable overrides environment defaults :=
      ⟨⟨included, hincluded⟩, ⟨excluded, hexcluded⟩, ⟨failOnWarnings, hfailOnWarnings⟩,
        ⟨supportDuplicatedNames, hsupportDuplicatedNames⟩, ⟨debug, hdebug⟩⟩
    rcases hlater with ⟨htimeout, rfl⟩ | ⟨timeout, htimeout, ⟨hphp, rfl⟩ | ⟨php, -, hproposed⟩⟩
    · exact .inl ⟨⟨hreadable, htimeout⟩, rfl⟩
    · exact .inr ⟨⟨hreadable, ⟨timeout, htimeout⟩, hphp⟩, rfl⟩
    · cases hproposed
  · rintro (⟨⟨⟨⟨included, hincluded⟩, ⟨excluded, hexcluded⟩, ⟨failOnWarnings, hfailOnWarnings⟩,
      ⟨supportDuplicatedNames, hsupportDuplicatedNames⟩, ⟨debug, hdebug⟩⟩, htimeout⟩, rfl⟩ |
      ⟨⟨⟨⟨included, hincluded⟩, ⟨excluded, hexcluded⟩, ⟨failOnWarnings, hfailOnWarnings⟩,
      ⟨supportDuplicatedNames, hsupportDuplicatedNames⟩, ⟨debug, hdebug⟩⟩, ⟨timeout, htimeout⟩,
      hphp⟩, rfl⟩)
    · exact ⟨included, hincluded, excluded, hexcluded, failOnWarnings, hfailOnWarnings,
        supportDuplicatedNames, hsupportDuplicatedNames, debug, hdebug, .inl ⟨htimeout, rfl⟩⟩
    · exact ⟨included, hincluded, excluded, hexcluded, failOnWarnings, hfailOnWarnings,
        supportDuplicatedNames, hsupportDuplicatedNames, debug, hdebug,
        .inr ⟨timeout, htimeout, .inl ⟨hphp, rfl⟩⟩⟩

end

section
variable {α β : Type} {f : α → Except ResolveFailure β} {b : β}

theorem liftOption_bind_eq_ok_iff {read : Except OptionError α} :
    (liftOption read >>= f) = .ok b ↔ ∃ a, read = .ok a ∧ f a = .ok b := by
  cases read <;> simp [liftOption, bind, Except.bind]

theorem liftTimeout_bind_eq_ok_iff {read : Except TimeoutFailure α} :
    (liftTimeout read >>= f) = .ok b ↔ ∃ a, read = .ok a ∧ f a = .ok b := by
  rcases read with (_ | _) | _ <;> simp [liftTimeout, bind, Except.bind]

end

section
variable {tree : Tree} {directory : Path} {proposed : Proposed}

theorem asPhp_bind_eq_ok_iff {β : Type} {value : Value} {b : β}
    {f : String → Except ResolveFailure β} :
    (asPhp value >>= f) = .ok b ↔ ∃ php, asPhp value = .ok php ∧ f php = .ok b := by
  cases asPhp value <;> simp [bind, Except.bind]

theorem propose_eq_ok_iff : propose overrides environment defaults directory = .ok proposed ↔
    Proposes overrides environment defaults directory proposed := by
  unfold propose
  simp only [liftOption_bind_eq_ok_iff, liftTimeout_bind_eq_ok_iff, asPhp_bind_eq_ok_iff]
  constructor
  · rintro ⟨included, hincluded, excluded, hexcluded, failOnWarnings, hfailOnWarnings,
      supportDuplicatedNames, hsupportDuplicatedNames, debug, hdebug, timeout, htimeout, php, hphp,
      ⟨⟩⟩
    exact ⟨rfl, hincluded, hexcluded, hfailOnWarnings, hsupportDuplicatedNames, hdebug, htimeout,
      hphp⟩
  · rintro ⟨hdirectory, hincluded, hexcluded, hfailOnWarnings, hsupportDuplicatedNames, hdebug,
      htimeout, hphp⟩
    refine ⟨_, hincluded, _, hexcluded, _, hfailOnWarnings, _, hsupportDuplicatedNames, _, hdebug,
      _, htimeout, _, hphp, ?_⟩
    rw [← hdirectory]
    rfl

theorem exists_directoryError? (h : ∀ error, ¬tree.Refuses directory error) :
    ∃ problem, directoryError? tree (some directory) = .ok problem := by
  obtain ⟨hasNode, hnode⟩ := Tree.exists_test h fun _ => true
  obtain ⟨hasDirectory, hdirectory⟩ := Tree.exists_test h Node.isDirectory
  simp only [directoryError?, Tree.hasNode, Tree.hasDirectory, hnode, hdirectory]
  cases directory.isAbsolute <;> cases hasNode <;> cases hasDirectory <;> exact ⟨_, rfl⟩

theorem directoryError?_eq_none_iff : directoryError? tree (some directory) = .ok none ↔
    directory.isAbsolute = true ∧ tree.hasDirectory directory = .ok true := by
  constructor
  · intro h
    cases habsolute : directory.isAbsolute with
    | false => simp [directoryError?, habsolute] at h
    | true =>
      rcases hnode : tree.hasNode directory with e | _ | _ <;>
        rcases hfound : tree.hasDirectory directory with e | _ | _ <;>
        simp [directoryError?, habsolute, hnode, hfound, bind, Except.bind, pure, Except.pure]
          at h ⊢
  · rintro ⟨habsolute, hfound⟩
    simp [directoryError?, habsolute, Tree.hasNode_of_hasDirectory hfound, hfound, bind,
      Except.bind, pure, Except.pure]

theorem phpError?_eq_none_iff {php : String} :
    phpError? php = none ↔ Text.allBlank php = false := by
  cases hblank : Text.allBlank php <;> simp [phpError?, hblank]

theorem timeoutError?_eq_none_iff {timeout : Option Binary64} :
    timeoutError? timeout = none ↔ ∀ x, timeout = some x → x.atMostZero = false := by
  cases timeout <;> simp [timeoutError?]

theorem validate_eq_ok_iff {options : Options} : validate tree proposed = .ok options ↔
    directoryError? tree proposed.directory = .ok none ∧ phpError? proposed.php = none ∧
      timeoutError? proposed.timeout = none ∧ proposed.accepted = options := by
  unfold validate
  cases directoryError? tree proposed.directory with
  | error e => simp
  | ok problem =>
    cases problem <;> cases phpError? proposed.php <;> cases timeoutError? proposed.timeout <;>
      simp [Proposed.accepted]

theorem exists_validate_iff : (∃ options, validate tree proposed = .ok options) ↔
    directoryError? tree proposed.directory = .ok none ∧ phpError? proposed.php = none ∧
      timeoutError? proposed.timeout = none := by
  simp [validate_eq_ok_iff]

theorem validate_cases (hdirectory : proposed.directory = some directory)
    (h : ∀ error, ¬tree.Refuses directory error) :
    (∃ options, validate tree proposed = .ok options) ∨
      ∃ first rest, validate tree proposed = .error (.options first rest) := by
  obtain ⟨problem, hproblem⟩ := exists_directoryError? h
  unfold validate
  rw [hdirectory, hproblem]
  dsimp only
  split
  · exact .inr ⟨_, _, rfl⟩
  · exact .inl ⟨_, rfl⟩

theorem ofLayers_eq_ok_iff {options : Options} :
    ofLayers tree overrides environment defaults directory = .ok options ↔
      ∃ proposed, propose overrides environment defaults directory = .ok proposed ∧
        validate tree proposed = .ok options := by
  unfold ofLayers
  cases propose overrides environment defaults directory with
  | error failure => simp [bind, Except.bind]
  | ok proposed =>
    rcases hvalid : validate tree proposed with (_ | ⟨first, rest⟩) | found <;>
      simp [bind, Except.bind, hvalid]

theorem exists_ofLayers_iff :
    (∃ options, ofLayers tree overrides environment defaults directory = .ok options) ↔
      Acceptable overrides environment defaults tree directory := by
  simp only [ofLayers_eq_ok_iff]
  constructor
  · rintro ⟨options, proposed, hproposed, hvalid⟩
    have h := propose_eq_ok_iff.mp hproposed
    obtain ⟨hdirectory, hphp, htimeout⟩ := exists_validate_iff.mp ⟨options, hvalid⟩
    rw [h.directory_eq, directoryError?_eq_none_iff] at hdirectory
    rw [phpError?_eq_none_iff] at hphp
    rw [timeoutError?_eq_none_iff] at htimeout
    exact ⟨h.readable, ⟨_, h.timeout_eq, htimeout⟩, ⟨_, h.php_eq, hphp⟩, hdirectory.1, hdirectory.2⟩
  · rintro ⟨⟨⟨included, hincluded⟩, ⟨excluded, hexcluded⟩, ⟨failOnWarnings, hfailOnWarnings⟩,
      ⟨supportDuplicatedNames, hsupportDuplicatedNames⟩, ⟨debug, hdebug⟩⟩,
      ⟨timeout, hread, htimeout⟩, ⟨php, hnamed, hphp⟩, habsolute, hfound⟩
    rw [← timeoutError?_eq_none_iff] at htimeout
    rw [← phpError?_eq_none_iff] at hphp
    have hdirectory := directoryError?_eq_none_iff.mpr ⟨habsolute, hfound⟩
    let proposed : Proposed := {
      directory := some directory
      included, excluded, failOnWarnings, supportDuplicatedNames, debug, php, timeout }
    have hproposes : Proposes overrides environment defaults directory proposed :=
      ⟨rfl, hincluded, hexcluded, hfailOnWarnings, hsupportDuplicatedNames, hdebug, hread, hnamed⟩
    obtain ⟨options, hoptions⟩ : ∃ options, validate tree proposed = .ok options :=
      exists_validate_iff.mpr ⟨hdirectory, hphp, htimeout⟩
    exact ⟨options, proposed, propose_eq_ok_iff.mpr hproposes, hoptions⟩

variable (overrides environment defaults)

theorem ofLayers_cases (h : ∀ error, ¬tree.Refuses directory error) :
    (¬Oversized overrides environment defaults ∧ ¬Unshowable overrides environment defaults ∧
      ((∃ options, ofLayers tree overrides environment defaults directory = .ok options) ∨
        ∃ error, ofLayers tree overrides environment defaults directory =
          .error (.option error))) ∨
    (Oversized overrides environment defaults ∧
      ofLayers tree overrides environment defaults directory = .error .overflow) ∨
    (Unshowable overrides environment defaults ∧
      ofLayers tree overrides environment defaults directory = .error .overlong) := by
  have hoverflow : Oversized overrides environment defaults ↔
      propose overrides environment defaults directory = .error .overflow := by
    simp [propose_eq_error_iff]
  have hoverlong : Unshowable overrides environment defaults ↔
      propose overrides environment defaults directory = .error .overlong := by
    simp [propose_eq_error_iff]
  rw [hoverflow, hoverlong]
  unfold ofLayers
  cases hproposed : propose overrides environment defaults directory with
  | ok proposed =>
    refine .inl ⟨by simp, by simp, ?_⟩
    rcases validate_cases (propose_eq_ok_iff.mp hproposed).directory_eq h with ⟨options, hvalid⟩ |
      ⟨first, rest, hinvalid⟩
    · exact .inl ⟨options, by simp [bind, Except.bind, hvalid]⟩
    · exact .inr ⟨first, by simp [bind, Except.bind, hinvalid]⟩
  | error failure =>
    cases failure with
    | option error => exact .inl ⟨by simp, by simp, .inr ⟨error, rfl⟩⟩
    | overflow => exact .inr (.inl ⟨rfl, rfl⟩)
    | overlong => exact .inr (.inr ⟨rfl, rfl⟩)
    | config | system => simpa using (propose_eq_error_iff (by simp)).mp hproposed

variable (tree directory) in
theorem defaultsIn_cases (config : Option Path) :
    ((∀ error, ¬tree.Refuses directory error) ∧
      ∃ defaults, defaultsIn tree directory config = .ok defaults) ∨
    (∃ failure, Config.defaults tree directory config = .error failure ∧
      defaultsIn tree directory config = .error (.config failure)) ∨
    ∃ error, tree.Refuses directory error ∧
      defaultsIn tree directory config = .error (.system error) := by
  unfold defaultsIn Tree.hasDirectory
  cases htest : tree.test directory Node.isDirectory with
  | error error => exact .inr (.inr ⟨error, Tree.test_eq_error_iff.mp htest, rfl⟩)
  | ok found =>
    have htold := Tree.not_refuses_of_test htest
    cases found with
    | false => exact .inl ⟨htold, [], rfl⟩
    | true =>
      cases hloaded : Config.defaults tree directory config with
      | ok table => exact .inl ⟨htold, table, by simp⟩
      | error failure => exact .inr (.inl ⟨failure, rfl, by simp⟩)

/-- A loaded configuration gives options if they are acceptable and else the error of an option,
unless the timeout is an integer out of range or the interpreter cannot be shown. Otherwise the
configuration was not loaded, or the directory could not be looked at. -/
theorem resolve_cases (tree : Tree) (cwd : Path) :
    let directory := requestedDirectory overrides environment cwd
    let config := overrides.config.map cwd.join
    let loaded := defaultsIn tree directory config
    let resolved := resolve tree overrides environment cwd
    (∃ defaults, loaded = .ok defaults ∧
      Acceptable overrides environment defaults tree directory ∧
      ∃ options, resolved = .ok options) ∨
    (∃ defaults, loaded = .ok defaults ∧
      ¬Acceptable overrides environment defaults tree directory ∧
      ¬Oversized overrides environment defaults ∧ ¬Unshowable overrides environment defaults ∧
      ∃ error, resolved = .error (.option error)) ∨
    (∃ defaults, loaded = .ok defaults ∧ Oversized overrides environment defaults ∧
      resolved = .error .overflow) ∨
    (∃ defaults, loaded = .ok defaults ∧ Unshowable overrides environment defaults ∧
      resolved = .error .overlong) ∨
    (∃ failure, Config.defaults tree directory config = .error failure ∧
      resolved = .error (.config failure)) ∨
    ∃ error, tree.Refuses directory error ∧ resolved = .error (.system error) := by
  intro directory config loaded resolved
  have hresolved : resolved = loaded.bind fun defaults =>
      ofLayers tree overrides environment defaults directory := rfl
  rcases defaultsIn_cases tree directory config with ⟨htold, defaults, hloaded⟩ |
    ⟨failure, hfailed, hloaded⟩ | ⟨error, hrefuses, hloaded⟩
  · have hlayers : resolved = ofLayers tree overrides environment defaults directory :=
      hresolved.trans (congrArg (Except.bind · _) hloaded)
    have haccepted := @exists_ofLayers_iff overrides environment defaults tree directory
    rw [← hlayers] at haccepted
    rcases ofLayers_cases overrides environment defaults htold with
      ⟨hfinite, hshowable, ⟨options, hoptions⟩ | ⟨error, herror⟩⟩ | ⟨hoversized, hoverflow⟩ |
      ⟨hunshowable, hoverlong⟩
    · rw [← hlayers] at hoptions
      exact .inl ⟨defaults, hloaded, haccepted.mp ⟨options, hoptions⟩, options, hoptions⟩
    · rw [← hlayers] at herror
      refine .inr (.inl ⟨defaults, hloaded, fun hacceptable => ?_, hfinite, hshowable, error,
        herror⟩)
      obtain ⟨options, hoptions⟩ := haccepted.mpr hacceptable
      rw [herror] at hoptions
      cases hoptions
    · exact .inr (.inr (.inl ⟨defaults, hloaded, hoversized, hlayers.trans hoverflow⟩))
    · exact .inr (.inr (.inr (.inl ⟨defaults, hloaded, hunshowable, hlayers.trans hoverlong⟩)))
  · exact .inr (.inr (.inr (.inr (.inl
      ⟨failure, hfailed, hresolved.trans (congrArg (Except.bind · _) hloaded)⟩))))
  · exact .inr (.inr (.inr (.inr (.inr
      ⟨error, hrefuses, hresolved.trans (congrArg (Except.bind · _) hloaded)⟩))))

end

-- ---------------------------------------------------------------------------
-- A timeout out of range
-- ---------------------------------------------------------------------------

def configuredTree (content : Text.Bytes) : Tree where
  root := .directory [("w", .directory [(Config.fileName, .file content false)])]

def configuredDirectory : Path := ⟨.root, ["w"]⟩

theorem hasDirectory_configured (content : Text.Bytes) :
    (configuredTree content).hasDirectory configuredDirectory = .ok true := by cbv

theorem reading_configured (content : Text.Bytes) :
    Config.reading (configuredTree content) (configuredDirectory.child Config.fileName) =
      .ok (.ok content) := by cbv

theorem defaults_configured {content : Text.Bytes} {entries : Table}
    (h : Config.document content = .ok [(Config.sectionName, .table entries)]) :
    Config.defaults (configuredTree content) configuredDirectory none = .ok entries := by
  simp [Config.defaults, Config.load, reading_configured, Except.bind, Except.map,
    Config.implicit, Config.ofReading, h, Config.optionsOf]

theorem defaultsIn_configured {content : Text.Bytes} {entries : Table}
    (h : Config.document content = .ok [(Config.sectionName, .table entries)]) :
    defaultsIn (configuredTree content) configuredDirectory none = .ok entries := by
  simp only [defaultsIn, hasDirectory_configured, defaults_configured h]

theorem defaultsIn_unconfigured :
    defaultsIn (configuredTree []) configuredDirectory none = .ok [] := by cbv

theorem resolve_configured {content : Text.Bytes} {entries : Table}
    (h : Config.document content = .ok [(Config.sectionName, .table entries)]) :
    resolve (configuredTree content) {} [] configuredDirectory =
      ofLayers (configuredTree content) {} [] entries configuredDirectory := by
  have hlayers : resolve (configuredTree content) {} [] configuredDirectory =
      (defaultsIn (configuredTree content) configuredDirectory none).bind fun defaults =>
        ofLayers (configuredTree content) {} [] defaults configuredDirectory := rfl
  rw [hlayers, defaultsIn_configured h]
  rfl

/-- The table of a document with nothing but a timeout, if the document is one. -/
def timeoutOnly? : Table → Option Int
  | [(name, .table [(option, .int i)])] =>
    if name = Config.sectionName ∧ option = "timeout" then some i else none
  | _ => none

theorem timeoutOnly?_eq_some {table : Table} {i : Int} (h : timeoutOnly? table = some i) :
    table = [(Config.sectionName, .table [("timeout", .int i)])] := by
  unfold timeoutOnly? at h
  split at h
  · split at h
    · rename_i hnames
      obtain ⟨rfl, rfl⟩ := hnames
      cases h
      rfl
    · cases h
  · cases h

/-- A timeout of two to the power of 1024, in hexadecimal digits. -/
def oversizedText : List Char :=
  "[phpsyntax]\ntimeout = 0x1".toList ++ List.replicate 256 '0'

def oversizedContent : Text.Bytes :=
  oversizedText.flatMap Text.Utf8.encodeChar

/-- Tables have no decidable equality, so that it is the integer of a document that is compared. -/
theorem document_timeout {text : List Char} {i : Int}
    (h : (Toml.parse? (Text.unifyNewlines text)).bind timeoutOnly? = some i) :
    Config.document (text.flatMap Text.Utf8.encodeChar) =
      .ok [(Config.sectionName, .table [("timeout", .int i)])] := by
  have hdecoded : Text.Utf8.decode? (text.flatMap Text.Utf8.encodeChar) = some text :=
    Text.Utf8.decode?_eq_some_iff.mpr rfl
  obtain ⟨table, hparsed, htable⟩ := Option.bind_eq_some_iff.mp h
  obtain rfl := timeoutOnly?_eq_some htable
  simp [Config.document, hdecoded, hparsed]

theorem document_oversized :
    Config.document oversizedContent =
      .ok [(Config.sectionName, .table [("timeout", .int (16 ^ 256))])] :=
  document_timeout (by decide +kernel)

theorem oversized_sample : Oversized {} [] [("timeout", .int (16 ^ 256))] where
  readable := ⟨⟨_, rfl⟩, ⟨_, rfl⟩, ⟨_, rfl⟩, ⟨_, rfl⟩, ⟨_, rfl⟩⟩
  override_eq := rfl
  input_eq := rfl
  exists_int := ⟨16 ^ 256, rfl, by decide +kernel⟩

/-- A loaded configuration of which neither options come nor an error of an option. -/
theorem resolve_overflows :
    (∃ defaults, defaultsIn (configuredTree oversizedContent) configuredDirectory none =
      .ok defaults) ∧
    ¬((∃ options, resolve (configuredTree oversizedContent) {} [] configuredDirectory =
        .ok options) ∨
      ∃ error, resolve (configuredTree oversizedContent) {} [] configuredDirectory =
        .error (.option error)) := by
  have hloaded := defaultsIn_configured document_oversized
  have htold := Tree.not_refuses_of_test (hasDirectory_configured oversizedContent)
  rw [resolve_configured document_oversized]
  refine ⟨⟨_, hloaded⟩, ?_⟩
  rcases ofLayers_cases {} [] [("timeout", .int (16 ^ 256))] htold with ⟨hnot, -⟩ |
    ⟨-, hoverflow⟩ | ⟨-, hoverlong⟩
  · exact absurd oversized_sample hnot
  · rw [hoverflow]
    rintro (⟨options, ⟨⟩⟩ | ⟨error, ⟨⟩⟩)
  · rw [hoverlong]
    rintro (⟨options, ⟨⟩⟩ | ⟨error, ⟨⟩⟩)

end Options

end LintRun
