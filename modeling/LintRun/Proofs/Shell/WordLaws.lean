import LintRun.Proofs.Shell.QuoteLaws
import LintRun.Proofs.Shell.ReaderLaws
import LintRun.Shell.Pattern
import Mathlib.Data.List.Forall2

/-!
# Quoted texts in the grammar

The grammar reads a quoted text as one word, whatever follows it. The word has no expansions and no
pattern and stands for the text. What an assignment gives to a name is read in the same way.
-/

namespace LintRun.Shell

-- ---------------------------------------------------------------------------
-- Characters
-- ---------------------------------------------------------------------------

theorem ne_of_isPlain {c d : Char} (h : isPlain c = true) (hd : isPlain d = false) : c ≠ d := by
  rintro rfl
  rw [h] at hd
  cases hd

theorem isPlain_inert {c : Char} (h : isPlain c = true) :
    Reader.endsWord c = false ∧ Reader.startsQuote c = false := by
  have hall : (" \t\n;&|<>()\\'\"$`".toList.all fun d => !isPlain d) = true := by decide
  have hne : ∀ d ∈ " \t\n;&|<>()\\'\"$`".toList, c ≠ d := fun d hd =>
    ne_of_isPlain h (by simpa using List.all_eq_true.mp hall d hd)
  simp at hne
  simp [Reader.endsWord, Reader.startsQuote, isSeparator, hne]

/-- A character that a quoted text can start with. -/
def Opens (c : Char) : Prop :=
  isPlain c = true ∨ c = '\''

theorem Opens.inert {c : Char} (h : Opens c) :
    Reader.endsWord c = false ∧ isSeparator c = false ∧ c ≠ '\\' ∧ c ≠ '#' ∧ c ≠ '\n' ∧ c ≠ '(' ∧
      c ≠ '<' ∧ c ≠ '>' := by
  rcases h with h | rfl
  · have hne {d : Char} (hd : isPlain d = false) : c ≠ d := ne_of_isPlain h hd
    exact ⟨(isPlain_inert h).1, (isPlain_harmless h).1, hne (by decide), hne (by decide),
      hne (by decide), hne (by decide), hne (by decide), hne (by decide)⟩
  · decide

theorem exists_quotePosix (cs : List Char) : ∃ c more, quotePosix cs = c :: more ∧ Opens c := by
  rcases quotePosix_cases cs with ⟨⟨hne, hplain⟩, hquote, -⟩ | ⟨-, hquote, -⟩
  · cases cs with
    | nil => contradiction
    | cons c cs => exact ⟨c, cs, hquote, .inl (hplain c List.mem_cons_self)⟩
  · exact ⟨'\'', _, hquote, .inr rfl⟩

theorem length_le_quotePosix (cs : List Char) : cs.length ≤ (quotePosix cs).length := by
  have hbetween : cs.length ≤ (betweenQuotes cs).length := by
    induction cs with
    | nil => exact Nat.zero_le _
    | cons c cs ih =>
      by_cases hc : c = '\''
      · subst hc
        rw [betweenQuotes_quote, List.length_cons, List.length_append]
        have hquote : quotedQuote.length = 5 := rfl
        omega
      · rw [betweenQuotes_cons hc, List.length_cons, List.length_cons]
        omega
  rcases quotePosix_cases cs with ⟨-, hsame, -⟩ | ⟨-, hquoted, -⟩
  · exact Nat.le_of_eq (congrArg List.length hsame.symm)
  · have hlength : (quotePosix cs).length = (betweenQuotes cs).length + 2 := by
      rw [hquoted, ← List.append_nil (singleQuoted cs), singleQuoted_append]
      simp
    omega

namespace Reader

variable {setting : Setting} {rest : List Char}

/-- What may follow a word here: nothing, or a space. -/
def Apart (rest : List Char) : Prop :=
  ∀ c ∈ rest.head?, c = ' '

theorem Apart.nil : Apart [] :=
  nofun

theorem Apart.space (rest : List Char) : Apart (' ' :: rest) := by
  rintro c ⟨⟩
  rfl

theorem takeWhile_append_of_head {p : Char → Bool} {cs : List Char} (hcs : ∀ c ∈ cs, p c = true)
    (hrest : ∀ c ∈ rest.head?, p c = false) : (cs ++ rest).takeWhile p = cs := by
  rw [List.takeWhile_append_of_pos hcs]
  cases rest with
  | nil => simp
  | cons c rest => simp [hrest c rfl]

theorem takeRun_append {p : Char → Bool} {cs : List Char} (hcs : ∀ c ∈ cs, p c = true)
    (hrest : ∀ c ∈ rest.head?, p c = false) :
    takeRun p setting (cs ++ rest) = .ok (String.ofList cs, rest) := by
  have hdrop : rest.dropWhile p = rest := by
    cases rest with
    | nil => rfl
    | cons c rest => simp [hrest c rfl]
  rw [takeRun_run, takeWhile_append_of_head hcs hrest, List.dropWhile_append_of_pos hcs, hdrop]

-- ---------------------------------------------------------------------------
-- Pieces
-- ---------------------------------------------------------------------------

theorem pieces_apart (h : Apart rest) (fuel : Nat) :
    pieces endsWord (fuel + 1) setting rest = .ok ([], rest) := by
  rw [pieces, bind_of_ok look_run]
  cases rest with
  | nil => rfl
  | cons c rest =>
    obtain rfl := h c rfl
    rfl

theorem pieces_bare {cs : List Char} (hbare : StaysBare cs) (hrest : Apart rest) (fuel : Nat) :
    pieces endsWord (fuel + 2) setting (cs ++ rest) = .ok ([.plain (String.ofList cs)], rest) := by
  have hrun : takeRun (fun c => !endsWord c && !startsQuote c) setting (cs ++ rest) =
      .ok (String.ofList cs, rest) := by
    refine takeRun_append (fun c hc => ?_) fun c hc => ?_
    · obtain ⟨hends, hquote⟩ := isPlain_inert (hbare.2 c hc)
      simp [hends, hquote]
    · rw [hrest c hc]
      rfl
  cases cs with
  | nil => exact absurd rfl hbare.1
  | cons c cs =>
    obtain ⟨hends, hquote⟩ := isPlain_inert (hbare.2 c List.mem_cons_self)
    obtain ⟨hbackslash, hsingle, hdouble, hdollar, hback⟩ :
      c ≠ '\\' ∧ c ≠ '\'' ∧ c ≠ '"' ∧ c ≠ '$' ∧ c ≠ '`' := by
      simpa [startsQuote] using hquote
    rw [pieces, bind_of_ok look_run]
    simp only [List.cons_append, hends, Bool.false_eq_true, if_false, hbackslash, hsingle, hdouble,
      hdollar, hback]
    rw [← List.cons_append, bind_of_ok hrun, bind_of_ok (pieces_apart hrest fuel), pure_run]

/-- The characters between single quotes, up to a quote of the text. -/
theorem pieces_run {run : List Char} (hrun : ∀ c ∈ run, c ≠ '\'') (stop : Char → Bool)
    (hstop : stop '\'' = false) (fuel : Nat) (after : List Char) :
    pieces stop (fuel + 1) setting ('\'' :: (run ++ '\'' :: after)) =
      (pieces stop fuel >>= fun ps => pure (.quoted (String.ofList run) :: ps)) setting after := by
  have htake : takeRun (· != '\'') setting (run ++ '\'' :: after) =
      .ok (String.ofList run, '\'' :: after) :=
    takeRun_append (fun c hc => by simpa using hrun c hc) fun c hc => by
      obtain rfl := Option.some.inj hc
      rfl
  have hclose : closeQuote "'" setting ('\'' :: after) = .ok ((), after) := rfl
  rw [pieces, bind_of_ok look_run]
  simp only [hstop, Bool.false_eq_true, if_false, Char.reduceEq, if_true]
  rw [bind_of_ok (drop_run 1), List.drop_one, List.tail_cons, bind_of_ok htake, bind_of_ok hclose]

/-- A single quote between double quotes. -/
theorem pieces_doubleQuoted (setting : Setting) (fuel : Nat) (after : List Char) :
    pieces endsWord (fuel + 3) setting ('"' :: '\'' :: '"' :: after) =
      (pieces endsWord (fuel + 2) >>= fun ps => pure (.quoted "'" :: ps)) setting after := by
  have hinside : quotedPieces false (· == '"') (fuel + 2) setting ('\'' :: '"' :: after) =
      .ok ([.quoted "'"], '"' :: after) := by
    rw [quotedPieces, bind_of_ok look_run]
    rfl
  have hclose : closeQuote "\"" setting ('"' :: after) = .ok ((), after) := rfl
  rw [pieces, bind_of_ok look_run]
  have hends : endsWord '"' = false := by decide
  simp only [hends, Bool.false_eq_true, if_false, Char.reduceEq, if_true]
  rw [bind_of_ok (drop_run 1), List.drop_one, List.tail_cons, bind_of_ok hinside,
    bind_of_ok hclose]
  rfl

end Reader

/-- What the pieces of a word without expansions say, and which characters are quoted. -/
inductive Spells : List Piece → Word → Prop
  | nil : Spells [] []
  | plain (text : String) {rest : List Piece} {word : Word} (h : Spells rest word) :
      Spells (.plain text :: rest) (text.toList.map (⟨·, false⟩) ++ word)
  | quoted (text : String) {rest : List Piece} {word : Word} (h : Spells rest word) :
      Spells (.quoted text :: rest) (text.toList.map (⟨·, true⟩) ++ word)
  | assigned (name : String) {value rest : List Piece} {assigned word : Word}
      (hvalue : Spells value assigned) (h : Spells rest word) :
      Spells (.assigned name value :: rest)
        ((name ++ "=" ++ assigned.text).toList.map (⟨·, true⟩) ++ word)

namespace Reader

variable {setting : Setting} {rest : List Char}

/-- `run` is what has been read between the quotes since the last quote of the text. -/
theorem pieces_single {run : List Char} (hrun : ∀ c ∈ run, c ≠ '\'') (hrest : Apart rest)
    (cs : List Char) {fuel : Nat} (hfuel : 2 * cs.length + 2 ≤ fuel) :
    ∃ ps, pieces endsWord fuel setting ('\'' :: (run ++ (betweenQuotes cs ++ '\'' :: rest))) =
      .ok (ps, rest) ∧ ps ≠ [] ∧ Spells ps ((run ++ cs).map (⟨·, true⟩)) := by
  have hstop : endsWord '\'' = false := by decide
  induction cs generalizing run fuel with
  | nil =>
    obtain ⟨fuel, rfl⟩ := Nat.exists_eq_add_of_le' (show 2 ≤ fuel from hfuel)
    refine ⟨[.quoted (String.ofList run)], ?_, by simp, ?_⟩
    · rw [betweenQuotes, List.flatMap_nil, List.nil_append, pieces_run hrun _ hstop,
        bind_of_ok (pieces_apart hrest fuel), pure_run]
    · simpa using Spells.nil.quoted (String.ofList run)
  | cons c cs ih =>
    rw [List.length_cons] at hfuel
    by_cases hc : c = '\''
    · subst hc
      obtain ⟨fuel, rfl⟩ := Nat.exists_eq_add_of_le' (show 4 ≤ fuel by omega)
      have hinner : 2 * cs.length + 2 ≤ fuel + 2 := by omega
      obtain ⟨ps, hps, -, hspells⟩ := ih (List.forall_mem_nil (· ≠ '\'')) hinner
      rw [List.nil_append] at hps
      refine ⟨.quoted (String.ofList run) :: .quoted "'" :: ps, ?_, by simp, ?_⟩
      · rw [betweenQuotes_quote, List.append_assoc]
        simp only [quotedQuote, List.cons_append, List.nil_append]
        have hafter := pieces_doubleQuoted setting fuel
          ('\'' :: (betweenQuotes cs ++ '\'' :: rest))
        rw [bind_of_ok hps] at hafter
        rw [pieces_run hrun _ hstop, bind_of_ok hafter, pure_run]
      · simpa using (hspells.quoted "'").quoted (String.ofList run)
    · have hlonger : ∀ d ∈ run ++ [c], d ≠ '\'' := by
        intro d hd
        rcases List.mem_append.mp hd with hd | hd
        · exact hrun d hd
        · rwa [List.mem_singleton.mp hd]
      obtain ⟨ps, hps, hne, hspells⟩ := ih hlonger (show 2 * cs.length + 2 ≤ fuel by omega)
      refine ⟨ps, ?_, hne, ?_⟩
      · rw [betweenQuotes_cons hc]
        simpa only [List.append_assoc, List.cons_append, List.nil_append] using hps
      · simpa using hspells

/-- A quoted text is read as a word that says it. -/
theorem pieces_quotePosix (setting : Setting) (hrest : Apart rest) (cs : List Char) {fuel : Nat}
    (hfuel : 2 * cs.length + 2 ≤ fuel) :
    ∃ ps, pieces endsWord fuel setting (quotePosix cs ++ rest) = .ok (ps, rest) ∧ ps ≠ [] ∧
      Spells ps (quotedWord cs) := by
  rcases quotePosix_cases cs with ⟨hbare, hquote, hword⟩ | ⟨-, hquote, hword⟩
  · obtain ⟨fuel, rfl⟩ := Nat.exists_eq_add_of_le' (show 2 ≤ fuel by omega)
    rw [hquote, hword]
    refine ⟨[.plain (String.ofList cs)], pieces_bare hbare hrest fuel, by simp, ?_⟩
    simpa using Spells.nil.plain (String.ofList cs)
  · rw [hquote, hword, singleQuoted_append]
    exact pieces_single (show ∀ c ∈ [], c ≠ '\'' from nofun) hrest cs hfuel

end Reader

-- ---------------------------------------------------------------------------
-- Words that stand for one text
-- ---------------------------------------------------------------------------

/-- The word has no expansions and no pattern, so that it is a single field, with this text. -/
def Stands (word : List Piece) (text : String) : Prop :=
  word ≠ [] ∧ ∃ marks, Spells word marks ∧ marks.text = text ∧ Pattern.isActive marks = false

theorem quotedWord_bare {cs : List Char} {marked : Marked} (h : marked ∈ quotedWord cs)
    (hkept : marked.kept = false) : isPlain marked.char = true := by
  rcases quotePosix_cases cs with ⟨⟨-, hplain⟩, -, hword⟩ | ⟨-, -, hword⟩
  · rw [hword] at h
    obtain ⟨c, hc, rfl⟩ := List.mem_map.mp h
    exact hplain c hc
  · rw [hword] at h
    obtain ⟨c, -, rfl⟩ := List.mem_map.mp h
    cases hkept

theorem isActive_quotedWord (cs : List Char) : Pattern.isActive (quotedWord cs) = false := by
  rw [Pattern.isActive, List.any_eq_false]
  intro marked hmarked
  cases hkept : marked.kept with
  | true => simp
  | false =>
    have hne {d : Char} (hd : isPlain d = false) : marked.char ≠ d :=
      ne_of_isPlain (quotedWord_bare hmarked hkept) hd
    simp [hne (show isPlain '*' = false by decide), hne (show isPlain '?' = false by decide),
      hne (show isPlain '[' = false by decide)]

theorem Spells.mem_plain {word : List Piece} {marks : Word} (h : Spells word marks) {text : String}
    (htext : .plain text ∈ word) : ∀ c ∈ text.toList, ⟨c, false⟩ ∈ marks := by
  induction h with
  | nil => cases htext
  | plain other h ih =>
    intro c hc
    rcases List.mem_cons.mp htext with heq | htext
    · cases heq
      exact List.mem_append_left _ (List.mem_map.mpr ⟨c, hc, rfl⟩)
    · exact List.mem_append_right _ (ih htext c hc)
  | quoted other h ih =>
    intro c hc
    exact List.mem_append_right _ (ih (by simpa using htext) c hc)
  | assigned name hvalue h _ ih =>
    intro c hc
    exact List.mem_append_right _ (ih (by simpa using htext) c hc)

namespace Reader

theorem mem_of_mem_splitOn {separator c : Char} {cs part : List Char}
    (hpart : part ∈ cs.splitOn separator) (hc : c ∈ part) : c ∈ cs := by
  have htext : [separator].intercalate (cs.splitOn separator) = cs :=
    List.intercalate_splitOn separator
  cases hsplit : cs.splitOn separator with
  | nil =>
    rw [hsplit] at hpart
    cases hpart
  | cons first rest =>
    rw [hsplit] at hpart
    rw [← htext, hsplit, intercalate_cons]
    rcases List.mem_cons.mp hpart with rfl | hpart
    · exact List.mem_append_left _ hc
    · refine List.mem_append_right _ (List.mem_flatMap.mpr ⟨part, hpart, ?_⟩)
      exact List.mem_cons_of_mem separator hc

theorem home?_eq_none {text : String} (h : '~' ∉ text.toList) (isAssigned isAlone : Bool) :
    home? isAssigned isAlone text = none := by
  unfold home?
  split
  · rename_i heq
    simp [heq] at h
  · rfl

theorem homesIn_false {text : String} (h : '~' ∉ text.toList) (isFirst isLast : Bool) :
    homesIn false isFirst isLast text = [.plain text] := by
  simp [homesIn, home?_eq_none h]

theorem flatMap_homesIn_false (length : Nat) {word : List Piece}
    (h : ∀ text, .plain text ∈ word → '~' ∉ text.toList) (start : Nat) :
    ((word.zipIdx start).flatMap fun (piece, i) =>
      match piece with
      | .plain text => homesIn false (i == 0) (i + 1 == length) text
      | piece => [piece]) = word := by
  induction word generalizing start with
  | nil => rfl
  | cons piece word ih =>
    rw [List.zipIdx_cons, List.flatMap_cons,
      ih (fun text htext => h text (List.mem_cons_of_mem piece htext))]
    dsimp only
    split
    · rename_i text
      rw [homesIn_false (h text List.mem_cons_self)]
      rfl
    · rfl

theorem withHomes_false {word : List Piece}
    (h : ∀ text, .plain text ∈ word → '~' ∉ text.toList) : withHomes false word = word :=
  flatMap_homesIn_false word.length h 0

/-- In what is assigned the colons are told apart. -/
theorem homesIn_true {text : String} (h : '~' ∉ text.toList) (isFirst isLast : Bool) :
    homesIn true isFirst isLast text =
      ((text.toList.splitOn ':').map String.ofList).zipIdx.flatMap fun (part, i) =>
        (if 0 < i then [.plain ":"] else []) ++ [.plain part] := by
  rw [homesIn, if_pos rfl]
  refine List.flatMap_congr ?_
  rintro ⟨part, i⟩ hmem
  obtain ⟨cs, hcs, rfl⟩ := List.mem_map.mp (List.fst_mem_of_mem_zipIdx hmem)
  have hpart : '~' ∉ (String.ofList cs).toList := by
    rw [String.toList_ofList]
    exact fun htilde => h (mem_of_mem_splitOn hcs htilde)
  simp [home?_eq_none hpart]

/-- The parts after the first, each with the colon before it. -/
theorem spells_parts (parts : List String) (start : Nat) :
    Spells ((parts.zipIdx (start + 1)).flatMap fun (part, i) =>
        (if 0 < i then [.plain ":"] else []) ++ [.plain part])
      ((parts.flatMap fun part => ':' :: part.toList).map (⟨·, false⟩)) := by
  induction parts generalizing start with
  | nil => exact Spells.nil
  | cons part parts ih =>
    simpa using Spells.plain ":" ((ih (start + 1)).plain part)

theorem spells_homesIn {text : String} (h : '~' ∉ text.toList) :
    Spells (homesIn true true true text) (text.toList.map (⟨·, false⟩)) := by
  have htext : [':'].intercalate (text.toList.splitOn ':') = text.toList :=
    List.intercalate_splitOn ':'
  rw [homesIn_true h]
  cases hsplit : text.toList.splitOn ':' with
  | nil =>
    rw [← htext, hsplit]
    exact Spells.nil
  | cons first rest =>
    rw [hsplit, intercalate_cons] at htext
    have hparts := (spells_parts (rest.map String.ofList) 0).plain (String.ofList first)
    rw [← htext]
    simpa [List.flatMap_map] using hparts

theorem stands_quotePosix (text : String) {ps : List Piece} (hne : ps ≠ [])
    (hspells : Spells ps (quotedWord text.toList)) : Stands (withHomes false ps) text := by
  have hhomes : withHomes false ps = ps := by
    refine withHomes_false fun part hpart htilde => ?_
    have hplain := quotedWord_bare (hspells.mem_plain hpart _ htilde) rfl
    exact ne_of_isPlain hplain (by decide) rfl
  rw [hhomes]
  exact ⟨hne, _, hspells, by simp, isActive_quotedWord _⟩

/-- The value of an assignment is the rest of its text. -/
theorem pieces_assigned (setting : Setting) (name : String) {value : List Char}
    (hvalue : ∀ c ∈ value, isPlain c = true) (hrest : Apart rest) (fuel : Nat) :
    ∃ ps, pieces endsWord (fuel + 2) setting
        ((name.toList ++ '=' :: value ++ rest).drop (name.length + 1)) = .ok (ps, rest) ∧
      Spells (withHomes true ps) (value.map (⟨·, false⟩)) := by
  have hdrop : (name.toList ++ '=' :: value ++ rest).drop (name.length + 1) = value ++ rest := by
    have hlength : name.length + 1 = (name.toList ++ ['=']).length := by
      simp [String.length_toList]
    have htext :
        name.toList ++ '=' :: value ++ rest = (name.toList ++ ['=']) ++ (value ++ rest) := by
      simp
    rw [hlength, htext, List.drop_left]
  rw [hdrop]
  cases value with
  | nil => exact ⟨[], pieces_apart hrest (fuel + 1), Spells.nil⟩
  | cons c value =>
    refine ⟨_, pieces_bare ⟨List.cons_ne_nil c value, hvalue⟩ hrest fuel, ?_⟩
    have htilde : '~' ∉ (String.ofList (c :: value)).toList := by
      rw [String.toList_ofList]
      exact fun hmem => ne_of_isPlain (hvalue _ hmem) (by decide) rfl
    simpa [withHomes] using spells_homesIn htilde

theorem stands_assigned {text name : String} {value : List Char} {ps : List Piece}
    (htext : text.toList = name.toList ++ '=' :: value)
    (h : Spells ps (value.map (⟨·, false⟩))) : Stands [.assigned name ps] text := by
  refine ⟨List.cons_ne_nil _ _, _, .assigned name h .nil, ?_, ?_⟩
  · rw [← String.toList_inj, htext]
    simp [Word.text, Function.comp_def]
  · simp [Pattern.isActive]

end Reader

end LintRun.Shell
