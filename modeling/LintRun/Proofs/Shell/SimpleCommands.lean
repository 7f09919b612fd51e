import Mathlib.Data.List.Forall2
import LintRun.Proofs.Shell.WordLaws

/-!
# Lines of quoted texts in the grammar

Quoted texts with spaces between them are read as a simple command, one word for each of them. It
has no assignments unless the first text starts it with one, and there is no such command if the
first text is a reserved word.
-/

namespace LintRun.Shell

namespace Reader

variable {setting : Setting} {rest : List Char} {cs : List Char}

-- ---------------------------------------------------------------------------
-- What comes after a run of characters
-- ---------------------------------------------------------------------------

theorem skipSeparators_opens {c : Char} (h : Opens c) (more : List Char) :
    skipSeparators (c :: more) = c :: more := by
  obtain ⟨-, hseparator, hbackslash, hhash, -⟩ := h.inert
  simp [skipSeparators, hseparator, hbackslash, hhash]

@[simp] theorem skipSeparators_quotePosix (cs rest : List Char) :
    skipSeparators (quotePosix cs ++ rest) = quotePosix cs ++ rest := by
  obtain ⟨c, more, hquote, hopens⟩ := exists_quotePosix cs
  rw [hquote]
  exact skipSeparators_opens hopens _

@[simp] theorem skipSeparators_space (rest : List Char) :
    skipSeparators (' ' :: rest) = skipSeparators rest := by
  simp [skipSeparators, isSeparator]

theorem skipLines_quotePosix (cs rest : List Char) :
    skipLines (quotePosix cs ++ rest) = quotePosix cs ++ rest := by
  obtain ⟨c, more, hquote, hopens⟩ := exists_quotePosix cs
  obtain ⟨-, hseparator, hbackslash, hhash, hnewline, -⟩ := hopens.inert
  simp [hquote, skipLines, hseparator, hbackslash, hhash, hnewline]

/-- After a run of characters of its start, a quoted text goes on with a harmless character, or it
is over. -/
theorem dropWhile_quotePosix {p : Char → Bool} (hspace : p ' ' = false) (hquote : p '\'' = false)
    (cs : List Char) (hrest : Apart rest) :
    (∃ c more, (quotePosix cs ++ rest).dropWhile p = c :: more ∧ Opens c) ∨
      (quotePosix cs ++ rest).dropWhile p = rest := by
  rcases quotePosix_cases cs with ⟨⟨-, hplain⟩, hsame, -⟩ | ⟨-, hquoted, -⟩
  · rw [hsame]
    clear hsame
    induction cs with
    | nil =>
      right
      cases rest with
      | nil => rfl
      | cons c rest =>
        obtain rfl := hrest c rfl
        simp [hspace]
    | cons c cs ih =>
      rw [List.cons_append, List.dropWhile_cons]
      cases hc : p c with
      | false => exact .inl ⟨c, cs ++ rest, by simp, .inl (hplain c List.mem_cons_self)⟩
      | true => simpa using ih fun d hd => hplain d (List.mem_cons_of_mem c hd)
  · left
    refine ⟨'\'', betweenQuotes cs ++ '\'' :: rest, ?_, .inr rfl⟩
    rw [hquoted, singleQuoted_append, List.dropWhile_cons, hquote]
    rfl

theorem drop_length_takeWhile (p : Char → Bool) (text : List Char) :
    text.drop (text.takeWhile p).length = text.dropWhile p := by
  induction text with
  | nil => rfl
  | cons c text ih => cases hc : p c <;> simp [hc, ih]

-- ---------------------------------------------------------------------------
-- What a quoted text may be
-- ---------------------------------------------------------------------------

theorem operator?_quotePosix (cs : List Char) (hrest : Apart rest) :
    operator? (quotePosix cs ++ rest) = none ∧ here? (quotePosix cs ++ rest) = none := by
  unfold operator? here?
  simp only [drop_length_takeWhile]
  rcases dropWhile_quotePosix (p := Char.isDigit) (by decide) (by decide) cs hrest with
    ⟨c, more, hdrop, hopens⟩ | hdrop
  · obtain ⟨-, -, -, -, -, -, hless, hgreater⟩ := hopens.inert
    rw [hdrop]
    constructor
    · split <;> simp_all
    · split <;> simp_all
  · rw [hdrop]
    cases rest with
    | nil => exact ⟨rfl, rfl⟩
    | cons c rest =>
      obtain rfl := hrest c rfl
      exact ⟨rfl, rfl⟩

theorem redirection?_quotePosix (setting : Setting) {text : List Char} (cs : List Char)
    (hrest : Apart rest) (htext : skipSeparators text = quotePosix cs ++ rest) (fuel : Nat) :
    redirection? (fuel + 1) setting text = .ok (none, quotePosix cs ++ rest) := by
  obtain ⟨hoperator, hhere⟩ := operator?_quotePosix cs hrest
  rw [redirection?, bind_of_ok separators_run, htext, bind_of_ok look_run, hhere]
  dsimp only
  rw [bind_of_ok look_run, hoperator]
  rfl

theorem redirection?_nil (fuel : Nat) : redirection? (fuel + 1) setting [] = .ok (none, []) := by
  rw [redirection?]
  rfl

theorem isNamePart_of_isName {name : List Char} (h : isName name = true) :
    ∀ c ∈ name, isNamePart c = true := by
  cases name with
  | nil => exact nofun
  | cons c name =>
    simp only [isName, Bool.and_eq_true, List.all_eq_true] at h
    intro d hd
    rcases List.mem_cons.mp hd with rfl | hd
    · have hstart := h.1
      simp only [isNameStart, Bool.or_eq_true] at hstart
      rcases hstart with halpha | hunder <;> simp [isNamePart, Char.isAlphanum, *]
    · exact h.2 d hd

theorem assigned?_eq_some_iff {text : List Char} {name : String} :
    assigned? text = some name ↔
      isName name.toList = true ∧ ∃ value, text = name.toList ++ '=' :: value := by
  unfold assigned?
  simp only [drop_length_takeWhile]
  constructor
  · intro h
    split at h
    · rename_i c run value hrun hvalue
      split at h
      · rename_i hstart
        obtain rfl := Option.some.inj h
        refine ⟨?_, value, ?_⟩
        · rw [String.toList_ofList, hrun, isName, hstart, Bool.true_and, List.all_eq_true]
          intro d hd
          have hmem : d ∈ text.takeWhile isNamePart := hrun ▸ List.mem_cons_of_mem c hd
          exact List.all_eq_true.mp List.all_takeWhile d hmem
        · rw [String.toList_ofList, ← hvalue, List.takeWhile_append_dropWhile]
      · cases h
    · cases h
  · rintro ⟨hname, value, rfl⟩
    have hparts := isNamePart_of_isName hname
    have hstop : isNamePart '=' = false := by decide
    rw [List.takeWhile_append_of_pos hparts, List.dropWhile_append_of_pos hparts,
      List.takeWhile_cons, List.dropWhile_cons, hstop]
    cases hlist : name.toList with
    | nil => simp [hlist, isName] at hname
    | cons c run =>
      simp only [hlist, isName, Bool.and_eq_true] at hname
      simp only [List.append_nil, hname.1, if_true, Bool.false_eq_true, if_false]
      rw [← hlist, String.ofList_toList]

/-- A quoted text is read as an assignment only if it needs no quotes. -/
theorem assigned?_quotePosix (cs : List Char) (hrest : Apart rest) {name : String} :
    assigned? (quotePosix cs ++ rest) = some name ↔
      StaysBare cs ∧ isName name.toList = true ∧ ∃ value, cs = name.toList ++ '=' :: value := by
  rw [assigned?_eq_some_iff]
  rcases quotePosix_cases cs with ⟨hbare, hsame, -⟩ | ⟨hbare, hquoted, -⟩
  · rw [hsame]
    constructor
    · rintro ⟨hname, value, htext⟩
      refine ⟨hbare, hname, ?_⟩
      rcases List.append_eq_append_iff.mp htext with ⟨more, hmore, hafter⟩ | ⟨more, hmore, hvalue⟩
      -- The name would reach beyond the text, where a space follows.
      · cases more with
        | nil =>
          rw [List.nil_append] at hafter
          have hspace := hrest '=' (by rw [hafter]; rfl)
          cases hspace
        | cons c more =>
          obtain rfl := hrest c (by rw [hafter]; rfl)
          have hpart := isNamePart_of_isName hname ' ' (by rw [hmore]; simp)
          cases hpart
      · cases more with
        | nil =>
          rw [List.nil_append] at hvalue
          have hspace := hrest '=' (by rw [← hvalue]; rfl)
          cases hspace
        | cons c more =>
          obtain ⟨rfl, -⟩ := List.cons.inj hvalue
          exact ⟨more, hmore⟩
    · rintro ⟨-, hname, value, rfl⟩
      exact ⟨hname, value ++ rest, by simp⟩
  · refine iff_of_false ?_ fun h => hbare h.1
    rintro ⟨hname, value, htext⟩
    rw [hquoted, singleQuoted_append] at htext
    cases hlist : name.toList with
    | nil => simp [hlist, isName] at hname
    | cons c run =>
      rw [hlist] at htext hname
      obtain ⟨rfl, -⟩ := List.cons.inj htext
      cases hname

/-- A quoted text is a bare word if it needs no quotes. -/
theorem bareWord?_quotePosix (cs : List Char) (hrest : Apart rest) {word : String} :
    bareWord? (quotePosix cs ++ rest) = some word ↔ StaysBare cs ∧ word = String.ofList cs := by
  have hspace : endsWord ' ' = true := by decide
  unfold bareWord?
  rcases quotePosix_cases cs with ⟨hbare, hsame, -⟩ | ⟨hbare, hquoted, -⟩
  · have hrun : (cs ++ rest).takeWhile (fun c => !endsWord c && !startsQuote c) = cs := by
      refine takeWhile_append_of_head (fun c hc => ?_) fun c hc => ?_
      · obtain ⟨hends, hquote⟩ := isPlain_inert (hbare.2 c hc)
        simp [hends, hquote]
      · rw [hrest c hc, hspace]
        rfl
    simp only [hsame, hrun, List.drop_left]
    cases rest with
    | nil => simp [hbare, eq_comm]
    | cons c rest =>
      obtain rfl := hrest c rfl
      simp [hbare, hspace, eq_comm]
  · refine iff_of_false ?_ fun h => hbare h.1
    rw [hquoted, singleQuoted_append]
    intro h
    cases h

/-- What follows a quoted text makes it no function's definition. -/
theorem defined?_quotePosix (cs : List Char) (hrest : Apart rest)
    (hnext : ∀ c ∈ (skipSeparators rest).head?, c ≠ '(') :
    defined? (quotePosix cs ++ rest) = none := by
  unfold defined?
  simp only [drop_length_takeWhile]
  have hhead : ∀ c ∈ (skipSeparators ((quotePosix cs ++ rest).dropWhile isNamePart)).head?,
      c ≠ '(' := by
    rcases dropWhile_quotePosix (p := isNamePart) (by decide) (by decide) cs hrest with
      ⟨c, more, hdrop, hopens⟩ | hdrop
    · obtain ⟨-, -, -, -, -, hparenthesis, -⟩ := hopens.inert
      rw [hdrop, skipSeparators_opens hopens]
      rintro d ⟨⟩
      exact hparenthesis
    · rwa [hdrop]
  split
  · rename_i hopen
    exact absurd rfl (hhead '(' (by rw [hopen]; rfl))
  · rfl

end Reader

-- ---------------------------------------------------------------------------
-- Lines of quoted texts
-- ---------------------------------------------------------------------------

/-- Quoted texts with a space before each. -/
def tokens (texts : List String) : List Char :=
  texts.flatMap fun text => ' ' :: quotePosix text.toList

theorem tokens_cons (text : String) (texts : List String) :
    tokens (text :: texts) = ' ' :: (quotePosix text.toList ++ tokens texts) := rfl

namespace Reader

theorem apart_tokens (texts : List String) : Apart (tokens texts) := by
  cases texts with
  | nil => exact Apart.nil
  | cons text texts => exact Apart.space _

theorem skipSeparators_tokens (text : String) (texts : List String) :
    skipSeparators (tokens (text :: texts)) = quotePosix text.toList ++ tokens texts := by
  rw [tokens_cons, skipSeparators_space, skipSeparators_quotePosix]

theorem opens_tokens (texts : List String) :
    ∀ c ∈ (skipSeparators (tokens texts)).head?, c ≠ '(' := by
  cases texts with
  | nil => exact nofun
  | cons text texts =>
    obtain ⟨c, more, hquote, hopens⟩ := exists_quotePosix text.toList
    obtain ⟨-, -, -, -, -, hparenthesis, -⟩ := hopens.inert
    rw [skipSeparators_tokens, hquote]
    rintro d ⟨⟩
    exact hparenthesis

-- ---------------------------------------------------------------------------
-- Simple commands
-- ---------------------------------------------------------------------------

variable {setting : Setting} {rest : List Char}

/-- How a simple command reads on where a word comes next. -/
theorem simple_eq {text more : List Char} {c : Char} {fuel : Nat}
    (hnone : redirection? fuel setting text = .ok (none, c :: more)) (hends : endsWord c = false)
    (number : Nat) (assignments : List (String × List Piece)) (words : List (List Piece)) :
    simple number assignments words [] (fuel + 1) setting text =
      (match assigned? (c :: more), words.getLast? with
        | some name, none => do
          drop (name.length + 1)
          let value ← pieces endsWord fuel
          simple number ((name, withHomes true value) :: assignments) words [] fuel
        | some name, some command =>
          if isAssigning command then do
            drop (name.length + 1)
            let value ← pieces endsWord fuel
            simple number assignments ([.assigned name (withHomes true value)] :: words) [] fuel
          else do
            let word ← pieces endsWord fuel
            simple number assignments (withHomes false word :: words) [] fuel
        | none, _ => do
          let word ← pieces endsWord fuel
          simple number assignments (withHomes false word :: words) [] fuel : Reader Script)
        setting (c :: more) := by
  rw [simple, bind_of_ok hnone]
  dsimp only
  rw [bind_of_ok look_run]
  have hword : ¬endsWord c = true := by simp [hends]
  exact congrFun (congrFun (if_neg hword) setting) (c :: more)

/-- A simple command goes on with a quoted text as its next word, though after some commands a text
that assigns is told apart. -/
theorem simple_word (setting : Setting) {text : List Char} (token : String) (hrest : Apart rest)
    (htext : skipSeparators text = quotePosix token.toList ++ rest) (number : Nat)
    (assignments : List (String × List Piece)) {words : List (List Piece)}
    (hword : words ≠ [] ∨ assigned? (quotePosix token.toList ++ rest) = none) {fuel : Nat}
    (hfuel : 2 * token.toList.length + 2 ≤ fuel) :
    ∃ word, Stands word token ∧
      simple number assignments words [] (fuel + 1) setting text =
        simple number assignments (word :: words) [] fuel setting rest := by
  obtain ⟨fuel, rfl⟩ := Nat.exists_eq_add_of_le' (show 2 ≤ fuel by omega)
  obtain ⟨ps, hps, hne, hspells⟩ := pieces_quotePosix setting hrest token.toList hfuel
  have hstands := stands_quotePosix token hne hspells
  obtain ⟨c, more, hquote, hopens⟩ := exists_quotePosix token.toList
  have hnone := redirection?_quotePosix setting token.toList hrest htext (fuel + 1)
  have hlook : quotePosix token.toList ++ rest = c :: (more ++ rest) := by
    rw [hquote, List.cons_append]
  have hstep := simple_eq (hlook ▸ hnone) hopens.inert.1 number assignments words
  rw [← hlook] at hstep
  rw [hstep]
  cases hassigned : assigned? (quotePosix token.toList ++ rest) with
  | none => exact ⟨_, hstands, bind_of_ok hps _⟩
  | some name =>
    obtain ⟨command, hcommand⟩ : ∃ command, words.getLast? = some command := by
      rcases hword with hword | hword
      · exact ⟨_, List.getLast?_eq_some_getLast hword⟩
      · rw [hassigned] at hword
        cases hword
    rw [hcommand]
    dsimp only
    split
    · obtain ⟨hbare, -, value, hvalue⟩ := (assigned?_quotePosix token.toList hrest).mp hassigned
      have hplain : ∀ c ∈ value, isPlain c = true := fun c hc => hbare.2 c (by simp [hvalue, hc])
      obtain ⟨ps, hps, hspells⟩ := pieces_assigned setting name hplain hrest fuel
      refine ⟨_, stands_assigned hvalue hspells, ?_⟩
      rw [quotePosix_of_staysBare hbare, hvalue, bind_of_ok (drop_run _), bind_of_ok hps]
    · exact ⟨_, hstands, bind_of_ok hps _⟩

theorem simple_nil (setting : Setting) (number : Nat) (assignments : List (String × List Piece))
    {words : List (List Piece)} (hwords : words ≠ []) (fuel : Nat) :
    simple number assignments words [] (fuel + 2) setting [] =
      .ok (.simple number assignments.reverse words.reverse [], []) := by
  rw [simple, bind_of_ok (redirection?_nil fuel)]
  dsimp only
  rw [bind_of_ok look_run]
  simp [simple.finish, hwords, pure_run]

theorem length_tokens_cons (text : String) (texts : List String) :
    (tokens (text :: texts)).length =
      (quotePosix text.toList).length + (tokens texts).length + 1 := by
  rw [tokens_cons, List.length_cons, List.length_append]

/-- A simple command takes quoted texts as words to the end of the line. -/
theorem simple_tokens (setting : Setting) (number : Nat)
    (assignments : List (String × List Piece)) {words : List (List Piece)} (hwords : words ≠ [])
    (texts : List String) {fuel : Nat} (hfuel : 2 * (tokens texts).length + 2 ≤ fuel) :
    ∃ more, List.Forall₂ Stands more texts ∧
      simple number assignments words [] fuel setting (tokens texts) =
        .ok (.simple number assignments.reverse (words.reverse ++ more) [], []) := by
  induction texts generalizing words fuel with
  | nil =>
    obtain ⟨fuel, rfl⟩ := Nat.exists_eq_add_of_le' (show 2 ≤ fuel from hfuel)
    refine ⟨[], .nil, ?_⟩
    rw [List.append_nil]
    exact simple_nil setting number assignments hwords fuel
  | cons text texts ih =>
    have hlength := length_le_quotePosix text.toList
    rw [length_tokens_cons] at hfuel
    obtain ⟨fuel, rfl⟩ := Nat.exists_eq_add_of_le' (show 1 ≤ fuel by omega)
    obtain ⟨word, hword, hstep⟩ := simple_word setting text (apart_tokens texts)
      (skipSeparators_tokens text texts) number assignments (.inl hwords)
      (show 2 * text.toList.length + 2 ≤ fuel by omega)
    obtain ⟨more, hmore, hrest⟩ := ih (List.cons_ne_nil word words)
      (show 2 * (tokens texts).length + 2 ≤ fuel by omega)
    refine ⟨word :: more, .cons hword hmore, ?_⟩
    rw [hstep, hrest]
    simp

/-- A line of quoted texts is read as a simple command unless the first of them assigns. -/
theorem simple_line (setting : Setting) (number : Nat) (text : String) (texts : List String)
    (hassigned : assigned? (quotePosix text.toList ++ tokens texts) = none) {fuel : Nat}
    (hfuel : 2 * (quotePosix text.toList ++ tokens texts).length + 3 ≤ fuel) :
    ∃ words, List.Forall₂ Stands words (text :: texts) ∧
      simple number [] [] [] fuel setting (quotePosix text.toList ++ tokens texts) =
        .ok (.simple number [] words [], []) := by
  have hlength := length_le_quotePosix text.toList
  rw [List.length_append] at hfuel
  obtain ⟨fuel, rfl⟩ := Nat.exists_eq_add_of_le' (show 1 ≤ fuel by omega)
  obtain ⟨word, hword, hstep⟩ := simple_word setting text (apart_tokens texts)
    (skipSeparators_quotePosix _ _) number [] (.inr hassigned)
    (show 2 * text.toList.length + 2 ≤ fuel by omega)
  obtain ⟨more, hmore, hrest⟩ := simple_tokens setting number [] (List.cons_ne_nil word []) texts
    (show 2 * (tokens texts).length + 2 ≤ fuel by omega)
  exact ⟨word :: more, .cons hword hmore, hstep.trans hrest⟩

/-- A text that assigns leaves it to the text after it to be the first word. -/
theorem simple_assignment (setting : Setting) (number : Nat) {text first : String}
    (texts : List String) {name : String}
    (hassigned : assigned? (quotePosix text.toList ++ tokens (first :: texts)) = some name)
    (hfirst : assigned? (quotePosix first.toList ++ tokens texts) = none) {fuel : Nat}
    (hfuel : 2 * (quotePosix text.toList ++ tokens (first :: texts)).length + 4 ≤ fuel) :
    ∃ value words, List.Forall₂ Stands words (first :: texts) ∧
      simple number [] [] [] fuel setting (quotePosix text.toList ++ tokens (first :: texts)) =
        .ok (.simple number [(name, value)] words [], []) := by
  have hrest := apart_tokens (first :: texts)
  have hlength := length_le_quotePosix text.toList
  have hlengthFirst := length_le_quotePosix first.toList
  rw [List.length_append, length_tokens_cons] at hfuel
  obtain ⟨fuel, rfl⟩ := Nat.exists_eq_add_of_le' (show 4 ≤ fuel by omega)
  obtain ⟨c, more, hquote, hopens⟩ := exists_quotePosix text.toList
  have hnone := redirection?_quotePosix setting text.toList hrest (skipSeparators_quotePosix _ _)
    (fuel + 2)
  have hlook : quotePosix text.toList ++ tokens (first :: texts) =
      c :: (more ++ tokens (first :: texts)) := by rw [hquote, List.cons_append]
  have hstep := simple_eq (hlook ▸ hnone) hopens.inert.1 number [] []
  rw [← hlook, hassigned] at hstep
  obtain ⟨hbare, -, value, hvalue⟩ := (assigned?_quotePosix text.toList hrest).mp hassigned
  have hplain : ∀ c ∈ value, isPlain c = true := fun c hc => hbare.2 c (by simp [hvalue, hc])
  obtain ⟨ps, hps, -⟩ := pieces_assigned setting name hplain hrest (fuel + 1)
  obtain ⟨word, hword, hnext⟩ := simple_word setting first (apart_tokens texts)
    (skipSeparators_tokens first texts) number [(name, withHomes true ps)] (.inr hfirst)
    (show 2 * first.toList.length + 2 ≤ fuel + 2 by omega)
  obtain ⟨others, hothers, hlast⟩ := simple_tokens setting number [(name, withHomes true ps)]
    (List.cons_ne_nil word []) texts (show 2 * (tokens texts).length + 2 ≤ fuel + 2 by omega)
  refine ⟨withHomes true ps, word :: others, .cons hword hothers, ?_⟩
  rw [hstep]
  dsimp only [List.getLast?_nil]
  rw [quotePosix_of_staysBare hbare, hvalue, bind_of_ok (drop_run _), bind_of_ok hps, hnext, hlast]
  rfl

-- ---------------------------------------------------------------------------
-- Scripts of one command
-- ---------------------------------------------------------------------------

/-- The text starts with a word that a simple command can start with. -/
structure StartsSimple (text : List Char) : Prop where
  skipSeparators_eq : skipSeparators text = text
  skipLines_eq : skipLines text = text
  exists_head : ∃ c more, text = c :: more ∧ c ≠ '\n' ∧ c ≠ '('
  defined?_eq_none : defined? text = none
  not_reserved : ∀ word ∈ reservedWords, bareWord? text ≠ some word

theorem startsSimple_line {text : String} {texts : List String}
    (h : ¬(StaysBare text.toList ∧ text ∈ reservedWords)) :
    StartsSimple (quotePosix text.toList ++ tokens texts) where
  skipSeparators_eq := skipSeparators_quotePosix _ _
  skipLines_eq := skipLines_quotePosix _ _
  exists_head := by
    obtain ⟨c, more, hquote, hopens⟩ := exists_quotePosix text.toList
    obtain ⟨-, -, -, -, hnewline, hparenthesis, -⟩ := hopens.inert
    exact ⟨c, more ++ tokens texts, by rw [hquote, List.cons_append], hnewline, hparenthesis⟩
  defined?_eq_none := defined?_quotePosix _ (apart_tokens texts) (opens_tokens texts)
  not_reserved word hword hbare := by
    obtain ⟨hplain, rfl⟩ := (bareWord?_quotePosix _ (apart_tokens texts)).mp hbare
    rw [String.ofList_toList] at hword
    exact h ⟨hplain, hword⟩

theorem StartsSimple.acceptWord {text : List Char} (h : StartsSimple text) {word : String}
    (hword : word ∈ reservedWords) : acceptWord word setting text = .ok (false, text) := by
  rw [acceptWord_run, h.skipSeparators_eq, if_neg (h.not_reserved word hword)]

theorem StartsSimple.command_eq {text : List Char} (h : StartsSimple text) (fuel : Nat) :
    command (fuel + 1) setting text =
      simple (setting.line text.length) [] [] [] fuel setting text := by
  obtain ⟨c, more, htext, -, hparenthesis⟩ := h.exists_head
  have haccept : accept "(" setting text = .ok (false, text) := by
    rw [accept_run, htext, if_neg (by simpa using Ne.symm hparenthesis)]
  have hreserved : (bareWord? text).any reservedWords.contains = false := by
    cases hbare : bareWord? text with
    | none => rfl
    | some word =>
      rw [Option.any_some, ← Bool.not_eq_true, List.contains_iff_mem]
      exact fun hword => h.not_reserved word hword hbare
  rw [command, bind_of_ok separators_run, h.skipSeparators_eq, bind_of_ok haccept,
    if_neg Bool.false_ne_true]
  -- None of the reserved words that start a command comes next.
  iterate 6 rw [bind_of_ok (h.acceptWord (by decide)), if_neg Bool.false_ne_true]
  rw [bind_of_ok look_run, h.defined?_eq_none, hreserved]
  rfl

theorem pipelineRest_nil (fuel : Nat) : pipelineRest (fuel + 1) setting [] = .ok ([], []) := by
  rw [pipelineRest]
  rfl

theorem andOrAfter_nil (first : Script) (fuel : Nat) :
    andOrAfter first (fuel + 1) setting [] = .ok (first, []) := by
  rw [andOrAfter]
  rfl

theorem StartsSimple.andOr_eq {text : List Char} (h : StartsSimple text) {script : Script}
    {fuel : Nat} (hsimple : simple (setting.line text.length) [] [] [] fuel setting text =
      .ok (script, [])) :
    andOr (fuel + 3) setting text = .ok (script, []) := by
  have hpipeline : pipeline (fuel + 2) setting text = .ok (script, []) := by
    rw [pipeline, bind_of_ok (h.acceptWord (by decide)),
      bind_of_ok ((h.command_eq fuel).trans hsimple), bind_of_ok (pipelineRest_nil fuel)]
    rfl
  rw [andOr, bind_of_ok hpipeline, andOrAfter_nil]

end Reader

open Reader (StartsSimple)

/-- A line that is a simple command, as it is read to its end, is a script of that command. -/
theorem nextScript_simple {source text : List Char} (h : StartsSimple text) {script : Script}
    (hsimple : Reader.simple (Setting.line ⟨source, 0⟩ text.length) [] [] []
      (8 * text.length + 13) ⟨source, 0⟩ text = .ok (script, [])) :
    nextScript source text = .ok (.sequence [script], []) := by
  obtain ⟨c, more, htext, hnewline, -⟩ := h.exists_head
  have handOr := h.andOr_eq hsimple
  have hline : lineCommands (8 * text.length + 16) (8 * text.length + 16) ⟨source, 0⟩ text =
      .ok ([script], []) := by
    rw [lineCommands, Reader.bind_of_ok Reader.separators_run, h.skipSeparators_eq,
      Reader.bind_of_ok Reader.get_run]
    split
    · cases htext
    · cases htext
      contradiction
    · rw [Reader.bind_of_ok handOr]
      rfl
  rw [nextScript_eq source h.skipLines_eq, hline]
  rfl

end LintRun.Shell
