/-!
# Batches

Files are packed greedily into command lines: a file joins the line under construction if the line
stays shorter than a limit, and otherwise that line is complete and the file opens the next one. A
line has at least one file even if that file alone exceeds the limit. `Packer` takes the files one
by one; `lines` packs a list, and `linesOf` takes from a source what the first lines ask for.
-/

namespace LintRun

structure Line where
  files : List String
  text : String
  deriving DecidableEq

/-- What every line starts with, how a file is written on it, and the length it must not reach. -/
structure Packing where
  opening : String
  token : String → String
  limit : Int

namespace Packing

def render (p : Packing) (files : List String) : String :=
  p.opening ++ String.join (files.map fun file => " " ++ p.token file)

def width (p : Packing) (file : String) : Nat :=
  (p.token file).length + 1

def line (p : Packing) (files : List String) : Line :=
  ⟨files, p.render files⟩

end Packing

/-- The line under construction: its files, the latest first, and its length. -/
structure Packer where
  files : List String := []
  length : Nat := 0

namespace Packer

def complete (p : Packing) (packer : Packer) : Line :=
  p.line packer.files.reverse

/-- Takes one more file, and gives the line that it completes. -/
def push (p : Packing) (packer : Packer) (file : String) : Option Line × Packer :=
  let alone : Packer := ⟨[file], p.opening.length + p.width file⟩
  if packer.files.isEmpty then (none, alone)
  else if ((packer.length + p.width file : Nat) : Int) < p.limit then
    (none, ⟨file :: packer.files, packer.length + p.width file⟩)
  else (some (packer.complete p), alone)

def finish (p : Packing) (packer : Packer) : Option Line :=
  if packer.files.isEmpty then none else some (packer.complete p)

def linesFrom (p : Packing) (packer : Packer) : List String → List Line
  | [] => (packer.finish p).toList
  | file :: rest =>
    match packer.push p file with
    | (some line, packer) => line :: linesFrom p packer rest
    | (none, packer) => linesFrom p packer rest

end Packer

def Packing.lines (p : Packing) (files : List String) : List Line :=
  Packer.linesFrom p {} files

namespace Packer

inductive Fill (σ : Type)
  /-- The line is complete, as the file that opens the next one is known. -/
  | line (line : Line) (packer : Packer) (source : σ)
  /-- The files have ended. What was under construction is the last line. -/
  | ended (last : Option Line) (source : σ)

def room (p : Packing) (packer : Packer) : Nat × Nat :=
  (packer.files.isEmpty.toNat, (p.limit - packer.length).toNat)

/-- A file that completes no line opens one, or makes one longer that stays below the limit. -/
theorem room_push_lt {p : Packing} {packer next : Packer} {file : String}
    (h : packer.push p file = (none, next)) :
    Prod.Lex (· < ·) (· < ·) (next.room p) (packer.room p) := by
  unfold push at h
  cases hfiles : packer.files.isEmpty with
  | true =>
    simp only [hfiles, if_true, Prod.mk.injEq, true_and] at h
    subst h
    simp only [room, hfiles]
    exact Prod.Lex.left _ _ Nat.zero_lt_one
  | false =>
    simp only [hfiles, Bool.false_eq_true, if_false] at h
    split at h
    · obtain rfl := (Prod.mk.inj h).2
      simp only [room, hfiles, Packing.width]
      exact Prod.Lex.right _ (by omega)
    · cases h

/-- Takes files from a source until a line is complete or there are no more of them. A line takes up
finitely many files even if the source never ends. -/
def fill {σ : Type} (p : Packing) (take : σ → Option String × σ) (packer : Packer) (source : σ) :
    Fill σ :=
  match take source with
  | (none, source) => .ended (packer.finish p) source
  | (some file, source) =>
    match _h : packer.push p file with
    | (some line, next) => .line line next source
    | (none, next) => fill p take next source
termination_by packer.room p
decreasing_by exact room_push_lt _h

/-- The first lines that the files of a source give, at most `count` of them, each with the source as
it is when the line is given. -/
def linesOf {σ : Type} (p : Packing) (take : σ → Option String × σ) :
    Nat → Packer → σ → List (Line × σ)
  | 0, _, _ => []
  | count + 1, packer, source =>
    match packer.fill p take source with
    | .line line packer source => (line, source) :: linesOf p take count packer source
    | .ended last source => last.toList.map (·, source)

end Packer

end LintRun
