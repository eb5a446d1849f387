import EpFormat.Text.Ranges

/-!
# Scan — leftmost finds in a sequence

A finder looks at the item before a place and at the items from there on, and says what it finds and how many
items that takes.  `scan` walks a sequence from left to right, takes a find where there is one and a single item
where there is none, and goes on after what it took.  A find never takes less than one item.  Texts are scanned
for tags and keywords, lists of lines for blocks.
-/
namespace EpFormat

/-- What a finder sees at a place: the value found and its length. -/
abbrev Finder (σ α : Type) := Option σ → List σ → Option (α × Nat)

/-- A sequence cut by a scan: a find with the items that it covers, or an item between finds. -/
inductive Piece (σ α : Type)
  | item (x : σ)
  | hit (found : α) (source : List σ)

namespace Piece

variable {σ α : Type}

def source : Piece σ α → List σ
  | item x => [x]
  | hit _ s => s

def found? : Piece σ α → Option α
  | item _ => none
  | hit a _ => some a

end Piece

variable {σ α : Type}

/-- The scan proper: the number counts the items of the last find that are still to be passed over, and the
pieces gather in `done`, latest first. -/
def scanAux (find : Finder σ α) : List (Piece σ α) → Option σ → Nat → List σ → List (Piece σ α)
  | done, _, _, [] => done.reverse
  | done, _, k + 1, x :: rest => scanAux find done (some x) k rest
  | done, prev, 0, x :: rest =>
    match find prev (x :: rest) with
    | some (a, n) => scanAux find (.hit a ((x :: rest).take (max n 1)) :: done) (some x) (n - 1) rest
    | none => scanAux find (.item x :: done) (some x) 0 rest

/-- Cuts a sequence into its finds and the items between them. -/
def scan (find : Finder σ α) (xs : List σ) : List (Piece σ α) := scanAux find [] none 0 xs

/-- The finds of a sequence, left to right. -/
def finds (find : Finder σ α) (xs : List σ) : List α := (scan find xs).filterMap Piece.found?

/-- A sequence with every find replaced and the items between finds kept. -/
def substitute (find : Finder σ α) (new : α → List σ) (xs : List σ) : List σ :=
  (scan find xs).flatMap (fun p => match p with
    | .item x => [x]
    | .hit a _ => new a)

end EpFormat
