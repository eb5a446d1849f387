import EpFormat.Text.Ranges

/-!
# Matching — the blocks that two lists of lines share

The longest block of equal lines is taken first (the earliest on the left, then on the right), then the same is
done on either side of it.  In a long right-hand list, lines that occur too often start no block, though they may
prolong one.
-/
namespace EpFormat.Diff

/-- Equal lines: `size` of them from `left` on one side and `right` on the other. -/
structure Match where
  left : Nat
  right : Nat
  size : Nat
  deriving DecidableEq, Repr

/-- A window on both lists, each from a first index up to a last that is left out. -/
structure Window where
  leftFrom : Nat
  leftTo : Nat
  rightFrom : Nat
  rightTo : Nat
  deriving DecidableEq, Repr

/-- The places of a line among the lines `b`; none if `b` is long and the line is common in it. -/
def placesOf (b : List Text) (line : Text) : List Nat :=
  let found := (b.zipIdx.filter (fun p => p.1 == line)).map (·.2)
  if 200 ≤ b.length && b.length / 100 + 1 < found.length then [] else found

/-- The two lists, with the places on the right of every line on the left. -/
structure Pair where
  left : Array Text
  right : Array Text
  places : Array (List Nat)

def Pair.ofLists (a b : List Text) : Pair := ⟨a.toArray, b.toArray, (a.map (placesOf b)).toArray⟩

namespace Pair

def same (p : Pair) (i j : Nat) : Bool :=
  match p.left[i]?, p.right[j]? with
  | some x, some y => x == y
  | _, _ => false

/-- The lengths of the runs of equal lines that end at left index `i` and a place in `js`; `before` holds those that
end one line earlier. -/
def runsAt (w : Window) (before : List (Nat × Nat)) (js : List Nat) : List (Nat × Nat) :=
  (js.filter (fun j => w.rightFrom ≤ j && j < w.rightTo)).map (fun j =>
    (j, ((before.find? (fun r => r.1 + 1 == j)).map (·.2)).getD 0 + 1))

/-- The better of the best block so far and the runs that end at left index `i`: only a longer one is better. -/
def better (i : Nat) (best : Match) (runs : List (Nat × Nat)) : Match :=
  runs.foldl (fun m r => if m.size < r.2 then ⟨i + 1 - r.2, r.1 + 1 - r.2, r.2⟩ else m) best

/-- The best block whose left end is among the next `count` left indices from `i` on. -/
def search (p : Pair) (w : Window) : Nat → Nat → List (Nat × Nat) → Match → Match
  | 0, _, _, best => best
  | count + 1, i, before, best =>
    let runs := runsAt w before ((p.places[i]?).getD [])
    search p w count (i + 1) runs (better i best runs)

/-- Prolongs a block to the left while the lines before it are the same. -/
def growLeft (p : Pair) (w : Window) : Nat → Match → Match
  | 0, m => m
  | fuel + 1, m =>
    if w.leftFrom < m.left && w.rightFrom < m.right && p.same (m.left - 1) (m.right - 1)
    then growLeft p w fuel ⟨m.left - 1, m.right - 1, m.size + 1⟩ else m

/-- Prolongs a block to the right while the lines after it are the same. -/
def growRight (p : Pair) (w : Window) : Nat → Match → Match
  | 0, m => m
  | fuel + 1, m =>
    if m.left + m.size < w.leftTo && m.right + m.size < w.rightTo && p.same (m.left + m.size) (m.right + m.size)
    then growRight p w fuel { m with size := m.size + 1 } else m

def longest (p : Pair) (w : Window) : Match :=
  let found := search p w (w.leftTo - w.leftFrom) w.leftFrom [] ⟨w.leftFrom, w.rightFrom, 0⟩
  growRight p w (w.leftTo - w.leftFrom) (growLeft p w (w.leftTo - w.leftFrom) found)

/-- The blocks of a window, left to right; every level of the recursion takes at least one line off the window. -/
def blocks (p : Pair) : Nat → Window → List Match
  | 0, _ => []
  | fuel + 1, w =>
    if w.leftFrom < w.leftTo && w.rightFrom < w.rightTo then
      let m := p.longest w
      if m.size = 0 then []
      else
        blocks p fuel { w with leftTo := m.left, rightTo := m.right }
          ++ m :: blocks p fuel { w with leftFrom := m.left + m.size, rightFrom := m.right + m.size }
    else []

end Pair

/-- Joins blocks that touch on both sides. -/
def mergeTouching : List Match → List Match
  | [] => []
  | m :: rest =>
    match mergeTouching rest with
    | [] => [m]
    | n :: more =>
      if m.left + m.size = n.left && m.right + m.size = n.right then { m with size := m.size + n.size } :: more
      else m :: n :: more

def commonBlocks (a b : List Text) : List Match :=
  mergeTouching ((Pair.ofLists a b).blocks (a.length + 1) ⟨0, a.length, 0, b.length⟩)

end EpFormat.Diff
