import EpFormat.Diff.Matching
import EpFormat.Text.Lines

/-!
# Unified — differences as a patch

The blocks that two texts share are kept, what lies between them is taken out or put in, and changes are shown
in hunks with three lines of context.
-/
namespace EpFormat.Diff

inductive Change
  | keep
  | replace
  | delete
  | insert
  deriving DecidableEq, Repr

structure Step where
  change : Change
  leftFrom : Nat
  leftTo : Nat
  rightFrom : Nat
  rightTo : Nat
  deriving DecidableEq, Repr

/-- What happens between two blocks, if anything. -/
def between (i i2 j j2 : Nat) : List Step :=
  if i < i2 && j < j2 then [⟨.replace, i, i2, j, j2⟩]
  else if i < i2 then [⟨.delete, i, i2, j, j2⟩]
  else if j < j2 then [⟨.insert, i, i2, j, j2⟩]
  else []

/-- The steps from one list to the other, given the blocks that stay; `i` and `j` are how far both are done. -/
def stepsFrom (n m : Nat) : Nat → Nat → List Match → List Step
  | i, j, [] => between i n j m
  | i, j, b :: rest =>
    between i b.left j b.right ++ ⟨.keep, b.left, b.left + b.size, b.right, b.right + b.size⟩
      :: stepsFrom n m (b.left + b.size) (b.right + b.size) rest

def steps (a b : List Text) : List Step := stepsFrom a.length b.length 0 0 (commonBlocks a b)

def context : Nat := 3

/-- The end of a kept stretch, as far as context goes. -/
def keepEnd (s : Step) : Step :=
  { s with leftFrom := max s.leftFrom (s.leftTo - context), rightFrom := max s.rightFrom (s.rightTo - context) }

/-- The start of a kept stretch, as far as context goes. -/
def keepStart (s : Step) : Step :=
  { s with leftTo := min s.leftTo (s.leftFrom + context), rightTo := min s.rightTo (s.rightFrom + context) }

def trimFirst : List Step → List Step
  | [] => []
  | s :: rest => (if s.change = .keep then keepEnd s else s) :: rest

def trimLast (ss : List Step) : List Step :=
  match ss.reverse with
  | [] => []
  | s :: rest => ((if s.change = .keep then keepStart s else s) :: rest).reverse

/-- Cuts the steps into hunks where more is kept than two stretches of context; `group` is the current hunk,
backwards. -/
def hunksFrom : List Step → List Step → List (List Step)
  | group, [] => [group.reverse]
  | group, s :: rest =>
    if s.change = .keep && 2 * context < s.leftTo - s.leftFrom then
      (keepStart s :: group).reverse :: hunksFrom [keepEnd s] rest
    else hunksFrom (s :: group) rest

def changes (group : List Step) : Bool := group.any (fun s => s.change ≠ .keep)

def hunks (ss : List Step) : List (List Step) := (hunksFrom [] (trimLast (trimFirst ss))).filter changes

/-- A range of lines in the head of a hunk: the first line, and the count unless it is one.  An empty range is
named by the line before it. -/
def rangeText (start stop : Nat) : Text :=
  let count := stop - start
  if count = 1 then Nat.toDigits 10 (start + 1)
  else Nat.toDigits 10 (if count = 0 then start else start + 1) ++ ',' :: Nat.toDigits 10 count

def slice (ls : List Text) (start stop : Nat) : List Text := (ls.take stop).drop start

def stepText (a b : List Text) (s : Step) : Text :=
  match s.change with
  -- lines bring their line ends along; one that has none runs together with the line after it
  | .keep => (slice a s.leftFrom s.leftTo).flatMap (' ' :: ·)
  | .delete => (slice a s.leftFrom s.leftTo).flatMap ('-' :: ·)
  | .insert => (slice b s.rightFrom s.rightTo).flatMap ('+' :: ·)
  | .replace =>
    (slice a s.leftFrom s.leftTo).flatMap ('-' :: ·) ++ (slice b s.rightFrom s.rightTo).flatMap ('+' :: ·)

def hunkText (a b : List Text) (group : List Step) : Text :=
  match group.head?, group.getLast? with
  | some first, some last =>
    txt "@@ -" ++ rangeText first.leftFrom last.leftTo ++ txt " +" ++ rangeText first.rightFrom last.rightTo
      ++ txt " @@\n" ++ group.flatMap (stepText a b)
  | _, _ => []

/-- The patch from one text to another, under the name of a file; nothing if there is no difference. -/
def unified (a b name : Text) : Text :=
  let left := Text.linesKeep a
  let right := Text.linesKeep b
  match hunks (steps left right) with
  | [] => []
  | hs =>
    txt "--- " ++ name ++ txt "\n+++ " ++ name ++ txt " (formatted)\n" ++ hs.flatMap (hunkText left right)

end EpFormat.Diff
