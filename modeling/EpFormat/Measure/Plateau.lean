/-!
# Plateau — has a search stopped getting better?

The rounds of a search each have a result, the smaller the better.  A walk over them keeps the best one so far and
the number of rounds since it was first reached.
-/
namespace EpFormat.Measure

/-- The best result so far, and the rounds since it was first reached. -/
structure Plateau where
  best : Nat
  since : Nat
  deriving DecidableEq, Repr

namespace Plateau

/-- The next round: a result below the best one starts again, any other is one more round without gain. -/
def step (p : Plateau) (result : Nat) : Plateau :=
  if result < p.best then ⟨result, 0⟩ else ⟨p.best, p.since + 1⟩

/-- Where a search stands after its rounds; nothing is known before the first. -/
def ofRounds : List Nat → Option Plateau
  | [] => none
  | first :: rest => some (rest.foldl step ⟨first, 0⟩)

/-- How many rounds without gain end a search. -/
def patience : Nat := 3

def reached (rounds : List Nat) : Bool :=
  match ofRounds rounds with
  | some p => patience ≤ p.since
  | none => false

end Plateau
end EpFormat.Measure
