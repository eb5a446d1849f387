/-!
# Ranges — classes of characters given by code points

A class of characters is written down as an ascending list of closed ranges of code points.  Membership walks
the list and stops at the first range that begins above the point.
-/
namespace EpFormat

/-- Text is handled as the list of its characters. -/
abbrev Text := List Char

/-- Whether `n` lies in one of the ranges, which are ascending and disjoint. -/
def inRanges (n : Nat) : List (Nat × Nat) → Bool
  | [] => false
  | (lo, hi) :: rest => if n < lo then false else n ≤ hi || inRanges n rest

/-- Reads literal text as a list of characters. -/
def txt (s : String) : Text := s.toList

end EpFormat
