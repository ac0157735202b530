/-!
# Sets of code points

A class of characters is stored as the closed ranges of code points it consists of, in ascending
order. Membership walks the ranges and stops at the first one that lies above the character.
-/

namespace Vendoring.Text

/-- A set of code points as closed ranges, the lowest first. -/
structure CodePoints where
  ranges : List (Nat × Nat)

/-- Whether a code point lies in one of the ranges, which ascend. -/
def inRanges : List (Nat × Nat) → Nat → Bool
  | [], _ => false
  | (low, high) :: rest, n => if n < low then false else if n ≤ high then true else inRanges rest n

/-- Whether the set holds the character. -/
def CodePoints.contains (set : CodePoints) (c : Char) : Bool :=
  inRanges set.ranges c.toNat

end Vendoring.Text
