/-!
# Sets of characters

A property of characters that a standard lays down is a set, given by the ranges it fills.
-/

namespace ChipVM.Text

/-- A set of characters. -/
structure CharSet where
  /-- Inclusive ranges of code points, in ascending order. -/
  ranges : List (Nat × Nat)
  deriving DecidableEq, Repr

namespace CharSet

/-- The character lies in one of the ranges. -/
def contains (s : CharSet) (c : Char) : Bool :=
  s.ranges.any fun r => r.1 ≤ c.toNat && c.toNat ≤ r.2

end CharSet

end ChipVM.Text
