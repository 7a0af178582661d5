import ChipVM.Display

/-!
# Pixels as points

A canvas has its ordinate going up and its origin in the upper left corner, so the pixel in column
`x` of row `y` is the point `(x, -y)`. The pixels of one kind are looked for one after another, from
the lower right corner to the upper left, row by row.
-/

namespace ChipVM

/-- A point of the canvas. -/
structure Point where
  x : Int
  y : Int
  deriving DecidableEq, Repr

namespace Point

/-- The least and the greatest abscissa on the canvas. -/
def xBounds : Int × Int := (0, Display.width - 1)

/-- The least and the greatest ordinate on the canvas. -/
def yBounds : Int × Int := (1 - Display.height, 0)

/-- The point of the pixel in column `x` of row `y`. -/
def ofPixel (x y : Nat) : Point := ⟨x, -y⟩

end Point

namespace Display

/-- Go on looking for pixels of one kind, with `count` places left, from the last of them: the point
of the next one and how many places are then left. -/
def nextPoint? (d : Display) (lit : Bool) : Nat → Option (Point × Nat)
  | 0 => none
  | k + 1 =>
    if d.pixel (k % width) (k / width) == lit then
      some (Point.ofPixel (k % width) (k / width), k)
    else d.nextPoint? lit k

/-- Whoever has found a point has fewer places left. -/
theorem lt_of_nextPoint? {d : Display} {lit : Bool} {count left : Nat} {p : Point}
    (h : d.nextPoint? lit count = some (p, left)) : left < count := by
  induction count with
  | zero => cases h
  | succ k ih =>
    rw [nextPoint?] at h
    split at h
    · injection h with h
      injection h with _ h
      exact h ▸ Nat.lt_succ_self k
    · exact Nat.lt_succ_of_lt (ih h)

/-- The points that are found with `count` places left. -/
def pointsBelow (d : Display) (lit : Bool) (count : Nat) : List Point :=
  match _h : d.nextPoint? lit count with
  | none => []
  | some (p, left) => p :: d.pointsBelow lit left
termination_by count
decreasing_by exact lt_of_nextPoint? _h

/-- The points of the pixels that are lit, or of those that are dark. -/
def points (d : Display) (lit : Bool) : List Point := d.pointsBelow lit (width * height)

end Display

end ChipVM
