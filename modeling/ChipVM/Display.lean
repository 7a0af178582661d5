/-!
# The display

A grid of 64 by 32 pixels, each lit or dark, kept as one word per row with the leftmost pixel in the
highest bit. Drawing a sprite means adding its stamp, the grid that holds the sprite and nothing
else, pixel by pixel modulo two; what falls off the right or the lower edge is in no stamp.
-/

namespace ChipVM

/-- The pixels, a word per row. -/
structure Display where
  rows : Vector (BitVec 64) 32
  deriving DecidableEq, Repr

namespace Display

/-- Pixels in a row. -/
def width : Nat := 64

/-- Rows on the grid. -/
def height : Nat := 32

/-- The word of a row; rows that do not exist are dark. -/
def row (d : Display) (y : Nat) : BitVec 64 := d.rows[y]?.getD 0

/-- The pixel at column `x` of row `y` is lit. Places off the grid are dark. -/
def pixel (d : Display) (x y : Nat) : Bool := (d.row y).getMsbD x

/-- No pixel lit. -/
def dark : Display := ⟨Vector.replicate 32 0⟩

/-- The grid whose row `y` is `f y`. -/
def ofFn (f : Nat → BitVec 64) : Display := ⟨Vector.ofFn fun y => f y.val⟩

/-- The eight pixels of a sprite's row from column `x` on. -/
def stampRow (x : Nat) (byte : UInt8) : BitVec 64 := (byte.toBitVec ++ 0#56) >>> x

/-- The grid that holds a sprite with its upper left corner at `(x, y)` and is dark elsewhere. -/
def stamp (x y : Nat) (sprite : List UInt8) : Display :=
  ofFn fun r => if y ≤ r then stampRow x (sprite[r - y]?.getD 0) else 0

/-- The sum of two grids modulo two. -/
def add (d e : Display) : Display := ofFn fun y => d.row y ^^^ e.row y

/-- The pixels lit on both grids. -/
def common (d e : Display) : Display := ofFn fun y => d.row y &&& e.row y

/-- How many pixels of a row are lit. -/
def litInRow (w : BitVec 64) : Nat := (List.range 64).countP w.getMsbD

/-- How many pixels are lit. -/
def lit (d : Display) : Nat := (d.rows.toList.map litInRow).foldr (· + ·) 0

/-- Some pixel is lit on both grids. -/
def overlaps (d e : Display) : Bool := (d.common e) != dark

/-- Draw a sprite with its upper left corner at `(x, y)`, and tell whether a lit pixel went dark. -/
def draw (d : Display) (x y : Nat) (sprite : List UInt8) : Display × Bool :=
  (d.add (stamp x y sprite), d.overlaps (stamp x y sprite))

/-- The rows with a lit pixel, from the top, each with its number. -/
def litRows (d : Display) : List (Nat × BitVec 64) :=
  ((List.range height).map fun y => (y, d.row y)).filter fun r => r.2 != 0

/-- The grid with the given words in the given rows, where the first entry for a row counts. -/
def ofRows (rows : List (Nat × BitVec 64)) : Display := ofFn fun y => (rows.lookup y).getD 0

theorem row_ofFn (f : Nat → BitVec 64) (y : Nat) :
    (ofFn f).row y = if y < height then f y else 0 := by
  simp only [row, ofFn, Vector.getElem?_ofFn, height]
  by_cases h : y < 32 <;> simp [h]

/-- Below the last row there is nothing. -/
theorem row_of_le (d : Display) {y : Nat} (h : height ≤ y) : d.row y = 0 := by
  rw [row, Vector.getElem?_eq_none (by unfold height at h; omega)]
  rfl

/-- A display is known by its pixels. -/
@[ext] theorem ext_pixel {d e : Display} (h : ∀ x y, d.pixel x y = e.pixel x y) : d = e := by
  obtain ⟨v⟩ := d
  obtain ⟨w⟩ := e
  refine congrArg Display.mk (Vector.ext fun y hy => BitVec.eq_of_getMsbD_eq fun x _ => ?_)
  have hp := h x y
  simpa only [pixel, row, Vector.getElem?_eq_getElem hy, Option.getD_some] using hp

theorem pixel_of_width_le (d : Display) {x : Nat} (y : Nat) (h : width ≤ x) :
    d.pixel x y = false := BitVec.getMsbD_of_ge _ _ h

theorem pixel_of_height_le (d : Display) (x : Nat) {y : Nat} (h : height ≤ y) :
    d.pixel x y = false := by
  rw [pixel, row_of_le d h]
  simp

@[simp] theorem pixel_dark (x y : Nat) : dark.pixel x y = false := by
  have h : dark.row y = 0 := by
    by_cases hy : y < 32
    · simp [row, dark, hy]
    · exact row_of_le dark (by unfold height; omega)
  rw [pixel, h]
  simp

@[simp] theorem pixel_add (d e : Display) (x y : Nat) :
    (d.add e).pixel x y = (d.pixel x y ^^ e.pixel x y) := by
  rw [pixel, add, row_ofFn]
  split
  · simp [pixel]
  · next h =>
    rw [pixel_of_height_le d x (by omega), pixel_of_height_le e x (by omega)]
    simp

@[simp] theorem pixel_common (d e : Display) (x y : Nat) :
    (d.common e).pixel x y = (d.pixel x y && e.pixel x y) := by
  rw [pixel, common, row_ofFn]
  split
  · simp [pixel]
  · next h =>
    rw [pixel_of_height_le d x (by omega)]
    simp

/-- Bit `7 - c` of a byte, the pixel `c` places from the left of a sprite's row. -/
def spriteBit (byte : UInt8) (c : Nat) : Bool := byte.toBitVec.getMsbD c

/-- A stamped row shows the bits of its byte from column `x` on. -/
theorem getMsbD_stampRow (x c : Nat) (byte : UInt8) (h : c < width) :
    (stampRow x byte).getMsbD c = (decide (x ≤ c) && spriteBit byte (c - x)) := by
  unfold width at h
  rw [stampRow, BitVec.getMsbD_ushiftRight, BitVec.getMsbD_append]
  by_cases hx : x ≤ c
  · by_cases h8 : c - x < 8
    · simp [h, hx, h8, spriteBit, Nat.not_lt.mpr hx]
    · have hb : spriteBit byte (c - x) = false := BitVec.getMsbD_of_ge _ _ (by omega)
      simp [hb, h8]
  · simp [hx, Nat.lt_of_not_le hx]

/-- A pixel of a stamp is the sprite's bit at that distance from the corner, on the grid. -/
theorem pixel_stamp (x y : Nat) (sprite : List UInt8) (px py : Nat) :
    (stamp x y sprite).pixel px py =
      (decide (px < width) && decide (py < height) && decide (x ≤ px) && decide (y ≤ py) &&
        spriteBit (sprite[py - y]?.getD 0) (px - x)) := by
  by_cases hx : px < width
  · rw [pixel, stamp, row_ofFn]
    by_cases hy : py < height
    · by_cases hle : y ≤ py
      · rw [if_pos hy, if_pos hle, getMsbD_stampRow x px _ hx]
        simp [hx, hy, hle]
      · rw [if_pos hy, if_neg hle]
        simp [hle]
    · rw [if_neg hy]
      simp [hy]
  · rw [pixel_of_width_le _ _ (by omega)]
    simp [hx]

end Display

end ChipVM
