import ChipVM.Picture
import ChipVM.Proofs.Display.Points

/-!
# The picture is the display

Each point falls into the cell of its pixel, and to mark a cell changes no other. So the cells that
show a block are the lit pixels, and inside its box the picture of a display is the display itself.
-/

namespace ChipVM

/-- A point within the bounds falls into the cell of its column and its row. -/
theorem Point.LiesAt.cell?_eq {p : Point} {x y : Nat} (h : p.LiesAt x y) :
    p.cell? = some (x, y) := by
  rw [cell?, if_pos ⟨h.horizontal.1, h.horizontal.2, h.vertical.1, h.vertical.2⟩, h.column, h.row]
  rfl

/-- The highest bit of a byte is the leftmost pixel alone. -/
theorem Display.spriteBit_leftmost (c : Nat) : spriteBit 0x80 c = (c == 0) := by
  have hbits : ∀ c < 8, Nat.testBit 0x80 (7 - c) = (c == 0) := by decide
  rw [spriteBit_eq_testBit]
  by_cases hc : c < 8
  · rw [decide_eq_true hc, Bool.true_and]
    exact hbits c hc
  · rw [decide_eq_false hc, Bool.false_and]
    exact (beq_false_of_ne (by omega)).symm

namespace Picture

open Display

/-- To mark a cell changes that one and no other. -/
theorem pixel_mark (cells : Display) (p : Point) {x y : Nat} (hx : x < width) (hy : y < height) :
    (mark cells p).pixel x y = (cells.pixel x y || p.cell? == some (x, y)) := by
  cases h : p.cell? with
  | none => simp [mark, h]
  | some cell =>
    obtain ⟨a, b⟩ := cell
    have hmark : mark cells p =
        ofFn fun r => if r = b then cells.row r ||| stampRow a 0x80 else cells.row r := by
      rw [mark, h]
    rw [hmark, pixel, row_ofFn, if_pos hy]
    by_cases hb : y = b
    · rw [if_pos hb, BitVec.getMsbD_or, getMsbD_stampRow a x _ hx, spriteBit_leftmost, hb]
      congr 1
      rw [Bool.eq_iff_iff]
      simp only [Bool.and_eq_true, decide_eq_true_eq, beq_iff_eq, Option.some.injEq, Prod.mk.injEq,
        and_true]
      omega
    · rw [if_neg hb, pixel]
      simp [Ne.symm hb]

/-- A cell shows a block after all points are marked if it did before or if one falls into it. -/
theorem pixel_foldl_mark (points : List Point) (cells : Display) {x y : Nat} (hx : x < width)
    (hy : y < height) :
    (points.foldl mark cells).pixel x y =
      (cells.pixel x y || points.any fun p => p.cell? == some (x, y)) := by
  induction points generalizing cells with
  | nil => simp
  | cons p rest ih =>
    rw [List.foldl_cons, ih, pixel_mark cells p hx hy, List.any_cons, Bool.or_assoc]

/-- The cells that show a block are the lit pixels. -/
theorem plot_points (d : Display) : plot (d.points true) = d := by
  refine ext_grid fun x hx y hy => ?_
  rw [plot, pixel_foldl_mark _ _ hx hy, pixel_dark, Bool.false_or, Bool.eq_iff_iff, List.any_eq_true]
  constructor
  · rintro ⟨p, hp, hcell⟩
    obtain ⟨a, ha, b, hb, hlit, rfl⟩ := mem_points.mp hp
    rw [(Point.liesAt_ofPixel ha hb).cell?_eq, beq_iff_eq] at hcell
    cases hcell
    exact hlit
  · intro hlit
    have hcell := (Point.liesAt_ofPixel hx hy).cell?_eq
    exact ⟨_, mem_points.mpr ⟨x, hx, y, hy, hlit, rfl⟩, beq_iff_eq.mpr hcell⟩

/-- Between its edges, the picture of a display shows the rows of the display. -/
theorem rows_eq (title : String) (d : Display) :
    rows title d =
      (topEdge title.toList :: (List.range height).map (innerRow d) ++ [bottomEdge]).map
        String.ofList := by
  rw [rows, plot_points]

end Picture

end ChipVM
