import ChipVM.Display

/-!
# Drawing counts modulo two

A sprite turns over the pixels of the grid that its set bits fall on, and no others. So a pixel tells
whether an odd number of the sprites drawn so far have a bit there: their order makes no difference,
and a sprite that is drawn twice is gone again, after hitting all its lit pixels the first time and
all its dark ones the second time.
-/

namespace ChipVM

/-- A sprite, one byte a row from the top, and the place of its upper left corner. -/
structure Sprite where
  x : Nat
  y : Nat
  rows : List UInt8
  deriving DecidableEq, Repr

namespace Sprite

/-- The sprite has a bit set in column `px` of line `py`. The highest bit of a row is its leftmost. -/
def sets (s : Sprite) (px py : Nat) : Bool :=
  decide (s.x ≤ px ∧ px < s.x + 8 ∧ s.y ≤ py) &&
    s.rows[py - s.y]?.any fun row => row.toNat.testBit (7 - (px - s.x))

/-- The grid that holds the sprite and nothing else. -/
def stamp (s : Sprite) : Display := Display.stamp s.x s.y s.rows

/-- Counted from its corner, a sprite sets the bits of its rows. -/
theorem sets_corner_add (s : Sprite) (c r : Nat) :
    s.sets (s.x + c) (s.y + r) =
      (decide (c < 8) && s.rows[r]?.any fun row => row.toNat.testBit (7 - c)) := by
  simp [sets]

/-- A sprite has bits only in eight columns, and in as many lines as it has rows. -/
theorem box_of_sets {s : Sprite} {px py : Nat} (h : s.sets px py = true) :
    s.x ≤ px ∧ px < s.x + 8 ∧ s.y ≤ py ∧ py < s.y + s.rows.length := by
  rw [sets, Bool.and_eq_true, decide_eq_true_eq] at h
  obtain ⟨⟨hleft, hright, htop⟩, hbit⟩ := h
  have hrow : py - s.y < s.rows.length := by
    refine Nat.lt_of_not_le fun hle => ?_
    rw [List.getElem?_eq_none hle] at hbit
    cases hbit
  exact ⟨hleft, hright, htop, by omega⟩

/-- A sprite sets a place if one of its bits lies there, counted from its corner. -/
theorem sets_iff {s : Sprite} {px py : Nat} :
    s.sets px py = true ↔ ∃ c < 8, ∃ r < s.rows.length, px = s.x + c ∧ py = s.y + r ∧
      (s.rows[r]?.any fun row => row.toNat.testBit (7 - c)) = true := by
  constructor
  · intro h
    obtain ⟨hleft, hright, htop, hbottom⟩ := box_of_sets h
    obtain ⟨c, rfl⟩ := Nat.exists_eq_add_of_le hleft
    obtain ⟨r, rfl⟩ := Nat.exists_eq_add_of_le htop
    rw [sets_corner_add, Bool.and_eq_true] at h
    exact ⟨c, by omega, r, by omega, rfl, rfl, h.2⟩
  · rintro ⟨c, hc, r, -, rfl, rfl, hbit⟩
    rw [sets_corner_add, decide_eq_true hc, hbit]
    rfl

end Sprite

namespace Display

/-- Draw a sprite, and tell whether a lit pixel went dark. -/
def drawSprite (d : Display) (s : Sprite) : Display × Bool := d.draw s.x s.y s.rows

/-- The display after a number of sprites. -/
def drawAll (d : Display) (sprites : List Sprite) : Display :=
  sprites.foldl (fun d s => (d.drawSprite s).1) d

/-- To draw a sprite is to add its stamp and to look for what overlaps. -/
theorem drawSprite_eq (d : Display) (s : Sprite) :
    d.drawSprite s = (d.add s.stamp, d.overlaps s.stamp) := rfl

/-- The bits of a sprite's byte are read from the highest one on. -/
theorem spriteBit_eq_testBit (byte : UInt8) (c : Nat) :
    spriteBit byte c = (decide (c < 8) && byte.toNat.testBit (7 - c)) := by
  rw [spriteBit, BitVec.getMsbD_eq_getLsbD]
  rfl

@[simp] theorem spriteBit_zero (c : Nat) : spriteBit 0 c = false := by
  simp [spriteBit_eq_testBit]

/-- On the grid the stamp of a sprite is lit where the sprite has a bit. -/
theorem pixel_stamp_eq_sets (s : Sprite) {px py : Nat} (hx : px < width) (hy : py < height) :
    s.stamp.pixel px py = s.sets px py := by
  rw [Sprite.stamp, pixel_stamp, Sprite.sets]
  by_cases hcorner : s.x ≤ px ∧ s.y ≤ py
  · have hcolumn : px - s.x < 8 ↔ px < s.x + 8 := by omega
    cases s.rows[py - s.y]? with
    | none => simp
    | some row => simp [hx, hy, hcorner, spriteBit_eq_testBit, hcolumn]
  · have hbox : ¬ (s.x ≤ px ∧ px < s.x + 8 ∧ s.y ≤ py) := fun h => hcorner ⟨h.1, h.2.2⟩
    have hstamp : (decide (s.x ≤ px) && decide (s.y ≤ py)) = false := by
      simpa using hcorner
    rw [Bool.and_assoc _ (decide (s.x ≤ px)), hstamp]
    simp [hbox]

theorem lt_of_pixel {d : Display} {x y : Nat} (h : d.pixel x y = true) : x < width ∧ y < height := by
  constructor
  · refine Nat.lt_of_not_le fun hx => ?_
    rw [d.pixel_of_width_le y hx] at h
    cases h
  · refine Nat.lt_of_not_le fun hy => ?_
    rw [d.pixel_of_height_le x hy] at h
    cases h

/-- Two grids overlap exactly if they have a lit pixel in common. -/
theorem overlaps_eq_true_iff (d e : Display) :
    d.overlaps e = true ↔ ∃ x y, d.pixel x y = true ∧ e.pixel x y = true := by
  rw [overlaps, bne_iff_ne]
  constructor
  · refine fun h => Classical.byContradiction fun hnone => h (ext_pixel fun x y => ?_)
    rw [pixel_common, pixel_dark, Bool.eq_false_iff, Ne, Bool.and_eq_true]
    exact fun hp => hnone ⟨x, y, hp⟩
  · rintro ⟨x, y, hd, he⟩ h
    have hp : (d.common e).pixel x y = true := by rw [pixel_common, hd, he]; rfl
    rw [h, pixel_dark] at hp
    cases hp

/-- A sprite turns over the pixels that it has a bit for. -/
theorem pixel_drawSprite (d : Display) (s : Sprite) {px py : Nat} (hx : px < width)
    (hy : py < height) : (d.drawSprite s).1.pixel px py = (d.pixel px py ^^ s.sets px py) := by
  rw [drawSprite_eq, pixel_add, pixel_stamp_eq_sets s hx hy]

/-- A pixel that a sprite changes is one that the sprite has a bit for. -/
theorem sets_of_pixel_ne {d : Display} {s : Sprite} {px py : Nat}
    (h : (d.drawSprite s).1.pixel px py ≠ d.pixel px py) : s.sets px py = true := by
  have hx : px < width := Nat.lt_of_not_le fun hle => h (by
    rw [pixel_of_width_le _ py hle, pixel_of_width_le _ py hle])
  have hy : py < height := Nat.lt_of_not_le fun hle => h (by
    rw [pixel_of_height_le _ px hle, pixel_of_height_le _ px hle])
  cases hsets : s.sets px py with
  | true => rfl
  | false => exact absurd (by rw [pixel_drawSprite d s hx hy, hsets, Bool.xor_false]) h

/-- A sprite hits something exactly if one of its bits falls on a lit pixel. -/
theorem hit_drawSprite_iff (d : Display) (s : Sprite) :
    (d.drawSprite s).2 = true ↔
      ∃ px < width, ∃ py < height, s.sets px py = true ∧ d.pixel px py = true := by
  rw [drawSprite_eq, overlaps_eq_true_iff]
  constructor
  · rintro ⟨px, py, hd, hs⟩
    obtain ⟨hx, hy⟩ := lt_of_pixel hd
    rw [pixel_stamp_eq_sets s hx hy] at hs
    exact ⟨px, hx, py, hy, hs, hd⟩
  · rintro ⟨px, hx, py, hy, hs, hd⟩
    rw [← pixel_stamp_eq_sets s hx hy] at hs
    exact ⟨px, py, hd, hs⟩

/-- Grids that agree on their pixels are the same. -/
theorem ext_grid {d e : Display}
    (h : ∀ px < width, ∀ py < height, d.pixel px py = e.pixel px py) : d = e := by
  refine ext_pixel fun px py => ?_
  by_cases hx : px < width
  · by_cases hy : py < height
    · exact h px hx py hy
    · rw [pixel_of_height_le d px (by omega), pixel_of_height_le e px (by omega)]
  · rw [pixel_of_width_le d py (by omega), pixel_of_width_le e py (by omega)]

/-- A sprite that is drawn twice is gone again. -/
theorem drawSprite_drawSprite (d : Display) (s : Sprite) :
    ((d.drawSprite s).1.drawSprite s).1 = d := by
  refine ext_grid fun px hx py hy => ?_
  rw [pixel_drawSprite _ s hx hy, pixel_drawSprite d s hx hy, Bool.xor_assoc, Bool.xor_self,
    Bool.xor_false]

/-- The second time, a sprite hits something exactly if one of its bits fell on a dark pixel the
first time. -/
theorem hit_drawSprite_drawSprite_iff (d : Display) (s : Sprite) :
    ((d.drawSprite s).1.drawSprite s).2 = true ↔
      ∃ px < width, ∃ py < height, s.sets px py = true ∧ d.pixel px py = false := by
  rw [hit_drawSprite_iff]
  constructor
  · rintro ⟨px, hx, py, hy, hs, hlit⟩
    rw [pixel_drawSprite d s hx hy, hs, Bool.xor_true, Bool.not_eq_true'] at hlit
    exact ⟨px, hx, py, hy, hs, hlit⟩
  · rintro ⟨px, hx, py, hy, hs, hdark⟩
    refine ⟨px, hx, py, hy, hs, ?_⟩
    rw [pixel_drawSprite d s hx hy, hs, hdark]
    rfl

theorem drawAll_cons (d : Display) (s : Sprite) (rest : List Sprite) :
    d.drawAll (s :: rest) = (d.drawSprite s).1.drawAll rest := by
  rw [drawAll, List.foldl_cons, drawAll]

/-- Sprites turn over the pixels that an odd number of them have a bit for. -/
theorem pixel_drawAll (d : Display) (sprites : List Sprite) {px py : Nat} (hx : px < width)
    (hy : py < height) :
    (d.drawAll sprites).pixel px py =
      (d.pixel px py ^^ decide (sprites.countP (·.sets px py) % 2 = 1)) := by
  induction sprites generalizing d with
  | nil => simp [drawAll]
  | cons s rest ih =>
    rw [drawAll_cons, ih, pixel_drawSprite d s hx hy, List.countP_cons, Bool.xor_assoc]
    congr 1
    cases s.sets px py with
    | false => simp
    | true =>
      rcases Nat.mod_two_eq_zero_or_one (rest.countP (·.sets px py)) with h | h
      · simp [h, Nat.add_mod]
      · simp [h, Nat.add_mod]

/-- The order of the sprites makes no difference to the display. -/
theorem drawAll_perm (d : Display) {sprites sprites' : List Sprite} (h : sprites.Perm sprites') :
    d.drawAll sprites' = d.drawAll sprites := by
  refine ext_grid fun px hx py hy => ?_
  rw [pixel_drawAll d sprites' hx hy, pixel_drawAll d sprites hx hy, h.countP_eq]

/-- Draw any sprites on a dark display. Then a pixel is lit exactly if an odd number of them have a
bit there, and in another order they come to the same. And a sprite that is drawn twice on any
display leaves it as it was. The first time it hits something exactly if it has a bit for a lit pixel
of that display, the second time exactly if it has one for a dark pixel, and so at least once if it
has a bit on the grid at all. -/
theorem drawing_is_parity (sprites : List Sprite) :
    (∀ px < 64, ∀ py < 32, (dark.drawAll sprites).pixel px py = true ↔
      sprites.countP (·.sets px py) % 2 = 1) ∧
    (∀ sprites', sprites.Perm sprites' → dark.drawAll sprites' = dark.drawAll sprites) ∧
    ∀ (d : Display) (s : Sprite),
      let first := d.drawSprite s
      let second := first.1.drawSprite s
      second.1 = d ∧
      (first.2 = true ↔ ∃ px < 64, ∃ py < 32, s.sets px py = true ∧ d.pixel px py = true) ∧
      (second.2 = true ↔ ∃ px < 64, ∃ py < 32, s.sets px py = true ∧ d.pixel px py = false) ∧
      ((∃ px < 64, ∃ py < 32, s.sets px py = true) → first.2 = true ∨ second.2 = true) := by
  refine ⟨fun px hx py hy => ?_, fun sprites' => drawAll_perm dark, fun d s => ?_⟩
  · rw [pixel_drawAll dark sprites hx hy]
    simp
  intro first second
  have hfirst := d.hit_drawSprite_iff s
  have hsecond := d.hit_drawSprite_drawSprite_iff s
  refine ⟨d.drawSprite_drawSprite s, hfirst, hsecond, ?_⟩
  rintro ⟨px, hx, py, hy, hs⟩
  cases hp : d.pixel px py with
  | true => exact Or.inl (hfirst.mpr ⟨px, hx, py, hy, hs, hp⟩)
  | false => exact Or.inr (hsecond.mpr ⟨px, hx, py, hy, hs, hp⟩)

end Display

end ChipVM
