import Mathlib.Data.List.Nodup
import Mathlib.Data.List.ProdSigma
import Mathlib.Data.Prod.Basic
import ChipVM.Proofs.Display.Parity

/-!
# How many pixels are lit

The lit pixels are counted row by row, and a sprite is drawn bit by bit; both are counts over the
places of the grid. Each bit of a sprite that falls on the grid lights one pixel more or, where one
was lit already, one less.
-/

namespace ChipVM

/-- Where exactly one of two properties holds and where both do, counted together. -/
theorem countP_xor_add_two_mul_countP_and {α : Type} (l : List α) (p q : α → Bool) :
    l.countP (fun a => p a ^^ q a) + 2 * l.countP (fun a => p a && q a) =
      l.countP p + l.countP q := by
  induction l with
  | nil => rfl
  | cons a rest ih =>
    simp only [List.countP_cons]
    cases p a <;> cases q a <;> simp <;> omega

namespace Sprite

/-- The bits of the sprite that are set, as the columns and lines that they fall on. -/
def bits (s : Sprite) : List (Nat × Nat) :=
  ((List.range 8 ×ˢ List.range s.rows.length).filter fun (c, r) =>
    s.rows[r]?.any fun row => row.toNat.testBit (7 - c)).map fun (c, r) => (s.x + c, s.y + r)

/-- The bits of a sprite are the places it sets. -/
theorem mem_bits {s : Sprite} {px py : Nat} : (px, py) ∈ s.bits ↔ s.sets px py = true := by
  simp only [bits, List.mem_map, List.mem_filter, Prod.exists, List.mem_product, List.mem_range,
    Prod.mk.injEq]
  rw [sets_iff]
  constructor
  · rintro ⟨c, r, ⟨⟨hc, hr⟩, hbit⟩, rfl, rfl⟩
    exact ⟨c, hc, r, hr, rfl, rfl, hbit⟩
  · rintro ⟨c, hc, r, hr, rfl, rfl, hbit⟩
    exact ⟨c, r, ⟨⟨hc, hr⟩, hbit⟩, rfl, rfl⟩

/-- No two bits fall on the same place. -/
theorem nodup_bits (s : Sprite) : s.bits.Nodup := by
  refine List.Nodup.map ?_ ((List.nodup_range.product List.nodup_range).filter _)
  rintro ⟨c, r⟩ ⟨c', r'⟩ h
  simp only [Prod.mk.injEq, Nat.add_left_cancel_iff] at h
  exact Prod.ext h.1 h.2

end Sprite

namespace Display

/-- The places of the grid, line by line. -/
def places : List (Nat × Nat) :=
  (List.range height ×ˢ List.range width).map Prod.swap

/-- The places are those inside the grid. -/
theorem mem_places {px py : Nat} : (px, py) ∈ places ↔ px < width ∧ py < height := by
  simp [places, and_comm]

theorem nodup_places : places.Nodup :=
  (List.nodup_range.product List.nodup_range).map Prod.swap_injective

theorem length_places : places.length = 2048 := by
  rw [places, List.length_map, List.length_product, List.length_range, List.length_range]
  rfl

theorem rows_toList (d : Display) : d.rows.toList = (List.range height).map d.row := by
  refine List.ext_getElem (by simp [height]) fun y hy _ => ?_
  rw [Vector.length_toList] at hy
  simp [row, hy]

/-- What is counted row by row are the lit places of the grid. -/
theorem lit_eq_countP (d : Display) : d.lit = places.countP fun p => d.pixel p.1 p.2 := by
  have hproduct : List.range height ×ˢ List.range width =
      (List.range height).flatMap fun y => (List.range width).map (Prod.mk y) := rfl
  rw [lit, rows_toList, List.map_map, places, hproduct, List.countP_map, List.countP_flatMap]
  refine congrArg List.sum (List.map_congr_left fun y _ => ?_)
  rw [Function.comp_apply, Function.comp_apply, List.countP_map]
  rfl

/-- There is no counting beyond the places of the grid. -/
theorem lit_le (d : Display) : d.lit ≤ 2048 := by
  rw [lit_eq_countP, ← length_places]
  exact List.countP_le_length

/-- Counting bits with a property of places on the grid is counting places. -/
theorem countP_bits (s : Sprite) {p : Nat × Nat → Bool} (hp : ∀ a, p a = true → a ∈ places) :
    s.bits.countP p = places.countP fun a => s.sets a.1 a.2 && p a := by
  have hperm : (s.bits.filter p).Perm (places.filter fun a => s.sets a.1 a.2 && p a) := by
    refine (List.perm_ext_iff_of_nodup (s.nodup_bits.filter _) (nodup_places.filter _)).mpr ?_
    rintro ⟨px, py⟩
    rw [List.mem_filter, List.mem_filter, Sprite.mem_bits, Bool.and_eq_true]
    exact ⟨fun ⟨hs, h⟩ => ⟨hp _ h, hs, h⟩, fun ⟨_, hs, h⟩ => ⟨hs, h⟩⟩
  rw [List.countP_eq_length_filter, List.countP_eq_length_filter, hperm.length_eq]

/-- The bits of a sprite that fall on the grid. -/
theorem countP_bits_onGrid (s : Sprite) :
    s.bits.countP (fun (px, py) => px < 64 ∧ py < 32) =
      places.countP fun a => s.sets a.1 a.2 := by
  refine (countP_bits s fun a ha => mem_places.mpr (of_decide_eq_true ha)).trans ?_
  refine List.countP_congr fun a ha => ?_
  obtain ⟨hx, hy⟩ := mem_places.mp ha
  simp [hx, hy]

/-- The bits of a sprite that fall on lit pixels. -/
theorem countP_bits_lit (d : Display) (s : Sprite) :
    s.bits.countP (fun (px, py) => d.pixel px py) =
      places.countP fun a => d.pixel a.1 a.2 && s.sets a.1 a.2 := by
  refine (countP_bits s fun a ha => mem_places.mpr (lt_of_pixel ha)).trans ?_
  exact List.countP_congr fun a _ => by rw [Bool.and_comm]

/-- No bit off the grid falls on a lit pixel, and so none of them needs to be left out. -/
theorem hit_iff_countP_bits_pos (d : Display) (s : Sprite) :
    (d.drawSprite s).2 = true ↔ 0 < s.bits.countP fun (px, py) => d.pixel px py := by
  rw [hit_drawSprite_iff, List.countP_pos_iff]
  constructor
  · rintro ⟨px, -, py, -, hs, hlit⟩
    exact ⟨(px, py), Sprite.mem_bits.mpr hs, hlit⟩
  · rintro ⟨⟨px, py⟩, hs, hlit⟩
    obtain ⟨hx, hy⟩ := lt_of_pixel hlit
    exact ⟨px, hx, py, hy, Sprite.mem_bits.mp hs, hlit⟩

/-- Every bit on the grid lights a pixel, and takes two away where the pixel was lit before. -/
theorem lit_drawSprite (d : Display) (s : Sprite) :
    (d.drawSprite s).1.lit + 2 * s.bits.countP (fun (px, py) => d.pixel px py) =
      d.lit + s.bits.countP fun (px, py) => px < 64 ∧ py < 32 := by
  have hafter : (d.drawSprite s).1.lit = places.countP fun a =>
      d.pixel a.1 a.2 ^^ s.sets a.1 a.2 := by
    rw [lit_eq_countP]
    refine List.countP_congr fun a ha => ?_
    obtain ⟨hx, hy⟩ := mem_places.mp ha
    rw [pixel_drawSprite d s hx hy]
  rw [hafter, countP_bits_lit, countP_bits_onGrid, lit_eq_countP]
  exact countP_xor_add_two_mul_countP_and places _ _

/-- Of the set bits of a sprite, `v` fall on the grid and `h` on lit pixels. To draw it changes the
number of lit pixels by `v - 2 * h`. It hits something exactly if `h` is not zero, that is, if fewer
pixels are lit afterwards than there would be had every bit on the grid lit one more. No display has
more than 2048 lit. -/
theorem lit_accounts_for_bits (d : Display) (s : Sprite) :
    let v := s.bits.countP fun (px, py) => px < 64 ∧ py < 32
    let h := s.bits.countP fun (px, py) => d.pixel px py
    let after := d.drawSprite s
    (after.1.lit : Int) = d.lit + v - 2 * h ∧
    (after.2 = true ↔ 0 < h) ∧
    (after.2 = true ↔ after.1.lit < d.lit + v) ∧
    d.lit ≤ 2048 ∧ after.1.lit ≤ 2048 := by
  intro v h after
  have hlit : after.1.lit + 2 * h = d.lit + v := d.lit_drawSprite s
  have hhit : after.2 = true ↔ 0 < h := d.hit_iff_countP_bits_pos s
  refine ⟨by omega, hhit, ?_, d.lit_le, after.1.lit_le⟩
  rw [hhit]
  omega

/-- In the lower right corner four of sixteen bits fall on the grid. -/
example :
    (⟨60, 31, [0xFF, 0xFF]⟩ : Sprite).bits.countP (fun (px, py) => px < 64 ∧ py < 32) = 4 := by
  decide

end Display

end ChipVM
