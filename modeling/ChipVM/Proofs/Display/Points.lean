import ChipVM.Display.Points
import ChipVM.Proofs.Display.Lit

/-!
# Every pixel is one point

The places of the grid are numbered line by line, and the search for points goes through the numbers
from the last to the first. So it ends, it finds the points of one kind in the opposite of reading
order, none of them twice, and the points of both kinds are those of all places. Each point lies within
the bounds of the canvas, in the column and the row of its pixel.
-/

namespace ChipVM

namespace Point

/-- A reader from left to right and from the top comes to `p` after `q`. -/
def ComesAfter (p q : Point) : Prop := p.y < q.y ∨ p.y = q.y ∧ q.x < p.x

/-- The point is within the bounds of the canvas, in column `x` from the left one and in row `y` from
the upper one. -/
structure LiesAt (p : Point) (x y : Nat) : Prop where
  horizontal : xBounds.1 ≤ p.x ∧ p.x ≤ xBounds.2
  vertical : yBounds.1 ≤ p.y ∧ p.y ≤ yBounds.2
  column : p.x - xBounds.1 = x
  row : yBounds.2 - p.y = y

/-- The point of a pixel of the grid lies where the pixel is. -/
theorem liesAt_ofPixel {x y : Nat} (hx : x < 64) (hy : y < 32) : (ofPixel x y).LiesAt x y := by
  have hwidth : xBounds = (0, 63) := rfl
  have hheight : yBounds = (-31, 0) := rfl
  constructor <;> simp only [hwidth, hheight, ofPixel] <;> omega

/-- A point lies in one column and one row. -/
theorem LiesAt.unique {p : Point} {x y x' y' : Nat} (h : p.LiesAt x y) (h' : p.LiesAt x' y') :
    x = x' ∧ y = y' :=
  ⟨Int.ofNat.inj (h.column.symm.trans h'.column), Int.ofNat.inj (h.row.symm.trans h'.row)⟩

end Point

namespace Display

/-- With `count` places left, the search finds the points one after another and then ends. -/
inductive Yields (d : Display) (lit : Bool) : Nat → List Point → Prop
  | ends {count : Nat} : d.nextPoint? lit count = none → d.Yields lit count []
  | finds {count left : Nat} {p : Point} {ps : List Point} :
      d.nextPoint? lit count = some (p, left) → d.Yields lit left ps → d.Yields lit count (p :: ps)

/-- A search that finds nothing more gives no points. -/
theorem pointsBelow_of_none {d : Display} {lit : Bool} {count : Nat}
    (h : d.nextPoint? lit count = none) : d.pointsBelow lit count = [] := by
  rw [pointsBelow, h]

/-- A search that finds a point goes on from there. -/
theorem pointsBelow_of_some {d : Display} {lit : Bool} {count left : Nat} {p : Point}
    (h : d.nextPoint? lit count = some (p, left)) :
    d.pointsBelow lit count = p :: d.pointsBelow lit left := by
  rw [pointsBelow, h]

/-- The search ends, and what it finds is determined. -/
theorem yields_iff (d : Display) (lit : Bool) (count : Nat) (ps : List Point) :
    d.Yields lit count ps ↔ ps = d.pointsBelow lit count := by
  constructor
  · intro h
    induction h with
    | ends hnone => exact (pointsBelow_of_none hnone).symm
    | finds hsome _ ih => rw [pointsBelow_of_some hsome, ← ih]
  · rintro rfl
    induction count using Nat.strongRecOn with
    | ind count ih =>
      cases h : d.nextPoint? lit count with
      | none =>
        rw [pointsBelow_of_none h]
        exact .ends h
      | some found =>
        rw [pointsBelow_of_some h]
        exact .finds h (ih _ (lt_of_nextPoint? h))

/-- The last of the places left is looked at first. -/
theorem pointsBelow_succ (d : Display) (lit : Bool) (k : Nat) :
    d.pointsBelow lit (k + 1) =
      if d.pixel (k % width) (k / width) == lit then
        Point.ofPixel (k % width) (k / width) :: d.pointsBelow lit k
      else d.pointsBelow lit k := by
  split
  · next h => exact pointsBelow_of_some (if_pos h)
  · next h =>
    have hnext : d.nextPoint? lit (k + 1) = d.nextPoint? lit k := if_neg h
    rw [pointsBelow, hnext, ← pointsBelow]

/-- Numbering the places line by line. -/
theorem map_range_mul (w h : Nat) :
    (List.range (w * h)).map (fun k => (k % w, k / w)) =
      (List.range h ×ˢ List.range w).map Prod.swap := by
  have hproduct (h : Nat) : List.range h ×ˢ List.range w =
      (List.range h).flatMap fun y => (List.range w).map (Prod.mk y) := rfl
  rw [hproduct]
  induction h with
  | zero => rfl
  | succ h ih =>
    have hline : (List.range w).map (fun x => ((w * h + x) % w, (w * h + x) / w)) =
        (List.range w).map fun x => (x, h) := by
      refine List.map_congr_left fun x hx => ?_
      have hlt := List.mem_range.mp hx
      rw [Nat.mul_add_mod_self_left, Nat.mod_eq_of_lt hlt,
        Nat.mul_add_div (Nat.lt_of_le_of_lt (Nat.zero_le x) hlt), Nat.div_eq_of_lt hlt, Nat.add_zero]
    rw [Nat.mul_succ, List.range_add, List.map_append, ih, List.map_map, List.range_succ,
      List.flatMap_append, List.map_append, List.flatMap_singleton, List.map_map]
    exact congrArg _ hline

/-- The places of the grid are numbered line by line. -/
theorem places_eq_map :
    places = (List.range (width * height)).map fun k => (k % width, k / width) :=
  (map_range_mul width height).symm

/-- The search finds the pixels of one kind among the places left, from the last of them on. -/
theorem pointsBelow_eq (d : Display) (lit : Bool) (count : Nat) :
    d.pointsBelow lit count =
      (((List.range count).map fun k => (k % width, k / width)).reverse.filter fun a =>
        d.pixel a.1 a.2 == lit).map fun a => Point.ofPixel a.1 a.2 := by
  induction count with
  | zero => exact pointsBelow_of_none rfl
  | succ k ih =>
    rw [pointsBelow_succ, ih, List.range_succ, List.map_append, List.reverse_append]
    simp only [List.map_cons, List.map_nil, List.reverse_singleton, List.singleton_append,
      List.filter_cons]
    split <;> rfl

/-- The points are those of the places of one kind, taken from the last one on. -/
theorem points_eq (d : Display) (lit : Bool) :
    d.points lit = (places.reverse.filter fun a => d.pixel a.1 a.2 == lit).map fun a =>
      Point.ofPixel a.1 a.2 := by
  rw [points, pointsBelow_eq, places_eq_map]

/-- The points are those of the pixels of one kind. -/
theorem mem_points {d : Display} {lit : Bool} {p : Point} :
    p ∈ d.points lit ↔
      ∃ x < 64, ∃ y < 32, d.pixel x y = lit ∧ p = Point.ofPixel x y := by
  simp only [points_eq, List.mem_map, List.mem_filter, List.mem_reverse, Prod.exists, mem_places,
    beq_iff_eq, width, height]
  constructor
  · rintro ⟨x, y, ⟨⟨hx, hy⟩, hlit⟩, rfl⟩
    exact ⟨x, hx, y, hy, hlit, rfl⟩
  · rintro ⟨x, hx, y, hy, hlit, rfl⟩
    exact ⟨x, y, ⟨⟨hx, hy⟩, hlit⟩, rfl⟩

/-- The points come in the opposite of reading order. -/
theorem pairwise_points (d : Display) (lit : Bool) :
    (d.points lit).Pairwise Point.ComesAfter := by
  rw [points_eq, places_eq_map]
  refine List.Pairwise.map _ (fun a b h => h) (List.Pairwise.filter _ ?_)
  rw [List.pairwise_reverse, List.pairwise_map]
  refine List.pairwise_lt_range.imp fun {j k} hjk => ?_
  simp only [Point.ComesAfter, Point.ofPixel, width]
  omega

/-- No point is found twice. -/
theorem nodup_points (d : Display) (lit : Bool) : (d.points lit).Nodup := by
  refine (d.pairwise_points lit).imp fun {p q} h => ?_
  rintro rfl
  unfold Point.ComesAfter at h
  omega

/-- There are as many points as places of their kind. -/
theorem length_points (d : Display) (lit : Bool) :
    (d.points lit).length = places.countP fun a => d.pixel a.1 a.2 == lit := by
  rw [points_eq, List.length_map, ← List.countP_eq_length_filter, List.countP_reverse]

/-- A pixel of one kind is found once, and one of the other kind never. -/
theorem count_points (d : Display) (lit : Bool) {x y : Nat} (hx : x < 64) (hy : y < 32) :
    (d.points lit).count (Point.ofPixel x y) = if d.pixel x y = lit then 1 else 0 := by
  have hmem : Point.ofPixel x y ∈ d.points lit ↔ d.pixel x y = lit := by
    rw [mem_points]
    constructor
    · rintro ⟨x', hx', y', hy', hlit, heq⟩
      obtain ⟨rfl, rfl⟩ :=
        (Point.liesAt_ofPixel hx hy).unique (heq ▸ Point.liesAt_ofPixel hx' hy')
      exact hlit
    · exact fun hlit => ⟨x, hx, y, hy, hlit, rfl⟩
  rw [(d.nodup_points lit).count]
  exact if_congr hmem rfl rfl

/-- On every display the search for points of one kind ends. It finds the point of each pixel of that
kind once and nothing else, in the opposite of reading order, and each point lies within the bounds of
the canvas, in the column and the row of its pixel. For lit pixels there are as many points as pixels
are lit; with those for dark ones they are the points of all 2048 pixels, each of them once. -/
theorem points_of_every_pixel_once (d : Display) :
    (∀ lit ps, d.Yields lit 2048 ps ↔ ps = d.points lit) ∧
    (∀ lit, ∀ x < 64, ∀ y < 32,
      (d.points lit).count (Point.ofPixel x y) = if d.pixel x y = lit then 1 else 0) ∧
    (∀ lit, ∀ p ∈ d.points lit, ∃ x < 64, ∃ y < 32,
      d.pixel x y = lit ∧ p = Point.ofPixel x y ∧ p.LiesAt x y) ∧
    (∀ lit, (d.points lit).Pairwise Point.ComesAfter) ∧
    (d.points true).length = d.lit ∧
    (∀ x < 64, ∀ y < 32, (d.points true ++ d.points false).count (Point.ofPixel x y) = 1) ∧
    (d.points true ++ d.points false).length = 2048 := by
  refine ⟨fun lit => d.yields_iff lit 2048, fun lit x hx y hy => d.count_points lit hx hy,
    fun lit p hp => ?_, d.pairwise_points, ?_, fun x hx y hy => ?_, ?_⟩
  · obtain ⟨x, hx, y, hy, hlit, rfl⟩ := mem_points.mp hp
    exact ⟨x, hx, y, hy, hlit, rfl, Point.liesAt_ofPixel hx hy⟩
  · rw [length_points, lit_eq_countP]
    simp only [beq_true]
  · rw [List.count_append, d.count_points true hx hy, d.count_points false hx hy]
    cases d.pixel x y <;> rfl
  · rw [List.length_append, length_points, length_points, ← length_places,
      List.length_eq_countP_add_countP fun a => d.pixel a.1 a.2]
    simp

end Display

end ChipVM
