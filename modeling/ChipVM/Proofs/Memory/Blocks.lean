import ChipVM.Memory

/-!
# Blocks of bytes

A range of memory is read as the list of its bytes, and what has been put there is read back until
one of the bytes is changed. Ranges that lie one behind the other are read as one.
-/

namespace ChipVM

namespace Memory

@[simp] theorem length_bytesFrom (m : Memory) (a len : Nat) : (m.bytesFrom a len).length = len := by
  simp [bytesFrom]

theorem getElem?_bytesFrom (m : Memory) (a : Nat) {len k : Nat} (hk : k < len) :
    (m.bytesFrom a len)[k]? = some (m.byteAt (a + k)) := by
  simp [bytesFrom, hk]

/-- A range of memory reads the same as long as none of its bytes changes. -/
theorem bytesFrom_congr {m m' : Memory} {a len : Nat}
    (h : ∀ k < len, m'.byteAt (a + k) = m.byteAt (a + k)) :
    m'.bytesFrom a len = m.bytesFrom a len :=
  List.map_congr_left fun k hk => h k (List.mem_range.mp hk)

/-- Two memories with the same bytes in a range agree at each of its addresses. -/
theorem byteAt_of_bytesFrom_eq {m m' : Memory} {a len k : Nat}
    (h : m'.bytesFrom a len = m.bytesFrom a len) (hk : k < len) :
    m'.byteAt (a + k) = m.byteAt (a + k) := by
  have hget := congrArg (·[k]?) h
  simpa only [getElem?_bytesFrom _ a hk, Option.some.injEq] using hget

/-- A range is read piece by piece. -/
theorem bytesFrom_add (m : Memory) (a k len : Nat) :
    m.bytesFrom a (k + len) = m.bytesFrom a k ++ m.bytesFrom (a + k) len := by
  simp only [bytesFrom, List.range_add, List.map_append, List.map_map]
  congr 1
  refine List.map_congr_left fun j _ => ?_
  rw [Function.comp_apply, Nat.add_assoc]

/-- What has been put into a range is read back from it. -/
theorem bytesFrom_overwrite (m : Memory) {a : Nat} {data : List UInt8}
    (h : a + data.length ≤ size) : (m.overwrite a data).bytesFrom a data.length = data := by
  refine List.ext_getElem (length_bytesFrom ..) fun k _ hk => ?_
  simp only [bytesFrom, List.getElem_map, List.getElem_range]
  rw [byteAt_overwrite, if_pos ⟨Nat.le_add_right .., by omega, by omega⟩,
    Nat.add_sub_cancel_left, List.getElem?_eq_getElem hk, Option.getD_some]

/-- Bytes outside the range that is overwritten are as before. -/
theorem byteAt_overwrite_of_not_covered (m : Memory) {a b : Nat} {data : List UInt8}
    (h : b < a ∨ a + data.length ≤ b) : (m.overwrite a data).byteAt b = m.byteAt b := by
  rw [byteAt_overwrite, if_neg (by omega)]

/-- To put into a range what is there already changes nothing. -/
theorem overwrite_bytesFrom (m : Memory) (a len : Nat) :
    m.overwrite a (m.bytesFrom a len) = m := by
  refine ext_byteAt fun b => ?_
  rw [byteAt_overwrite, length_bytesFrom]
  split
  · next h =>
    rw [getElem?_bytesFrom m a (by omega), Option.getD_some, Nat.add_sub_of_le h.1]
  · rfl

/-- Bytes in memory, and where the first of them lies. -/
structure Block where
  start : Nat
  bytes : List UInt8
  deriving DecidableEq, Repr

namespace Block

/-- Where a block ends: the first address behind it. -/
def stop (b : Block) : Nat := b.start + b.bytes.length

/-- The bytes of a number of blocks, in order. -/
def joined (bs : List Block) : List UInt8 := bs.flatMap bytes

/-- The blocks begin at `lo` and end before `hi`, each where the one before it ends. -/
def Tiles : Nat → List Block → Nat → Prop
  | lo, [], hi => lo = hi
  | lo, b :: rest, hi => b.start = lo ∧ Tiles b.stop rest hi

/-- Memory holds the bytes of the block where it lies. -/
def LiesIn (b : Block) (m : Memory) : Prop := m.bytesFrom b.start b.bytes.length = b.bytes

/-- A block that lies in memory is there byte for byte. -/
theorem LiesIn.byteAt {b : Block} {m : Memory} (h : b.LiesIn m) {k : Nat} {v : UInt8}
    (hv : b.bytes[k]? = some v) : m.byteAt (b.start + k) = v := by
  have hk : k < b.bytes.length := (List.getElem?_eq_some_iff.mp hv).1
  rw [← h, m.getElem?_bytesFrom b.start hk] at hv
  exact Option.some.inj hv

theorem joined_cons (b : Block) (rest : List Block) :
    joined (b :: rest) = b.bytes ++ joined rest := List.flatMap_cons

theorem Tiles.le {lo hi : Nat} {bs : List Block} (h : Tiles lo bs hi) : lo ≤ hi := by
  induction bs generalizing lo with
  | nil => exact Nat.le_of_eq h
  | cons b rest ih =>
    obtain ⟨rfl, hrest⟩ := h
    exact Nat.le_trans (Nat.le_add_right ..) (ih hrest)

/-- A block that starts where the space ends makes it longer. -/
theorem Tiles.snoc {lo mid : Nat} {bs : List Block} (h : Tiles lo bs mid) {b : Block}
    (hb : b.start = mid) : Tiles lo (bs ++ [b]) b.stop := by
  induction bs generalizing lo with
  | nil => exact ⟨hb.trans h.symm, rfl⟩
  | cons c rest ih => exact ⟨h.1, ih h.2⟩

/-- Every block lies inside the space. -/
theorem Tiles.bounds {lo hi : Nat} {bs : List Block} (h : Tiles lo bs hi) {b : Block}
    (hb : b ∈ bs) : lo ≤ b.start ∧ b.stop ≤ hi := by
  induction bs generalizing lo with
  | nil => cases hb
  | cons c rest ih =>
    obtain ⟨rfl, hrest⟩ := h
    rcases List.mem_cons.mp hb with rfl | hb
    · exact ⟨Nat.le_refl _, hrest.le⟩
    · have hle : c.start ≤ c.stop := Nat.le_add_right ..
      exact ⟨Nat.le_trans hle (ih hrest hb).1, (ih hrest hb).2⟩

/-- Blocks one behind the other do not overlap. -/
theorem Tiles.pairwise {lo hi : Nat} {bs : List Block} (h : Tiles lo bs hi) :
    bs.Pairwise fun b c => b.stop ≤ c.start := by
  induction bs generalizing lo with
  | nil => exact List.Pairwise.nil
  | cons b rest ih =>
    obtain ⟨rfl, hrest⟩ := h
    exact List.Pairwise.cons (fun c hc => (hrest.bounds hc).1) (ih hrest)

/-- The space is as long as its blocks together. -/
theorem Tiles.eq_add_length {lo hi : Nat} {bs : List Block} (h : Tiles lo bs hi) :
    hi = lo + (joined bs).length := by
  induction bs generalizing lo with
  | nil => exact h.symm
  | cons b rest ih =>
    obtain ⟨rfl, hrest⟩ := h
    rw [ih hrest, joined_cons, List.length_append, stop, Nat.add_assoc]

/-- Blocks that lie in memory one behind the other lie there as one. -/
theorem Tiles.bytesFrom_eq_joined {lo hi : Nat} {bs : List Block} (h : Tiles lo bs hi) {m : Memory}
    (hlie : ∀ b ∈ bs, b.LiesIn m) : m.bytesFrom lo (joined bs).length = joined bs := by
  induction bs generalizing lo with
  | nil => rfl
  | cons b rest ih =>
    obtain ⟨rfl, hrest⟩ := h
    have hfirst : b.LiesIn m := hlie b List.mem_cons_self
    have hothers := ih hrest fun c hc => hlie c (List.mem_cons_of_mem b hc)
    rw [joined_cons, List.length_append, m.bytesFrom_add, hfirst]
    exact congrArg (b.bytes ++ ·) hothers

end Block

end Memory

end ChipVM
