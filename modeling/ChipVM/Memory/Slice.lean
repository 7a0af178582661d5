import ChipVM.Memory

/-!
# Slices of memory

A caller may ask for a slice of memory of any length, which is then given as a machine word of 64
bits, and where the slice ends is computed in such words. The sum can be too large for one. What
happens then depends on how the program was built: it stops at the sum, or the sum wraps round and
an end before the start stops it later, unless that end is refused first. A slice that does not
stop the program is refused or granted by its length alone, as all other ranges are.
-/

namespace ChipVM

/-- How a build of the program treats a sum of machine words that does not fit into one. -/
inductive Overflow where
  /-- The program stops. -/
  | stops
  /-- The sum wraps round. -/
  | wraps
  deriving DecidableEq, Repr

/-- The sum of two machine words, or `none` if the program stops at it. -/
def Overflow.add? (o : Overflow) (a b : UInt64) : Option UInt64 :=
  match o with
  | stops => if a.toNat + b.toNat < 0x10000000000000000 then some (a + b) else none
  | wraps => some (a + b)

/-- A sum that fits is computed in both builds. -/
theorem Overflow.add?_of_lt (o : Overflow) {a b : UInt64}
    (h : a.toNat + b.toNat < 0x10000000000000000) : o.add? a b = some (a + b) := by
  cases o with
  | stops => exact if_pos h
  | wraps => rfl

namespace Memory

/-- The length of the slice that a caller asks for, or the fault that refuses it. There is neither
if the program stops: where the end cannot be computed, or comes out before the start. -/
def slice? (o : Overflow) (addr : UInt16) (len : UInt64) : Option (Except Fault Nat) :=
  (o.add? addr.toUInt64 len).bind fun stop =>
    if 0x1000 < stop then some (.error (.outOfBounds (firstOutside addr)))
    else if stop < addr.toUInt64 then none
    else some (.ok (stop.toNat - addr.toNat))

/-- The bytes of a slice. -/
def readSlice? (o : Overflow) (m : Memory) (addr : UInt16) (len : UInt64) :
    Option (Except Fault (List UInt8)) :=
  (slice? o addr len).map fun answer => answer.map (m.bytesFrom addr.toNat)

/-- Put one byte into every place of a slice. -/
def fill? (o : Overflow) (m : Memory) (addr : UInt16) (len : UInt64) (byte : UInt8) :
    Option (Outcome Memory) :=
  (slice? o addr len).map fun answer =>
    .ask m answer fun n => .done (m.overwrite addr.toNat (List.replicate n byte))

/-- A slice stops the program if its end does not fit into a machine word, unless the sum wraps
round to an end that still lies past the last address. -/
def Overruns (o : Overflow) (addr : UInt16) (len : UInt64) : Prop :=
  0x10000000000000000 ≤ addr.toNat + len.toNat ∧
    (o = .stops ∨ addr.toNat + len.toNat - 0x10000000000000000 ≤ size)

instance (o : Overflow) (addr : UInt16) (len : UInt64) : Decidable (Overruns o addr len) :=
  inferInstanceAs (Decidable (_ ∧ _))

/-- Where an end is computed, it is compared as a number. -/
theorem slice?_of_add? {o : Overflow} {addr : UInt16} {len stop : UInt64}
    (h : o.add? addr.toUInt64 len = some stop) :
    slice? o addr len =
      if size < stop.toNat then some (.error (.outOfBounds (firstOutside addr)))
      else if stop.toNat < addr.toNat then none
      else some (.ok (stop.toNat - addr.toNat)) := by
  have hend : 0x1000 < stop ↔ size < stop.toNat := UInt64.lt_iff_toNat_lt
  have horder : stop < addr.toUInt64 ↔ stop.toNat < addr.toNat := by
    rw [UInt64.lt_iff_toNat_lt, UInt16.toNat_toUInt64]
  rw [slice?, h, Option.bind_some]
  simp only [hend, horder]

/-- While its end fits into a machine word, a slice is granted exactly if its range exists. -/
theorem slice?_of_lt (o : Overflow) {addr : UInt16} {len : UInt64}
    (h : addr.toNat + len.toNat < 0x10000000000000000) :
    slice? o addr len = some ((check addr len.toNat).map fun _ => len.toNat) := by
  have hadd : o.add? addr.toUInt64 len = some (addr.toUInt64 + len) :=
    o.add?_of_lt (by rwa [UInt16.toNat_toUInt64])
  have hsum : (addr.toUInt64 + len).toNat = addr.toNat + len.toNat := by
    rw [UInt64.toNat_add, UInt16.toNat_toUInt64, Nat.mod_eq_of_lt h]
  rw [slice?_of_add? hadd, hsum]
  by_cases hin : InRange addr len.toNat
  · rw [if_neg (Nat.not_lt.mpr hin), if_neg (Nat.not_lt.mpr (Nat.le_add_right ..)),
      Nat.add_sub_cancel_left, check_of_inRange hin]
    rfl
  · rw [if_pos (Nat.not_le.mp hin), check_of_not_inRange hin]
    rfl

/-- A sum that wraps round falls below the address it started from, so no such slice is granted. -/
theorem slice?_wraps_of_le {addr : UInt16} {len : UInt64}
    (h : 0x10000000000000000 ≤ addr.toNat + len.toNat) :
    slice? .wraps addr len =
      if addr.toNat + len.toNat - 0x10000000000000000 ≤ size then none
      else some (.error (.outOfBounds (firstOutside addr))) := by
  have haddr := addr.toNat_lt
  have hlen := len.toNat_lt
  have hsum : (addr.toUInt64 + len).toNat = addr.toNat + len.toNat - 0x10000000000000000 := by
    rw [UInt64.toNat_add, UInt16.toNat_toUInt64]
    omega
  have horder : addr.toNat + len.toNat - 0x10000000000000000 < addr.toNat := by omega
  have hadd : Overflow.wraps.add? addr.toUInt64 len = some (addr.toUInt64 + len) := rfl
  rw [slice?_of_add? hadd, hsum, if_pos horder]
  by_cases hin : addr.toNat + len.toNat - 0x10000000000000000 ≤ size
  · rw [if_neg (Nat.not_lt.mpr hin), if_pos hin]
  · rw [if_pos (Nat.not_le.mp hin), if_neg hin]

/-- A slice stops the program, or is granted exactly if its range exists. -/
theorem slice?_eq (o : Overflow) (addr : UInt16) (len : UInt64) :
    slice? o addr len = if Overruns o addr len then none
      else some ((check addr len.toNat).map fun _ => len.toNat) := by
  rcases Nat.lt_or_ge (addr.toNat + len.toNat) 0x10000000000000000 with hfits | hover
  · rw [slice?_of_lt o hfits, if_neg fun h => Nat.not_le.mpr hfits h.1]
  · have hout : ¬ InRange addr len.toNat := by
      unfold InRange size
      omega
    rw [check_of_not_inRange hout]
    cases o with
    | stops =>
      have hadd : Overflow.stops.add? addr.toUInt64 len = none := by
        rw [Overflow.add?, UInt16.toNat_toUInt64, if_neg (Nat.not_lt.mpr hover)]
      rw [slice?, hadd, if_pos ⟨hover, .inl rfl⟩]
      rfl
    | wraps =>
      rw [slice?_wraps_of_le hover]
      by_cases hin : addr.toNat + len.toNat - 0x10000000000000000 ≤ size
      · rw [if_pos hin, if_pos ⟨hover, .inr hin⟩]
      · rw [if_neg hin, if_neg fun h => hin (h.2.resolve_left nofun)]
        rfl

/-- A fill stops the program, or does what writing the byte so many times does. -/
theorem fill?_eq (o : Overflow) (m : Memory) (addr : UInt16) (len : UInt64) (byte : UInt8) :
    m.fill? o addr len byte = if Overruns o addr len then none
      else some (m.write addr (List.replicate len.toNat byte)) := by
  rw [fill?, slice?_eq]
  split
  · rfl
  · rw [Option.map_some, write, List.length_replicate]
    by_cases hin : InRange addr len.toNat
    · rw [check_of_inRange hin]
      rfl
    · rw [check_of_not_inRange hin]
      rfl

end Memory

end ChipVM
