/-!
# The keypad

Sixteen keys, each held or not, kept as one bit per key. Keys are named by bytes; a number past F is
on no keypad, so it can be neither pressed nor found held.
-/

namespace ChipVM

/-- Which keys are held, key `k` in bit `k`. -/
structure Keypad where
  held : BitVec 16
  deriving DecidableEq, Repr

/-- A change to the keypad. -/
inductive KeyChange where
  | press (key : UInt8)
  | release (key : UInt8)
  | releaseAll
  deriving DecidableEq, Repr

namespace Keypad

/-- No key held. -/
def released : Keypad := ⟨0⟩

/-- The key is held. -/
def isHeld (p : Keypad) (key : UInt8) : Bool := p.held.getLsbD key.toNat

/-- Hold a key or let it go. -/
def set (p : Keypad) (key : UInt8) (down : Bool) : Keypad :=
  let bit := BitVec.twoPow 16 key.toNat
  ⟨if down then p.held ||| bit else p.held &&& ~~~bit⟩

/-- Make a change. -/
def apply (p : Keypad) : KeyChange → Keypad
  | .press key => p.set key true
  | .release key => p.set key false
  | .releaseAll => released

/-- Every key there is, from the lowest. -/
def allKeys : List UInt8 := (List.range 16).map UInt8.ofNat

/-- The held keys, from the lowest. -/
def heldKeys (p : Keypad) : List UInt8 := allKeys.filter p.isHeld

/-- The lowest held key. -/
def first? (p : Keypad) : Option UInt8 := allKeys.find? p.isHeld

/-- A number past F is no key and is never held. -/
theorem isHeld_of_le (p : Keypad) {key : UInt8} (h : 16 ≤ key.toNat) : p.isHeld key = false :=
  BitVec.getLsbD_of_ge _ _ h

@[simp] theorem isHeld_released (key : UInt8) : released.isHeld key = false := by
  simp [released, isHeld]

/-- Setting a key changes that key, if it is on the keypad, and no other. -/
theorem isHeld_set (p : Keypad) (key : UInt8) (down : Bool) (k : UInt8) :
    (p.set key down).isHeld k =
      if key = k ∧ key.toNat < 16 then down else p.isHeld k := by
  by_cases hk : k.toNat < 16
  · by_cases h : key = k
    · subst h
      cases down <;> simp [set, isHeld, hk]
    · have hne : k.toNat ≠ key.toNat := fun e => h (UInt8.toNat_inj.mp e.symm)
      cases down <;> simp [set, isHeld, h, hk, hne]
  · rw [isHeld_of_le _ (by omega), isHeld_of_le _ (by omega)]
    split
    · next h => exact absurd (h.1 ▸ h.2) hk
    · rfl

theorem mem_allKeys_iff {key : UInt8} : key ∈ allKeys ↔ key.toNat < 16 := by
  rw [allKeys, List.mem_map]
  constructor
  · rintro ⟨k, hk, rfl⟩
    have hlt := List.mem_range.mp hk
    rw [UInt8.toNat_ofNat']
    omega
  · exact fun hk => ⟨key.toNat, List.mem_range.mpr hk, UInt8.ofNat_toNat⟩

/-- No key is found exactly if none is held. -/
theorem first?_eq_none_iff {p : Keypad} : p.first? = none ↔ ∀ key, p.isHeld key = false := by
  simp only [first?, List.find?_eq_none, Bool.not_eq_true]
  constructor
  · intro h key
    by_cases hk : 16 ≤ key.toNat
    · exact p.isHeld_of_le hk
    · exact h key (mem_allKeys_iff.mpr (Nat.lt_of_not_le hk))
  · exact fun h key _ => h key

/-- The key that is found is the lowest held one. -/
theorem first?_eq_some_iff {p : Keypad} {key : UInt8} :
    p.first? = some key ↔ p.isHeld key = true ∧ ∀ k < key, p.isHeld k = false := by
  rw [first?, List.find?_eq_some_iff_getElem]
  constructor
  · rintro ⟨hheld, i, hi, rfl, hbelow⟩
    refine ⟨hheld, fun k hk => ?_⟩
    simp only [allKeys, List.length_map, List.length_range] at hi
    have hlt : k.toNat < i := by
      simpa [allKeys, UInt8.lt_iff_toNat_lt, Nat.mod_eq_of_lt (show i < 256 by omega)] using hk
    simpa [allKeys] using hbelow k.toNat hlt
  · rintro ⟨hheld, hbelow⟩
    have hkey : key.toNat < 16 := by
      rcases Nat.lt_or_ge key.toNat 16 with h | h
      · exact h
      · rw [p.isHeld_of_le h] at hheld
        cases hheld
    refine ⟨hheld, key.toNat, by simpa [allKeys] using hkey, by simp [allKeys], fun j hj => ?_⟩
    have hlow := hbelow (UInt8.ofNat j) (by
      rw [UInt8.lt_iff_toNat_lt, UInt8.toNat_ofNat']
      omega)
    simpa [allKeys] using hlow

/-- A keypad is known by the keys that are held on it. -/
@[ext] theorem ext_isHeld {p q : Keypad} (h : ∀ k, p.isHeld k = q.isHeld k) : p = q := by
  obtain ⟨a⟩ := p
  obtain ⟨b⟩ := q
  refine congrArg Keypad.mk (BitVec.eq_of_getLsbD_eq fun i hi => ?_)
  have hk := h (UInt8.ofNat i)
  have hm : (UInt8.ofNat i).toNat = i := by
    rw [UInt8.toNat_ofNat']
    omega
  simpa only [isHeld, hm] using hk

end Keypad

end ChipVM
