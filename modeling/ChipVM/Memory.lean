import ChipVM.Memory.Font
import ChipVM.Outcome

/-!
# Memory

Four kilobytes of storage with the font built in. Every access names a range and checks it before
anything else: a range that is not wholly inside is refused. Here a range is as long as bytes that
are at hand or as an instruction says, and no sum leaves a machine word; the slices of any length
that a caller may ask for are a module of their own.
-/

namespace ChipVM

/-- The store, one byte per address. -/
structure Memory where
  bytes : Vector UInt8 0x1000
  deriving DecidableEq, Repr

namespace Memory

/-- How many bytes there are. -/
def size : Nat := 0x1000

/-- Where programs are put. -/
def programStart : UInt16 := 0x200

/-- The `len` addresses from `addr` on all exist. -/
def InRange (addr : UInt16) (len : Nat) : Prop := addr.toNat + len ≤ size

instance (addr : UInt16) (len : Nat) : Decidable (InRange addr len) :=
  inferInstanceAs (Decidable (_ ≤ _))

/-- The first address of a range from `addr` on that lies outside, given that one does. -/
def firstOutside (addr : UInt16) : UInt16 := if addr < 0x1000 then 0x1000 else addr

/-- Refuse a range that is not wholly inside. -/
def check (addr : UInt16) (len : Nat) : Except Fault Unit :=
  if InRange addr len then .ok () else .error (.outOfBounds (firstOutside addr))

/-- The byte at an address; there are only zeros outside. -/
def byteAt (m : Memory) (a : Nat) : UInt8 := m.bytes[a]?.getD 0

/-- Put a byte at an address; outside there is no place for it. -/
def put (m : Memory) (a : Nat) (b : UInt8) : Memory :=
  if h : a < 0x1000 then ⟨m.bytes.set a b h⟩ else m

/-- Put bytes one after another from `a` on, dropping those that fall outside. -/
def overwrite (m : Memory) (a : Nat) : List UInt8 → Memory
  | [] => m
  | b :: rest => overwrite (m.put a b) (a + 1) rest

/-- The store before any program is put in: the font, and zeros. -/
def initial : Memory := overwrite ⟨Vector.replicate 0x1000 0⟩ Font.address.toNat Font.rows

/-- So many bytes from `a` on. -/
def bytesFrom (m : Memory) (a len : Nat) : List UInt8 :=
  (List.range len).map fun k => m.byteAt (a + k)

/-- The bytes of a range. -/
def read (m : Memory) (addr : UInt16) (len : Nat) : Except Fault (List UInt8) :=
  (check addr len).map fun _ => m.bytesFrom addr.toNat len

/-- Put bytes into the range that starts at `addr`. -/
def write (m : Memory) (addr : UInt16) (data : List UInt8) : Outcome Memory :=
  .ask m (check addr data.length) fun _ => .done (m.overwrite addr.toNat data)

/-- Put a program image in its place. -/
def loadImage (m : Memory) (image : List UInt8) : Outcome Memory :=
  m.write programStart image

/-- The byte at an address that exists. -/
def readByte (m : Memory) (addr : UInt16) : Except Fault UInt8 :=
  (check addr 1).map fun _ => m.byteAt addr.toNat

/-- The two bytes at an address as one number, high byte first. -/
def wordAt (m : Memory) (a : Nat) : UInt16 :=
  UInt16.ofNat (0x100 * (m.byteAt a).toNat + (m.byteAt (a + 1)).toNat)

/-- The two bytes at an address, if both exist. -/
def readWord (m : Memory) (addr : UInt16) : Except Fault UInt16 :=
  (check addr 2).map fun _ => m.wordAt addr.toNat

/-- A check is passed exactly by the ranges that exist. -/
theorem check_eq_ok_iff {addr : UInt16} {len : Nat} :
    check addr len = .ok () ↔ InRange addr len := by
  unfold check
  split <;> simp_all

/-- A range that exists is let through. -/
theorem check_of_inRange {addr : UInt16} {len : Nat} (h : InRange addr len) :
    check addr len = .ok () := check_eq_ok_iff.mpr h

/-- A range that does not exist is refused with its first address outside. -/
theorem check_of_not_inRange {addr : UInt16} {len : Nat} (h : ¬ InRange addr len) :
    check addr len = .error (.outOfBounds (firstOutside addr)) := if_neg h

/-- Reading a range that exists gives its bytes. -/
theorem read_of_inRange (m : Memory) {addr : UInt16} {len : Nat} (h : InRange addr len) :
    m.read addr len = .ok (m.bytesFrom addr.toNat len) := by
  rw [read, check_of_inRange h]
  rfl

/-- Reading a range that does not exist is refused. -/
theorem read_of_not_inRange (m : Memory) {addr : UInt16} {len : Nat} (h : ¬ InRange addr len) :
    m.read addr len = .error (.outOfBounds (firstOutside addr)) := by
  rw [read, check_of_not_inRange h]
  rfl

/-- A word is read if both of its bytes exist. -/
theorem readWord_of_inRange (m : Memory) {addr : UInt16} (h : InRange addr 2) :
    m.readWord addr = .ok (m.wordAt addr.toNat) := by
  rw [readWord, check_of_inRange h]
  rfl

/-- A word is refused if one of its bytes does not exist. -/
theorem readWord_of_not_inRange (m : Memory) {addr : UInt16} (h : ¬ InRange addr 2) :
    m.readWord addr = .error (.outOfBounds (firstOutside addr)) := by
  rw [readWord, check_of_not_inRange h]
  rfl

/-- Bytes are put in place if their range exists. -/
theorem write_of_inRange (m : Memory) {addr : UInt16} {data : List UInt8}
    (h : InRange addr data.length) :
    m.write addr data = .done (m.overwrite addr.toNat data) := by
  rw [write, check_of_inRange h, Outcome.ask_ok]

/-- Bytes whose range does not exist change nothing. -/
theorem write_of_not_inRange (m : Memory) {addr : UInt16} {data : List UInt8}
    (h : ¬ InRange addr data.length) :
    m.write addr data = .failed m (.outOfBounds (firstOutside addr)) := by
  rw [write, check_of_not_inRange h, Outcome.ask_error]

/-- The reported address is the larger of the range's start and the end of memory. -/
theorem toNat_firstOutside (addr : UInt16) : (firstOutside addr).toNat = max addr.toNat 0x1000 := by
  unfold firstOutside
  split
  · next h =>
    have h' : addr.toNat < 0x1000 := by simpa [UInt16.lt_iff_toNat_lt] using h
    simp only [UInt16.reduceToNat]
    omega
  · next h =>
    have h' : ¬ addr.toNat < 0x1000 := by simpa [UInt16.lt_iff_toNat_lt] using h
    omega

/-- A memory is known by its bytes. -/
@[ext] theorem ext_byteAt {m m' : Memory} (h : ∀ a, m.byteAt a = m'.byteAt a) : m = m' := by
  obtain ⟨v⟩ := m
  obtain ⟨v'⟩ := m'
  refine congrArg Memory.mk (Vector.ext fun i hi => ?_)
  have hb := h i
  simpa only [byteAt, Vector.getElem?_eq_getElem hi, Option.getD_some] using hb

/-- Putting one byte changes the byte at its own address, if there is one, and no other. -/
theorem byteAt_put (m : Memory) (a : Nat) (b : UInt8) (k : Nat) :
    (m.put a b).byteAt k = if a = k ∧ k < size then b else m.byteAt k := by
  unfold put size
  split
  · next ha =>
    by_cases hk : a = k
    · subst hk
      simp [byteAt, ha]
    · simp [byteAt, hk]
  · next ha =>
    have hk : ¬ (a = k ∧ k < 0x1000) := by omega
    rw [if_neg hk]

/-- After bytes were put from `a` on, the addresses they cover hold them and all others are as
before. -/
theorem byteAt_overwrite (m : Memory) (a : Nat) (data : List UInt8) (k : Nat) :
    (m.overwrite a data).byteAt k =
      if a ≤ k ∧ k < a + data.length ∧ k < size then data[k - a]?.getD 0 else m.byteAt k := by
  induction data generalizing m a with
  | nil => simp [overwrite]; omega
  | cons b rest ih =>
    rw [overwrite, ih, byteAt_put, List.length_cons]
    by_cases h1 : a + 1 ≤ k ∧ k < a + 1 + rest.length ∧ k < size
    · have hk : k - a = (k - (a + 1)) + 1 := by omega
      rw [if_pos h1, if_pos (by omega), hk, List.getElem?_cons_succ]
    · rw [if_neg h1]
      by_cases h : a = k ∧ k < size
      · rw [if_pos h, if_pos (by omega), h.1, Nat.sub_self]
        rfl
      · rw [if_neg h, if_neg (by omega)]

end Memory

end ChipVM
