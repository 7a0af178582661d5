import ChipVM.Memory.Slice

/-!
# The last store counts

Bytes get into memory by writes, by program images and by fills. A fill of a length that takes its
end out of a machine word can stop the program. Every other store is refused or goes through as a
whole, and which of the two its range alone decides. So after any number of them an address holds
what the last one has put there that went through and covers it, or what was built in if there is
none.
-/

namespace ChipVM.Memory

/-- A way to put bytes into memory. -/
inductive Store where
  /-- Bytes one after another from an address on. -/
  | write (start : UInt16) (data : List UInt8)
  /-- A program image in its place. -/
  | image (data : List UInt8)
  /-- The same byte into every place of a slice. -/
  | fill (start : UInt16) (len : UInt64) (byte : UInt8)
  deriving DecidableEq, Repr

namespace Store

/-- Where the range of a store begins. -/
def addr : Store → UInt16
  | write start _ | fill start _ _ => start
  | image _ => programStart

/-- The bytes that a store puts into its range. -/
def bytes : Store → List UInt8
  | write _ data | image data => data
  | fill _ len byte => List.replicate len.toNat byte

@[simp] theorem length_bytes_fill (start : UInt16) (len : UInt64) (byte : UInt8) :
    (fill start len byte).bytes.length = len.toNat := List.length_replicate

/-- A store stops the program if it asks for a slice that does. -/
def Stops (o : Overflow) : Store → Prop
  | write _ _ | image _ => False
  | fill start len _ => Overruns o start len

instance (o : Overflow) : (s : Store) → Decidable (s.Stops o)
  | write _ _ | image _ => inferInstanceAs (Decidable False)
  | fill start len _ => inferInstanceAs (Decidable (Overruns o start len))

/-- The byte that a store puts at an address: it has to go through and to cover the address. -/
def put? (s : Store) (a : Nat) : Option UInt8 :=
  if s.addr.toNat + s.bytes.length ≤ 0x1000 ∧ s.addr.toNat ≤ a then s.bytes[a - s.addr.toNat]?
  else none

end Store

/-- Carry out a store; `none` if it stops the program. -/
def store? (o : Overflow) (m : Memory) : Store → Option (Outcome Memory)
  | .write start data => some (m.write start data)
  | .image data => some (m.loadImage data)
  | .fill start len byte => m.fill? o start len byte

/-- The memory after a number of stores, whether or not they went through; `none` if one of them
has stopped the program. -/
def storeAll? (o : Overflow) (m : Memory) (stores : List Store) : Option Memory :=
  stores.foldlM (fun m s => (m.store? o s).map Outcome.state) m

variable {o : Overflow}

/-- Every store stops the program or comes down to writing its bytes at its address. -/
theorem store?_eq (m : Memory) (s : Store) :
    m.store? o s = if s.Stops o then none else some (m.write s.addr s.bytes) := by
  cases s with
  | write start data => rfl
  | image data => rfl
  | fill start len byte => exact m.fill?_eq o start len byte

/-- A store gives no answer exactly if it stops the program. -/
theorem store?_eq_none_iff (m : Memory) (s : Store) : m.store? o s = none ↔ s.Stops o := by
  rw [store?_eq]
  split
  · next hstops => exact iff_of_true rfl hstops
  · next hgoes => exact iff_of_false nofun hgoes

/-- The answer to a store is that to writing its bytes. -/
theorem eq_write_of_store? {m : Memory} {s : Store} {out : Outcome Memory}
    (h : m.store? o s = some out) : out = m.write s.addr s.bytes := by
  rw [store?_eq] at h
  split at h
  · nomatch h
  · exact (Option.some.inj h).symm

/-- Bytes are refused exactly if their range goes past the end. -/
theorem fault_write_ne_none_iff (m : Memory) (addr : UInt16) (data : List UInt8) :
    (m.write addr data).fault ≠ none ↔ 0x1000 < addr.toNat + data.length := by
  by_cases hin : InRange addr data.length
  · rw [m.write_of_inRange hin]
    exact iff_of_false (fun h => h rfl) (Nat.not_lt.mpr hin)
  · rw [m.write_of_not_inRange hin]
    exact iff_of_true nofun (Nat.not_le.mp hin)

/-- Bytes that are refused change nothing, and the fault names the first address outside. -/
theorem write_of_fault {m : Memory} {addr : UInt16} {data : List UInt8} {f : Fault}
    (h : (m.write addr data).fault = some f) :
    (m.write addr data).state = m ∧
      ∃ address, f = .outOfBounds address ∧ address.toNat = max addr.toNat 0x1000 := by
  have hout : ¬ InRange addr data.length :=
    Nat.not_le.mpr ((m.fault_write_ne_none_iff addr data).mp (by simp [h]))
  rw [m.write_of_not_inRange hout] at h ⊢
  exact ⟨rfl, firstOutside addr, (Option.some.inj h).symm, toNat_firstOutside addr⟩

/-- Writing a store's bytes leaves at an address what the store puts there, and what was there if it
puts nothing. -/
theorem byteAt_write (m : Memory) (s : Store) (a : Nat) :
    (m.write s.addr s.bytes).state.byteAt a = (s.put? a).getD (m.byteAt a) := by
  rcases Nat.lt_or_ge 0x1000 (s.addr.toNat + s.bytes.length) with hout | hin
  · have hnone : s.put? a = none := if_neg fun h => Nat.not_le.mpr hout h.1
    rw [m.write_of_not_inRange (Nat.not_le.mpr hout), hnone]
    rfl
  · rw [m.write_of_inRange hin, Outcome.state_done, byteAt_overwrite, Store.put?]
    by_cases hcovers : s.addr.toNat ≤ a ∧ a < s.addr.toNat + s.bytes.length
    · have hlt : a - s.addr.toNat < s.bytes.length := by omega
      have hsize : a < size := Nat.lt_of_lt_of_le hcovers.2 hin
      rw [if_pos ⟨hcovers.1, hcovers.2, hsize⟩, if_pos ⟨hin, hcovers.1⟩,
        List.getElem?_eq_getElem hlt]
      rfl
    · rw [if_neg fun h => hcovers ⟨h.1, h.2.1⟩]
      split
      · next h =>
        rw [List.getElem?_eq_none (by omega)]
        rfl
      · rfl

/-- A first store that goes on leaves its memory to the rest. -/
theorem storeAll?_cons (m : Memory) (s : Store) (rest : List Store) :
    m.storeAll? o (s :: rest) =
      if s.Stops o then none else (m.write s.addr s.bytes).state.storeAll? o rest := by
  have hcons : m.storeAll? o (s :: rest) =
      ((m.store? o s).map Outcome.state).bind (storeAll? o · rest) := List.foldlM_cons ..
  rw [hcons, store?_eq]
  split <;> rfl

/-- A number of stores stops the program exactly if one of them does. -/
theorem storeAll?_eq_none_iff (m : Memory) (stores : List Store) :
    m.storeAll? o stores = none ↔ ∃ s ∈ stores, s.Stops o := by
  induction stores generalizing m with
  | nil => exact iff_of_false nofun nofun
  | cons s rest ih =>
    simp only [storeAll?_cons, List.mem_cons, exists_eq_or_imp]
    by_cases hstops : s.Stops o
    · rw [if_pos hstops]
      exact iff_of_true rfl (.inl hstops)
    · rw [if_neg hstops, ih]
      exact (or_iff_right hstops).symm

/-- After a number of stores an address holds what the last one has put there that put anything. -/
theorem byteAt_storeAll? {m m' : Memory} {stores : List Store}
    (h : m.storeAll? o stores = some m') (a : Nat) :
    m'.byteAt a = (stores.filterMap (·.put? a)).getLast?.getD (m.byteAt a) := by
  induction stores generalizing m with
  | nil => rw [← Option.some.inj h]; rfl
  | cons s rest ih =>
    rw [storeAll?_cons] at h
    split at h
    · nomatch h
    · rw [ih h, byteAt_write]
      cases hput : s.put? a with
      | none => simp only [List.filterMap_cons, hput, Option.getD_none]
      | some b => simp only [List.filterMap_cons, hput, List.getLast?_cons, Option.getD_some]

/-- Before anything is stored there are the font and zeros. -/
theorem byteAt_initial (a : Nat) :
    initial.byteAt a =
      if 0x050 ≤ a ∧ a ≤ 0x09F then Font.rows[a - 0x050]?.getD 0 else 0 := by
  have hstart : Font.address.toNat = 0x050 := rfl
  have hzero : (⟨Vector.replicate 0x1000 0⟩ : Memory).byteAt a = 0 := by
    simp only [byteAt, Vector.getElem?_replicate]
    split <;> rfl
  rw [initial, byteAt_overwrite, hstart, Font.length_rows, hzero]
  by_cases h : 0x050 ≤ a ∧ a ≤ 0x09F
  · rw [if_pos h, if_pos ⟨h.1, by omega, by unfold size; omega⟩]
  · rw [if_neg h, if_neg (by omega)]

/-- A word that ends inside is read. -/
theorem readWord_of_le (m : Memory) {a : UInt16} (h : a.toNat ≤ 0xFFE) :
    m.readWord a = .ok (m.wordAt a.toNat) :=
  m.readWord_of_inRange (Nat.add_le_add_right h 2)

/-- A word that ends outside is refused. -/
theorem readWord_of_lt (m : Memory) {a : UInt16} (h : 0xFFE < a.toNat) :
    m.readWord a = .error (.outOfBounds (firstOutside a)) :=
  m.readWord_of_not_inRange (Nat.not_le.mpr (Nat.add_lt_add_right h 2))

/-- No two bytes make too large a number for a word. -/
theorem toNat_wordAt (m : Memory) (a : Nat) :
    (m.wordAt a).toNat = 256 * (m.byteAt a).toNat + (m.byteAt (a + 1)).toNat := by
  have hhigh := (m.byteAt a).toNat_lt
  have hlow := (m.byteAt (a + 1)).toNat_lt
  simp only [wordAt, UInt16.toNat_ofNat']
  omega

/-- In either build a number of stores on a new memory stops the program exactly if one of them asks
for a slice that does. If none has, then another one that does not stop the program either is refused
exactly if its range goes past the end; the fault names the larger of its address and the end, and no
byte has changed. Each address holds the byte of the last store that went through and covers it, or
the built-in one. And two of these bytes are read as one number exactly if both exist. -/
theorem last_store_counts (o : Overflow) (stores : List Store) :
    (initial.storeAll? o stores = none ↔ ∃ s ∈ stores, s.Stops o) ∧
    ∀ m, initial.storeAll? o stores = some m →
      (∀ s : Store,
        (m.store? o s = none ↔ s.Stops o) ∧
        ∀ out, m.store? o s = some out →
          (out.fault ≠ none ↔ 0x1000 < s.addr.toNat + s.bytes.length) ∧
          ∀ f, out.fault = some f →
            out.state = m ∧
            ∃ address, f = .outOfBounds address ∧ address.toNat = max s.addr.toNat 0x1000) ∧
      (∀ a < 0x1000, m.byteAt a = (stores.filterMap (·.put? a)).getLast?.getD
        (if 0x050 ≤ a ∧ a ≤ 0x09F then Font.rows[a - 0x050]?.getD 0 else 0)) ∧
      ∀ a : UInt16,
        ((∃ f, m.readWord a = .error f) ↔ 0xFFE < a.toNat) ∧
        ∀ w, m.readWord a = .ok w →
          w.toNat = 256 * (m.byteAt a.toNat).toNat + (m.byteAt (a.toNat + 1)).toNat := by
  refine ⟨storeAll?_eq_none_iff initial stores, fun m hm => ⟨fun s => ?_, fun a _ => ?_,
    fun a => ?_⟩⟩
  · refine ⟨m.store?_eq_none_iff s, fun out hout => ?_⟩
    obtain rfl := eq_write_of_store? hout
    exact ⟨m.fault_write_ne_none_iff s.addr s.bytes, fun f => write_of_fault⟩
  · rw [← byteAt_initial]
    exact byteAt_storeAll? hm a
  · rcases Nat.lt_or_ge 0xFFE a.toNat with hout | hin
    · rw [m.readWord_of_lt hout]
      exact ⟨iff_of_true ⟨_, rfl⟩ hout, nofun⟩
    · rw [m.readWord_of_le hin]
      refine ⟨iff_of_false nofun (Nat.not_lt.mpr hin), fun w hw => ?_⟩
      rw [← Except.ok.inj hw, toNat_wordAt]

/-- A fill takes one byte of an image away, a refused write takes none, the rest of the image is read
as a word, and another fill that goes past the end changes nothing. -/
theorem fill_counts_over_image :
    ∃ m, initial.storeAll? .stops [.image [0x12, 0x34, 0x56], .fill 0x200 1 0x0A,
        .write 0xFFF [1, 2]] = some m ∧
      m.byteAt 0x200 = 0x0A ∧ m.byteAt 0xFFF = 0 ∧ m.byteAt 0x050 = 0xF0 ∧
      (∃ w, m.readWord 0x201 = .ok w ∧ w.toNat = 0x3456) ∧
      ∃ out, m.store? .stops (.fill 0x800 0x801 1) = some out ∧ out.fault ≠ none ∧
        out.state = m := by
  obtain ⟨hstops, hgoes⟩ := last_store_counts .stops
    [.image [0x12, 0x34, 0x56], .fill 0x200 1 0x0A, .write 0xFFF [1, 2]]
  obtain ⟨m, hm⟩ := Option.ne_none_iff_exists'.mp ((not_congr hstops).mpr (by decide))
  obtain ⟨hstore, hbyte, hword⟩ := hgoes m hm
  refine ⟨m, hm, hbyte 0x200 (by decide), hbyte 0xFFF (by decide), hbyte 0x050 (by decide), ?_, ?_⟩
  · have haddr : (0x201 : UInt16).toNat = 0x201 := rfl
    cases hread : m.readWord 0x201 with
    | error f => exact absurd ((hword 0x201).1.mp ⟨f, hread⟩) (by decide)
    | ok w =>
      refine ⟨w, rfl, ?_⟩
      rw [(hword 0x201).2 w hread, haddr, hbyte 0x201 (by decide), hbyte 0x202 (by decide)]
      rfl
  · obtain ⟨hnone, hanswer⟩ := hstore (.fill 0x800 0x801 1)
    obtain ⟨out, hout⟩ := Option.ne_none_iff_exists'.mp ((not_congr hnone).mpr (by decide))
    obtain ⟨hrefused, hunchanged⟩ := hanswer out hout
    have hpast : 0x1000 < (Store.fill 0x800 0x801 1).addr.toNat +
        (Store.fill 0x800 0x801 1).bytes.length := by
      rw [Store.length_bytes_fill]
      decide
    obtain ⟨f, hf⟩ := Option.ne_none_iff_exists'.mp (hrefused.mpr hpast)
    exact ⟨out, hout, hrefused.mpr hpast, (hunchanged f hf).1⟩

/-- A fill past the end is not refused if its end leaves the machine word: in both builds it stops
the program. -/
theorem no_answer_past_machine_word :
    0x1000 < (Store.fill 1 0xFFFFFFFFFFFFFFFF 0).addr.toNat +
        (Store.fill 1 0xFFFFFFFFFFFFFFFF 0).bytes.length ∧
      initial.store? .stops (.fill 1 0xFFFFFFFFFFFFFFFF 0) = none ∧
      initial.store? .wraps (.fill 1 0xFFFFFFFFFFFFFFFF 0) = none := by
  refine ⟨?_, (store?_eq_none_iff _ _).mpr (by decide), (store?_eq_none_iff _ _).mpr (by decide)⟩
  rw [Store.length_bytes_fill]
  decide

end ChipVM.Memory
