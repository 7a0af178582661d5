import ChipVM.Proofs.Machine.Step
import ChipVM.Proofs.Memory.LastStore

/-!
# Loading a program

A program fits by its own measure, so a machine never refuses one, whatever state it is in. The bytes
of the program are then in their place and the counter stands at the first of them; everything else is
as before. Memory by itself takes images of any length and has to refuse those that are too long.
-/

namespace ChipVM

namespace Memory

/-- An image is refused exactly if it is too long for its place. -/
theorem fault_loadImage_ne_none_iff (m : Memory) (image : List UInt8) :
    (m.loadImage image).fault ≠ none ↔ 3584 < image.length := by
  have hstart : 0x1000 < Memory.programStart.toNat + image.length ↔ 3584 < image.length := by
    simp only [programStart, UInt16.reduceToNat]
    omega
  exact (m.fault_write_ne_none_iff programStart image).trans hstart

/-- An image that is refused is not written at all. -/
theorem loadImage_of_fault {m : Memory} {image : List UInt8} {f : Fault}
    (h : (m.loadImage image).fault = some f) : (m.loadImage image).state = m :=
  (write_of_fault h).1

end Memory

namespace Machine

/-- After loading, a byte of memory is the program's if the program reaches it, and what it was
otherwise. -/
theorem byteAt_load (m : Machine) (p : Program) (a : Nat) :
    (m.load p).state.memory.byteAt a =
      if 0x200 ≤ a ∧ a < 0x200 + p.bytes.length then p.bytes[a - 0x200]?.getD 0
      else m.memory.byteAt a := by
  have hfits : p.bytes.length ≤ 3584 := p.fits
  have hstart : Memory.programStart.toNat = 0x200 := rfl
  rw [m.load_eq_done p, Outcome.state_done, Memory.byteAt_overwrite, hstart]
  by_cases h : 0x200 ≤ a ∧ a < 0x200 + p.bytes.length
  · have hsize : a < Memory.size := by
      unfold Memory.size
      omega
    rw [if_pos h, if_pos ⟨h.1, h.2, hsize⟩]
  · rw [if_neg h, if_neg fun hin => h ⟨hin.1, hin.2.1⟩]

/-- The image is in memory byte for byte. -/
theorem byteAt_load_image (m : Machine) (p : Program) {k : Nat} (hk : k < p.bytes.length) :
    (m.load p).state.memory.byteAt (0x200 + k) = p.bytes[k] := by
  rw [byteAt_load, if_pos ⟨Nat.le_add_right 0x200 k, Nat.add_lt_add_left hk 0x200⟩,
    Nat.add_sub_cancel_left, List.getElem?_eq_getElem hk, Option.getD_some]

/-- A word of the program is fetched where its two bytes have been put. -/
theorem fetch_load (m : Machine) (p : Program) {k : Nat} (hk : k + 1 < p.bytes.length) :
    ∃ op : Opcode,
      { (m.load p).state with regs.pc := UInt16.ofNat (0x200 + k) }.fetch = .ok op ∧
      op.word.toNat = 256 * p.bytes[k].toNat + p.bytes[k + 1].toNat := by
  have hfits : p.bytes.length ≤ 3584 := p.fits
  have hpc : (UInt16.ofNat (0x200 + k)).toNat = 0x200 + k := by
    rw [UInt16.toNat_ofNat']
    omega
  have hle : (UInt16.ofNat (0x200 + k)).toNat ≤ 0xFFE := by omega
  refine ⟨_, fetch_of_le hle, ?_⟩
  have hword := (m.load p).state.memory.toNat_wordAt (0x200 + k)
  rw [m.byteAt_load_image p (Nat.lt_of_succ_lt hk), Nat.add_assoc,
    m.byteAt_load_image p hk] at hword
  rw [opcode]
  exact (congrArg (fun a => ((m.load p).state.memory.wordAt a).toNat) hpc).trans hword

/-- Load any program into any machine. It succeeds, the counter stands at `0x200`, the program lies
there byte by byte, the rest of memory is as it was, and so is everything but memory and the counter.
Each pair of bytes at an even place is fetched as one word, the first byte high. Memory without a
machine refuses an image exactly if it has more than 3584 bytes, and then writes none of it. -/
theorem load_touches_image_and_counter (m : Machine) (p : Program) :
    let m' := (m.load p).state
    (m.load p).fault = none ∧
    m' = { m with memory := m'.memory, regs.pc := 0x200 } ∧
    (∀ k (hk : k < p.bytes.length), m'.memory.byteAt (0x200 + k) = p.bytes[k]) ∧
    (∀ a < 0x1000, ¬ (0x200 ≤ a ∧ a < 0x200 + p.bytes.length) →
      m'.memory.byteAt a = m.memory.byteAt a) ∧
    (∀ k (hk : 2 * k + 1 < p.bytes.length), ∃ op : Opcode,
      { m' with regs.pc := UInt16.ofNat (0x200 + 2 * k) }.fetch = .ok op ∧
      op.word.toNat = 256 * p.bytes[2 * k].toNat + p.bytes[2 * k + 1].toNat) ∧
    ∀ (memory : Memory) (image : List UInt8),
      ((memory.loadImage image).fault ≠ none ↔ 3584 < image.length) ∧
      ∀ f, (memory.loadImage image).fault = some f →
        (memory.loadImage image).state = memory := by
  intro m'
  refine ⟨?_, ?_, fun k hk => m.byteAt_load_image p hk, fun a _ hout => ?_,
    fun k hk => m.fetch_load p hk, fun memory image => ?_⟩
  · rw [m.load_eq_done p, Outcome.fault_done]
  · have hstate : m' = _ := congrArg Outcome.state (m.load_eq_done p)
    rw [hstate]
    rfl
  · exact (m.byteAt_load p a).trans (if_neg hout)
  · exact ⟨memory.fault_loadImage_ne_none_iff image, fun f => Memory.loadImage_of_fault⟩

/-- A program of five bytes that waits for a key at once. -/
def waiter : Program := ⟨[0xF0, 0x0A, 0x12, 0x00, 0x77], by decide⟩

/-- A program of three bytes. -/
def newcomer : Program := ⟨[0x60, 0x2A, 0x13], by decide⟩

/-- A machine that waits for a key. -/
def waiting : Machine :=
  (((initial .extended (RandomStream.ofSeed 8) 0).load waiter).state.step .released 0).state

/-- An image with one byte too many. -/
def oversized : List UInt8 := List.replicate 3585 1

/-- A short image leaves the byte behind it and the wait for a key as they were, its word is
fetched, and an image that is too long is refused. -/
theorem newcomer_leaves_tail :
    ¬ (0x200 ≤ 0x204 ∧ 0x204 < 0x200 + newcomer.bytes.length) ∧
    2 * 0 + 1 < newcomer.bytes.length ∧
    (Memory.initial.loadImage oversized).fault = some (.outOfBounds 0x1000) ∧
    waiting.awaitingKey = true ∧
    (waiting.load newcomer).state.awaitingKey = true ∧
    (waiting.load newcomer).state.memory.byteAt 0x204 = 0x77 ∧
    (∃ op : Opcode,
      { (waiting.load newcomer).state with regs.pc := UInt16.ofNat (0x200 + 2 * 0) }.fetch =
        .ok op ∧ op.word.toNat = 256 * 0x60 + 0x2A) ∧
    (Memory.initial.loadImage oversized).state = Memory.initial := by
  have htail : ¬ (0x200 ≤ 0x204 ∧ 0x204 < 0x200 + newcomer.bytes.length) := by decide
  have hword : 2 * 0 + 1 < newcomer.bytes.length := by decide
  have hrefused : (Memory.initial.loadImage oversized).fault = some (.outOfBounds 0x1000) := by
    decide +kernel
  have hwaits : waiting.awaitingKey = true := by decide +kernel
  have hold : waiting.memory.byteAt 0x204 = 0x77 := by decide +kernel
  obtain ⟨-, hstate, -, hrest, hwords, hraw⟩ := load_touches_image_and_counter waiting newcomer
  refine ⟨htail, hword, hrefused, hwaits, ?_, ?_, hwords 0 hword,
    (hraw Memory.initial oversized).2 _ hrefused⟩
  · rw [hstate]
    dsimp only
    exact hwaits
  · exact (hrest 0x204 (by decide) htail).trans hold

end Machine

end ChipVM
