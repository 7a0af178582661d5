import ChipVM.Proofs.Machine.Control
import ChipVM.Session

/-!
# Bounds on the counter and the stack

No history takes the program counter past the farthest jump with an offset, or the return stack past
its limit, and every return address lies just behind a word in memory. The bounds are kept by each
instruction, by a failed step and by loading a program; under them no address arithmetic on the
counter wraps around.
-/

namespace ChipVM

/-- A machine as histories leave it. -/
structure Machine.Bounded (m : Machine) : Prop where
  /-- No more calls are open than there is room for. -/
  depth_le : m.stack.length ≤ Machine.stackLimit
  /-- Every return address lies behind a whole word. -/
  returns : ∀ a ∈ m.stack, 2 ≤ a.toNat ∧ a.toNat ≤ 0x1000
  /-- The farthest jump goes from the highest base by the highest offset. -/
  pc_le : m.regs.pc.toNat ≤ 0x10FE

/-- Adding a byte to a twelve-bit address does not wrap around. -/
theorem toNat_offset {base : UInt16} (h : base.toNat < 0x1000) (b : UInt8) :
    (base + b.toUInt16).toNat = base.toNat + b.toNat := by
  have hb := b.toNat_lt
  simp only [UInt16.toNat_add, UInt8.toNat_toUInt16]
  omega

theorem toNat_add_two {a : UInt16} (h : a.toNat < 0xFFFE) : (a + 2).toNat = a.toNat + 2 := by
  simp only [UInt16.toNat_add, UInt16.reduceToNat]
  omega

theorem toNat_sub_two {a : UInt16} (h : 2 ≤ a.toNat) : (a - 2).toNat = a.toNat - 2 :=
  UInt16.toNat_sub_of_le a 2 (UInt16.le_iff_toNat_le.mpr h)

namespace Machine

/-- From behind a whole word, with sound return addresses on the stack, no instruction that a word
stands for lands out of bounds. -/
theorem landing_le {m : Machine} (keys : Keypad) (hlow : 2 ≤ m.regs.pc.toNat)
    (hhigh : m.regs.pc.toNat ≤ 0x1000) (hret : ∀ a ∈ m.stack, 2 ≤ a.toNat ∧ a.toNat ≤ 0x1000)
    {op : Opcode} {i : Instruction Reg} (hi : op.StandsFor i) :
    (m.landing keys i).toNat ≤ 0x10FE := by
  have hnnn := op.toNat_nnn_lt
  cases i with
  | ret =>
    cases hs : m.stack with
    | nil => simp only [landing, hs, List.headD_nil]; omega
    | cons a rest =>
      have ha := hret a (by simp [hs])
      simp only [landing, hs, List.headD_cons]
      omega
  | jump target =>
    obtain ⟨-, rfl⟩ := hi
    simp only [landing]
    omega
  | call target =>
    obtain ⟨-, rfl⟩ := hi
    simp only [landing]
    split <;> omega
  | jumpOffset x base =>
    obtain ⟨-, -, rfl⟩ := hi
    have hb := (m.regs.get (if m.variant.rules.offsetIsFirst then Reg.first else x)).toNat_lt
    rw [landing, toNat_offset hnnn]
    omega
  | awaitKey x =>
    have hback := toNat_sub_two hlow
    simp only [landing]
    split <;> omega
  | _ =>
    have hskip := toNat_add_two (a := m.regs.pc) (by omega)
    simp only [landing]
    split <;> omega

/-- A call pushes an address behind a whole word, and only below the limit. -/
theorem stackAfter_bounded {m : Machine} (hlow : 2 ≤ m.regs.pc.toNat)
    (hhigh : m.regs.pc.toNat ≤ 0x1000) (hdepth : m.stack.length ≤ stackLimit)
    (hret : ∀ a ∈ m.stack, 2 ≤ a.toNat ∧ a.toNat ≤ 0x1000) (i : Instruction Reg) :
    (m.stackAfter i).length ≤ stackLimit ∧
      ∀ a ∈ m.stackAfter i, 2 ≤ a.toNat ∧ a.toNat ≤ 0x1000 := by
  cases i with
  | ret =>
    refine ⟨?_, fun a ha => hret a (List.mem_of_mem_tail ha)⟩
    rw [stackAfter, List.length_tail]
    omega
  | call target =>
    by_cases hfull : stackLimit ≤ m.stack.length
    · rw [stackAfter, if_pos hfull]
      exact ⟨hdepth, hret⟩
    · rw [stackAfter, if_neg hfull]
      refine ⟨by rw [List.length_cons]; omega, fun a ha => ?_⟩
      rcases List.mem_cons.mp ha with rfl | ha
      · exact ⟨hlow, hhigh⟩
      · exact hret a ha
  | _ => exact ⟨hdepth, hret⟩

/-- A new session is within its bounds. -/
theorem bounded_initial (variant : Variant) (random : RandomStream) (now : Nanos) :
    (initial variant random now).Bounded where
  depth_le := Nat.zero_le _
  returns := nofun
  pc_le := (by decide : Memory.programStart.toNat ≤ 0x10FE)

/-- A loaded program keeps the machine within its bounds. -/
theorem Bounded.load {m : Machine} (hm : m.Bounded) (p : Program) : (m.load p).state.Bounded := by
  rw [m.load_eq_done p]
  exact ⟨hm.depth_le, hm.returns, (by decide : Memory.programStart.toNat ≤ 0x10FE)⟩

/-- A step keeps the bounds, whichever way it goes. -/
theorem Bounded.step {m : Machine} (hm : m.Bounded) (keys : Keypad) (now : Nanos) :
    (m.step keys now).state.Bounded := by
  rcases m.step_cases keys now with ⟨-, hs⟩ | ⟨hpc, -, hs⟩ | ⟨i, hpc, hd, hs⟩
  · rw [hs]
    exact hm
  · have hadv := toNat_pc_advance (m := m) (by omega)
    rw [hs]
    exact ⟨hm.depth_le, hm.returns, by rw [Outcome.state_failed, hadv]; omega⟩
  · have hready : m.ready.regs.pc.toNat = m.regs.pc.toNat + 2 := toNat_pc_advance (by omega)
    have hstack := stackAfter_bounded (m := m.ready) (by omega) (by omega) hm.depth_le hm.returns i
    rw [hs]
    constructor
    · rw [stack_execute]
      exact hstack.1
    · rw [stack_execute]
      exact hstack.2
    · rw [pc_execute]
      exact landing_le (m := m.ready) keys (by omega) (by omega) hm.returns
        (Instruction.standsFor_of_decode? hd)

/-- Within its bounds the counter moves on without wrapping. -/
theorem Bounded.toNat_advance {m : Machine} (hm : m.Bounded) :
    m.advance.regs.pc.toNat = m.regs.pc.toNat + 2 :=
  toNat_pc_advance (by have hpc := hm.pc_le; omega)

/-- Within its bounds the counter skips without wrapping. -/
theorem Bounded.toNat_skip {m : Machine} (hm : m.Bounded) :
    m.ready.regs.skip.pc.toNat = m.ready.regs.pc.toNat + 2 := by
  have hpc := hm.pc_le
  have hready : m.ready.regs.pc.toNat = m.regs.pc.toNat + 2 := hm.toNat_advance
  exact toNat_add_two (by omega)

/-- Waiting for a key takes the counter back by exactly what fetching has moved it. -/
theorem Bounded.toNat_takeKey {m : Machine} (hm : m.Bounded) {keys : Keypad}
    (hk : keys.first? = none) (x : Reg) :
    ((m.ready.takeKey keys x).regs.pc.toNat : Int) = (m.ready.regs.pc.toNat : Int) - 2 := by
  have hready : m.ready.regs.pc.toNat = m.regs.pc.toNat + 2 := hm.toNat_advance
  have hback := toNat_sub_two (a := m.ready.regs.pc) (by omega)
  rw [(m.ready.takeKey_pc_stack keys x).1, if_pos hk]
  omega

/-- A jump with an offset that stands in memory goes to the exact sum. -/
theorem toNat_jumpOffset {m : Machine} {x : Reg} {base : UInt16}
    (hi : m.upcoming? = some (.jumpOffset x base)) (rules : Rules) :
    (m.ready.regs.jumpOffset rules x base).pc.toNat =
      base.toNat + (m.regs.get (if rules.offsetIsFirst then Reg.first else x)).toNat := by
  obtain ⟨-, -, rfl⟩ :=
    Instruction.standsFor_of_decode? (upcoming?_eq_some_iff.mp hi).2
  exact toNat_offset m.opcode.toNat_nnn_lt _

end Machine

namespace Session

/-- Every event keeps the machine within its bounds. -/
theorem bounded_apply {s : Session} (hs : s.machine.Bounded) (e : Event) :
    (s.apply e).machine.Bounded := by
  cases e with
  | load p => exact hs.load p
  | step => exact hs.step s.keys s.now
  | key change => exact hs
  | wait time => exact hs

/-- Every history keeps the machine within its bounds. -/
theorem bounded_run {s : Session} (hs : s.machine.Bounded) (events : List Event) :
    (s.run events).machine.Bounded := by
  induction events generalizing s with
  | nil => exact hs
  | cons e es ih => exact ih (bounded_apply hs e)

/-- The machine is within bounds after every history. -/
theorem bounded_run_switchedOn (variant : Variant) (random : RandomStream) (keys : Keypad)
    (now : Nanos) (events : List Event) :
    ((switchedOn variant random keys now).run events).machine.Bounded :=
  bounded_run (Machine.bounded_initial variant random now) events

/-- After every history memory has all its bytes, at most sixteen calls are open, every return
address lies in `[2, 0x1000]` and the counter is at most `0x10FE`. So the counter's sums and
differences are exact in a step, in a skip, in the wait for a key and in a jump with an offset under
either variant's rules. -/
theorem bounds_of_history (variant : Variant) (random : RandomStream) (keys : Keypad) (now : Nanos)
    (events : List Event) :
    let m := ((switchedOn variant random keys now).run events).machine
    m.memory.bytes.toList.length = 0x1000 ∧
    m.stack.length ≤ 16 ∧
    (∀ a ∈ m.stack, 2 ≤ a.toNat ∧ a.toNat ≤ 0x1000) ∧
    m.regs.pc.toNat ≤ 0x10FE ∧
    m.advance.regs.pc.toNat = m.regs.pc.toNat + 2 ∧
    m.ready.regs.skip.pc.toNat = m.ready.regs.pc.toNat + 2 ∧
    (∀ keys x, keys.first? = none →
      ((m.ready.takeKey keys x).regs.pc.toNat : Int) = (m.ready.regs.pc.toNat : Int) - 2) ∧
    ∀ x base, m.upcoming? = some (.jumpOffset x base) → ∀ rules : Rules,
      (m.ready.regs.jumpOffset rules x base).pc.toNat =
        base.toNat + (m.regs.get (if rules.offsetIsFirst then Reg.first else x)).toNat := by
  intro m
  have hm : m.Bounded := bounded_run_switchedOn variant random keys now events
  exact ⟨Vector.length_toList, hm.depth_le, hm.returns, hm.pc_le, hm.toNat_advance, hm.toNat_skip,
    fun _ x hk => hm.toNat_takeKey hk x, fun _ _ hi rules => Machine.toNat_jumpOffset hi rules⟩

end Session

end ChipVM
