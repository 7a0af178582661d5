import ChipVM.Proofs.Session.Bounds

/-!
# When a step fails, and how

The reasons for a step to fail are read off the word at the program counter, the index and the stack.
They exclude each other, each names its own fault, and a step that has none of them succeeds. That a
full stack holds sixteen addresses, and not more, is one of the bounds that all histories keep.
-/

namespace ChipVM

/-- The instruction of the word works on so many bytes from the index on. -/
def Opcode.Spans (op : Opcode) (len : Nat) : Prop :=
  op.category = 0xD ∧ len = op.n.toNat ∨
  op.category = 0xF ∧ op.nn.toNat = 0x33 ∧ len = 3 ∨
  op.category = 0xF ∧ (op.nn.toNat = 0x55 ∨ op.nn.toNat = 0x65) ∧ len = op.x.val + 1

namespace Machine

/-- The documented faults of the next step. An address is reported as the larger of the start of the
range and the end of memory. -/
inductive Meets (m : Machine) : Fault → Prop where
  /-- No whole word lies at the program counter. -/
  | noWord {a : UInt16} (hpc : 0xFFE < m.regs.pc.toNat)
    (ha : a.toNat = max m.regs.pc.toNat 0x1000) : Meets m (.outOfBounds a)
  /-- The word stands for no instruction. -/
  | noMeaning (hpc : m.regs.pc.toNat ≤ 0xFFE) (hop : Instruction.decode? m.opcode = none) :
    Meets m (.unimplemented m.opcode)
  /-- `00EE` with no call open. -/
  | noCaller (hpc : m.regs.pc.toNat ≤ 0xFFE) (hop : m.opcode.word = 0x00EE) (hs : m.stack = []) :
    Meets m .stackUnderflow
  /-- `2nnn` with sixteen calls open. -/
  | noRoom (hpc : m.regs.pc.toNat ≤ 0xFFE) (hop : m.opcode.category = 0x2)
    (hs : m.stack.length = 16) : Meets m (.stackOverflow 16)
  /-- `Dxyn`, `Fx33`, `Fx55` or `Fx65` with some of its bytes past the end of memory. -/
  | noBytes {a : UInt16} {len : Nat} (hpc : m.regs.pc.toNat ≤ 0xFFE) (hop : m.opcode.Spans len)
    (hi : 0x1000 < m.regs.i.toNat + len) (ha : a.toNat = max m.regs.i.toNat 0x1000) :
    Meets m (.outOfBounds a)

/-- The fault of working on so many bytes from the index on, unless all of them exist. -/
def shortfall (m : Machine) (len : Nat) : Option Fault :=
  if Memory.InRange m.regs.i len then none
  else some (.outOfBounds (Memory.firstOutside m.regs.i))

/-- The shortfall is a fault exactly if the bytes run past the end of memory. -/
theorem shortfall_eq_some_iff {m : Machine} {len : Nat} {f : Fault} :
    m.shortfall len = some f ↔ 0x1000 < m.regs.i.toNat + len ∧
      ∃ a : UInt16, a.toNat = max m.regs.i.toNat 0x1000 ∧ f = .outOfBounds a := by
  have hrange : Memory.InRange m.regs.i len ↔ ¬ 0x1000 < m.regs.i.toNat + len := by
    simp only [Memory.InRange, Memory.size]
    omega
  have haddr := Memory.toNat_firstOutside m.regs.i
  unfold shortfall
  split
  · next h => exact iff_of_false (Option.some_ne_none f).symm fun hf => hrange.mp h hf.1
  · next h =>
    rw [Option.some.injEq]
    constructor
    · rintro rfl
      exact ⟨by rw [hrange] at h; omega, _, haddr, rfl⟩
    · rintro ⟨-, a, ha, rfl⟩
      rw [UInt16.toNat_inj.mp (haddr.trans ha.symm)]

/-- The fault that an instruction meets, if it meets one. -/
def obstacle (m : Machine) : Instruction Reg → Option Fault
  | .ret => if m.stack = [] then some .stackUnderflow else none
  | .call _ => if stackLimit ≤ m.stack.length then some (.stackOverflow m.stack.length) else none
  | .draw _ _ n => m.shortfall n.toNat
  | .decimal _ => m.shortfall 3
  | .block _ x => m.shortfall (x.val + 1)
  | _ => none

/-- Drawing fails exactly if the sprite's bytes fall short. -/
theorem fault_drawSprite (m : Machine) (x y : Reg) (n : UInt8) :
    (m.drawSprite x y n).fault = m.shortfall n.toNat := by
  by_cases h : Memory.InRange m.regs.i n.toNat
  · rw [drawSprite, m.memory.read_of_inRange h, shortfall, if_pos h]
    rfl
  · rw [drawSprite, m.memory.read_of_not_inRange h, shortfall, if_neg h]
    rfl

/-- A write at the index fails exactly if its bytes do not fit. -/
theorem fault_write (m : Machine) (data : List UInt8) :
    (m.memory.write m.regs.i data).fault = m.shortfall data.length := by
  by_cases h : Memory.InRange m.regs.i data.length
  · rw [m.memory.write_of_inRange h, shortfall, if_pos h]
    rfl
  · rw [m.memory.write_of_not_inRange h, shortfall, if_neg h]
    rfl

/-- A block transfer needs the same bytes in both directions and under both variants. -/
theorem fault_transfer (m : Machine) (x : Reg) (dir : Transfer) :
    (m.variant.rules.transfer m.regs m.memory x dir).fault = m.shortfall (x.val + 1) := by
  by_cases h : Memory.InRange m.regs.i (x.val + 1)
  · rw [shortfall, if_pos h]
    cases dir with
    | store => rw [m.variant.rules.transfer_store_of_inRange m.memory h, Outcome.fault_done]
    | load => rw [m.variant.rules.transfer_load_of_inRange m.memory h, Outcome.fault_done]
  · rw [m.variant.rules.transfer_of_not_inRange m.memory dir h, shortfall, if_neg h,
      Outcome.fault_failed]

/-- Carrying out an instruction fails with its obstacle and succeeds if it has none. -/
theorem fault_execute (m : Machine) (keys : Keypad) (now : Nanos) (i : Instruction Reg) :
    (m.execute keys now i).fault = m.obstacle i := by
  cases i with
  | ret => cases hs : m.stack <;> simp [execute, obstacle, hs]
  | call target =>
    by_cases h : stackLimit ≤ m.stack.length <;> simp [execute, obstacle, h]
  | draw x y n => exact m.fault_drawSprite x y n
  | decimal x => exact m.fault_write (decimalDigits (m.regs.get x))
  | block dir x => exact m.fault_transfer x dir
  | _ => rfl

/-- An obstacle of the instruction at the counter is one of the documented faults. -/
theorem meets_of_obstacle {m : Machine} (hdepth : m.stack.length ≤ stackLimit)
    (hpc : m.regs.pc.toNat ≤ 0xFFE) {i : Instruction Reg} (hi : m.opcode.StandsFor i) {f : Fault}
    (h : m.ready.obstacle i = some f) : m.Meets f := by
  cases i with
  | ret =>
    by_cases hs : m.stack = []
    · rw [obstacle, stack_ready, if_pos hs, Option.some.injEq] at h
      exact h ▸ Meets.noCaller hpc hi hs
    · simp [obstacle, hs] at h
  | call target =>
    by_cases hs : stackLimit ≤ m.stack.length
    · have hfull : m.stack.length = 16 := Nat.le_antisymm hdepth hs
      rw [obstacle, stack_ready, if_pos hs, Option.some.injEq] at h
      exact h ▸ hfull ▸ Meets.noRoom hpc hi.1 hfull
    · simp [obstacle, hs] at h
  | draw x y n =>
    obtain ⟨hc, -, -, rfl⟩ := hi
    obtain ⟨hlong, a, ha, rfl⟩ := shortfall_eq_some_iff.mp h
    exact Meets.noBytes hpc (Or.inl ⟨hc, rfl⟩) hlong ha
  | decimal x =>
    obtain ⟨hc, hnn, rfl⟩ := hi
    obtain ⟨hlong, a, ha, rfl⟩ := shortfall_eq_some_iff.mp h
    exact Meets.noBytes hpc (Or.inr (Or.inl ⟨hc, hnn, rfl⟩)) hlong ha
  | block dir x =>
    obtain ⟨hlong, a, ha, rfl⟩ := shortfall_eq_some_iff.mp h
    cases dir with
    | store =>
      obtain ⟨hc, hnn, rfl⟩ := hi
      exact Meets.noBytes hpc (Or.inr (Or.inr ⟨hc, Or.inl hnn, rfl⟩)) hlong ha
    | load =>
      obtain ⟨hc, hnn, rfl⟩ := hi
      exact Meets.noBytes hpc (Or.inr (Or.inr ⟨hc, Or.inr hnn, rfl⟩)) hlong ha
  | _ => cases h

/-- A word that works on bytes from the index on has their shortfall for its obstacle. -/
theorem obstacle_of_spans {op : Opcode} {len : Nat} (h : op.Spans len) :
    ∃ i, Instruction.decode? op = some i ∧ ∀ m : Machine, m.obstacle i = m.shortfall len := by
  rcases h with ⟨hc, rfl⟩ | ⟨hc, hnn, rfl⟩ | ⟨hc, hnn | hnn, rfl⟩
  · exact ⟨.draw op.x op.y op.n, Instruction.decode?_of_standsFor ⟨hc, rfl, rfl, rfl⟩, fun _ => rfl⟩
  · exact ⟨.decimal op.x, Instruction.decode?_of_standsFor ⟨hc, hnn, rfl⟩, fun _ => rfl⟩
  · exact ⟨.block .store op.x, Instruction.decode?_of_standsFor ⟨hc, hnn, rfl⟩, fun _ => rfl⟩
  · exact ⟨.block .load op.x, Instruction.decode?_of_standsFor ⟨hc, hnn, rfl⟩, fun _ => rfl⟩

/-- A machine within bounds fails to step exactly with the fault that is documented for it. -/
theorem Bounded.fault_step_iff {m : Machine} (hm : m.Bounded) (keys : Keypad) (now : Nanos)
    (f : Fault) : (m.step keys now).fault = some f ↔ m.Meets f := by
  constructor
  · intro h
    rcases m.step_cases keys now with ⟨hpc, hs⟩ | ⟨hpc, hd, hs⟩ | ⟨i, hpc, hd, hs⟩
    · rw [hs, Outcome.fault_failed, Option.some.injEq] at h
      exact h ▸ Meets.noWord hpc (Memory.toNat_firstOutside _)
    · rw [hs, Outcome.fault_failed, Option.some.injEq] at h
      exact h ▸ Meets.noMeaning hpc hd
    · rw [hs, fault_execute] at h
      exact meets_of_obstacle hm.depth_le hpc (Instruction.standsFor_of_decode? hd) h
  · intro h
    cases h with
    | noWord hpc ha =>
      rw [step_of_outside keys now hpc, Outcome.fault_failed,
        UInt16.toNat_inj.mp (ha.trans (Memory.toNat_firstOutside _).symm)]
    | noMeaning hpc hop => rw [step_of_undefined keys now hpc hop, Outcome.fault_failed]
    | noCaller hpc hop hs =>
      have hd := Instruction.decode?_of_standsFor (i := .ret) hop
      rw [step_of_decoded keys now hpc hd, fault_execute, obstacle, stack_ready, if_pos hs]
    | noRoom hpc hop hs =>
      have hd := Instruction.decode?_of_standsFor (i := .call m.opcode.nnn) ⟨hop, rfl⟩
      rw [step_of_decoded keys now hpc hd, fault_execute, obstacle, stack_ready, hs]
      rfl
    | noBytes hpc hop hlong ha =>
      obtain ⟨i, hd, hi⟩ := obstacle_of_spans hop
      rw [step_of_decoded keys now hpc hd, fault_execute, hi]
      exact shortfall_eq_some_iff.mpr ⟨hlong, _, ha, rfl⟩

end Machine

/-- After every history the next step fails with a fault exactly if the documentation gives that
fault for the machine's state; in all other cases it succeeds. -/
theorem Session.fault_after_history_iff (variant : Variant) (random : RandomStream)
    (keys : Keypad) (now : Nanos) (events : List Event) (f : Fault) :
    let s := (switchedOn variant random keys now).run events
    s.outcome.fault = some f ↔ s.machine.Meets f :=
  (bounded_run_switchedOn variant random keys now events).fault_step_iff _ _ f

end ChipVM
