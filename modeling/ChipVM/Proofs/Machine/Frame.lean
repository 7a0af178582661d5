import ChipVM.Proofs.Machine.Control
import ChipVM.Proofs.Machine.Footprint

/-!
# What an instruction can reach

Each part of a machine is changed by few instructions, and memory and the display only in a range
that the operands and the index fix before the instruction is carried out. A part that has changed
therefore tells the family of the instruction, and where it was at work.
-/

namespace ChipVM

/-- The first register operand of an instruction. -/
def Instruction.x? {ρ : Type} : Instruction ρ → Option ρ
  | .machineCall _ | .clear | .ret | .jump _ | .call _ | .setIndex _ => none
  | .skipByte x _ | .skipNotByte x _ | .skipSame x _ | .skipDiffer x _ | .setByte x _
  | .addByte x _ | .copy x _ | .logic _ x _ | .add x _ | .sub x _ | .subFrom x _ | .shift _ x _
  | .jumpOffset x _ | .random x _ | .draw x _ _ | .skipHeld x | .skipNotHeld x | .readDelay x
  | .awaitKey x | .setDelay x | .setSound x | .addIndex x | .glyph x | .decimal x
  | .block _ x => some x

/-- The instruction that sets a countdown from a register. -/
def Dial.setter {ρ : Type} : Dial → ρ → Instruction ρ
  | .delay => .setDelay
  | .sound => .setSound

/-- The only instruction that sets a dial is its setter. -/
theorem Instruction.eq_setter_of_sets? {ρ : Type} {d : Dial} {i : Instruction ρ} {x : ρ}
    (h : i.sets? d = some x) : i = d.setter x := by
  cases d with
  | delay =>
    cases i with
    | setDelay => exact congrArg _ (Option.some.inj h)
    | _ => cases h
  | sound =>
    cases i with
    | setSound => exact congrArg _ (Option.some.inj h)
    | _ => cases h

/-- Only the legacy rules move the index past a block. -/
theorem Registers.legacy_of_i_passBlock_ne {variant : Variant} {r : Registers} {x : Reg}
    (h : (r.passBlock variant.rules x).i ≠ r.i) : variant = .legacy := by
  cases variant with
  | legacy => rfl
  | extended => exact absurd rfl h

/-- Only the extended rules have a combination clear the flag. -/
theorem Variant.extended_of_logicClearsFlag {variant : Variant}
    (h : variant.rules.logicClearsFlag = true) : variant = .extended := by
  cases variant with
  | legacy => cases h
  | extended => rfl

namespace Machine

/-- The machine `m'` differs from `m` only where the instruction reaches. The operands are registers
of `m`, and so is the index. -/
structure TouchesOnly (m : Machine) (i : Instruction Reg) (m' : Machine) : Prop where
  /-- `Fx33` writes three bytes at the index, `Fx55` one for each register up to `x`. -/
  memory : ∀ a, m'.memory.byteAt a ≠ m.memory.byteAt a →
    (∃ x, i = .decimal x ∧ m.regs.i.toNat ≤ a ∧ a ≤ m.regs.i.toNat + 2) ∨
    ∃ x, i = .block .store x ∧ m.regs.i.toNat ≤ a ∧ a ≤ m.regs.i.toNat + x.val
  /-- `00E0` clears the display, `Dxyn` draws in a box of eight columns and `n` rows. -/
  display : ∀ px py, m'.display.pixel px py ≠ m.display.pixel px py →
    i = .clear ∨ ∃ x y n, i = .draw x y n ∧
      (m.regs.get x).toNat % 64 ≤ px ∧ px < (m.regs.get x).toNat % 64 + 8 ∧
      (m.regs.get y).toNat % 32 ≤ py ∧ py < (m.regs.get y).toNat % 32 + n.toNat
  /-- `2nnn` pushes one address and `00EE` pops one. -/
  stack : m'.stack ≠ m.stack →
    (∃ target back, i = .call target ∧ m'.stack = back :: m.stack) ∨
    ∃ back, i = .ret ∧ m.stack = back :: m'.stack
  delay : m'.delay ≠ m.delay → ∃ x, i = .setDelay x
  sound : m'.sound ≠ m.sound → ∃ x, i = .setSound x
  random : m'.random ≠ m.random → ∃ x mask, i = .random x mask
  /-- `Annn`, `Fx1E`, `Fx29`, and in a legacy machine `Fx55` and `Fx65`. -/
  index : m'.regs.i ≠ m.regs.i →
    (∃ target, i = .setIndex target) ∨ (∃ x, i = .addIndex x) ∨ (∃ x, i = .glyph x) ∨
    m.variant = .legacy ∧ ∃ dir x, i = .block dir x
  /-- A register that is neither `x` nor the flag is loaded by `Fx65`. -/
  register : ∀ z, m'.regs.get z ≠ m.regs.get z → z ≠ Reg.flag → i.x? ≠ some z →
    ∃ x, i = .block .load x ∧ z ≤ x
  /-- `8xy4`, `8xy5`, `8xy7`, `8xy6`, `8xyE`, `Dxyn`, `Fx1E`, and in an extended machine `8xy1`, `8xy2`
  and `8xy3`. -/
  flag : m'.regs.get Reg.flag ≠ m.regs.get Reg.flag → i.x? ≠ some Reg.flag →
    (∃ x y, i = .add x y ∨ i = .sub x y ∨ i = .subFrom x y) ∨ (∃ dir x y, i = .shift dir x y) ∨
    (∃ x y n, i = .draw x y n) ∨ (∃ x, i = .addIndex x) ∨
    m.variant = .extended ∧ ∃ op x y, i = .logic op x y

section Parts

variable {m : Machine} {keys : Keypad} {now : Nanos} {i : Instruction Reg}

/-- Only digits and blocks are stored, from the index on. -/
theorem decimal_or_store_of_memory_ne {a : Nat}
    (h : (m.execute keys now i).state.memory.byteAt a ≠ m.memory.byteAt a) :
    (∃ x, i = .decimal x ∧ m.regs.i.toNat ≤ a ∧ a ≤ m.regs.i.toNat + 2) ∨
      ∃ x, i = .block .store x ∧ m.regs.i.toNat ≤ a ∧ a ≤ m.regs.i.toNat + x.val := by
  rw [memory_execute] at h
  cases i with
  | decimal x =>
    have hin := Decidable.not_imp_comm.mp m.memory.byteAt_write_of_not_covered h
    have hlen : (decimalDigits (m.regs.get x)).length = 3 := rfl
    exact Or.inl ⟨x, rfl, hin.1, by omega⟩
  | block dir x =>
    cases dir with
    | store =>
      have hin := Decidable.not_imp_comm.mp m.memory.byteAt_write_of_not_covered h
      rw [Registers.length_upTo] at hin
      exact Or.inr ⟨x, rfl, hin.1, by omega⟩
    | load => exact absurd rfl h
  | _ => exact absurd rfl h

/-- Pixels change in the box of a sprite, or all at once. -/
theorem clear_or_draw_of_display_ne {px py : Nat}
    (h : (m.execute keys now i).state.display.pixel px py ≠ m.display.pixel px py) :
    i = .clear ∨ ∃ x y n, i = .draw x y n ∧
      (m.regs.get x).toNat % 64 ≤ px ∧ px < (m.regs.get x).toNat % 64 + 8 ∧
      (m.regs.get y).toNat % 32 ≤ py ∧ py < (m.regs.get y).toNat % 32 + n.toNat := by
  rw [display_execute] at h
  cases i with
  | clear => exact Or.inl rfl
  | draw x y n =>
    rw [displayAfter] at h
    split at h
    · have hbox := Sprite.box_of_sets (Display.sets_of_pixel_ne h)
      have hrows : (m.sprite x y n).rows.length = n.toNat := by
        rw [sprite, Memory.bytesFrom, List.length_map, List.length_range]
      rw [hrows] at hbox
      exact Or.inr ⟨x, y, n, rfl, hbox⟩
    · exact absurd rfl h
  | _ => exact absurd rfl h

/-- Only a call pushes a return address and only a return pops one. -/
theorem call_or_ret_of_stack_ne (h : (m.execute keys now i).state.stack ≠ m.stack) :
    (∃ target back, i = .call target ∧ (m.execute keys now i).state.stack = back :: m.stack) ∨
      ∃ back, i = .ret ∧ m.stack = back :: (m.execute keys now i).state.stack := by
  rw [stack_execute] at h ⊢
  cases i with
  | ret =>
    cases hs : m.stack with
    | nil => exact absurd (by rw [stackAfter, hs, List.tail_nil]) h
    | cons back rest => exact Or.inr ⟨back, rfl, by rw [stackAfter, hs, List.tail_cons]⟩
  | call target =>
    by_cases hfull : stackLimit ≤ m.stack.length
    · exact absurd (if_pos hfull) h
    · exact Or.inl ⟨target, m.regs.pc, rfl, if_neg hfull⟩
  | _ => exact absurd rfl h

/-- Only its setter changes a countdown. -/
theorem setter_of_countdown_ne {d : Dial}
    (h : (m.execute keys now i).state.countdown d ≠ m.countdown d) : ∃ x, i = d.setter x := by
  rw [countdown_execute] at h
  cases hx : i.sets? d with
  | none => exact absurd (by rw [countdownAfter, hx]) h
  | some x => exact ⟨x, Instruction.eq_setter_of_sets? hx⟩

/-- Only an instruction that asks for a random byte takes one. -/
theorem random_of_random_ne (h : (m.execute keys now i).state.random ≠ m.random) :
    ∃ x mask, i = .random x mask := by
  rw [random_execute] at h
  cases i with
  | random x mask => exact ⟨x, mask, rfl⟩
  | _ => exact absurd rfl h

/-- Which instructions move the index. -/
theorem moves_index_of_index_ne (h : (m.execute keys now i).state.regs.i ≠ m.regs.i) :
    (∃ target, i = .setIndex target) ∨ (∃ x, i = .addIndex x) ∨ (∃ x, i = .glyph x) ∨
      m.variant = .legacy ∧ ∃ dir x, i = .block dir x := by
  rw [index_execute] at h
  cases i with
  | setIndex target => exact Or.inl ⟨target, rfl⟩
  | addIndex x => exact Or.inr (Or.inl ⟨x, rfl⟩)
  | glyph x => exact Or.inr (Or.inr (Or.inl ⟨x, rfl⟩))
  | block dir x =>
    rw [indexAfter] at h
    split at h
    · exact Or.inr (Or.inr (Or.inr ⟨Registers.legacy_of_i_passBlock_ne h, dir, x, rfl⟩))
    · exact absurd rfl h
  | _ => exact absurd rfl h

/-- A register that changes is one that the instruction writes. -/
theorem writes_of_get_ne {z : Reg}
    (h : (m.execute keys now i).state.regs.get z ≠ m.regs.get z) : i.Writes m.variant.rules z :=
  Classical.byContradiction fun hnot => h (m.get_execute_of_not_writes keys now hnot)

end Parts

end Machine

namespace Instruction

variable {i : Instruction Reg}

/-- A register that is neither the flag nor the instruction's own is only written by a block load.
-/
theorem block_load_of_writes {rules : Rules} {z : Reg} (h : i.Writes rules z) (hflag : z ≠ Reg.flag)
    (hx : i.x? ≠ some z) : ∃ x, i = .block .load x ∧ z ≤ x := by
  cases i with
  | setByte x | addByte x | copy x | random x | readDelay x | awaitKey x =>
    exact absurd (congrArg some (Eq.symm h)) hx
  | logic op x y =>
    rcases h with h | ⟨-, h⟩
    · exact absurd (congrArg some (Eq.symm h)) hx
    · exact absurd h hflag
  | add x | sub x | subFrom x | shift dir x =>
    rcases h with h | h
    · exact absurd (congrArg some (Eq.symm h)) hx
    · exact absurd h hflag
  | draw | addIndex => exact absurd h hflag
  | block dir x =>
    cases dir with
    | store => exact absurd h id
    | load => exact ⟨x, rfl, h⟩
  | _ => exact absurd h id

/-- What writes the flag without being told to by its `x`. -/
theorem of_writes_flag {variant : Variant} (h : i.Writes variant.rules Reg.flag)
    (hx : i.x? ≠ some Reg.flag) :
    (∃ x y, i = .add x y ∨ i = .sub x y ∨ i = .subFrom x y) ∨ (∃ dir x y, i = .shift dir x y) ∨
      (∃ x y n, i = .draw x y n) ∨ (∃ x, i = .addIndex x) ∨
      variant = .extended ∧ ∃ op x y, i = .logic op x y := by
  cases i with
  | setByte x | addByte x | copy x | random x | readDelay x | awaitKey x =>
    exact absurd (congrArg some (Eq.symm h)) hx
  | logic op x y =>
    rcases h with h | ⟨hclears, -⟩
    · exact absurd (congrArg some h.symm) hx
    · have hvariant := Variant.extended_of_logicClearsFlag hclears
      exact Or.inr (Or.inr (Or.inr (Or.inr ⟨hvariant, op, x, y, rfl⟩)))
  | add x y => exact Or.inl ⟨x, y, Or.inl rfl⟩
  | sub x y => exact Or.inl ⟨x, y, Or.inr (Or.inl rfl)⟩
  | subFrom x y => exact Or.inl ⟨x, y, Or.inr (Or.inr rfl)⟩
  | shift dir x y => exact Or.inr (Or.inl ⟨dir, x, y, rfl⟩)
  | draw x y n => exact Or.inr (Or.inr (Or.inl ⟨x, y, n, rfl⟩))
  | addIndex x => exact Or.inr (Or.inr (Or.inr (Or.inl ⟨x, rfl⟩)))
  | block dir x =>
    cases dir with
    | store => exact absurd h id
    | load =>
      -- A load that gets as far as the last register is one whose `x` is the flag.
      have hlast : x = Reg.flag := Fin.le_antisymm (Fin.le_last x) h
      exact absurd (congrArg some hlast) hx
  | _ => exact absurd h id

end Instruction

namespace Machine

/-- Carried out or refused, an instruction touches only what it reaches. -/
theorem touchesOnly_execute (m : Machine) (keys : Keypad) (now : Nanos) (i : Instruction Reg) :
    m.TouchesOnly i (m.execute keys now i).state where
  memory _ := decimal_or_store_of_memory_ne
  display _ _ := clear_or_draw_of_display_ne
  stack := call_or_ret_of_stack_ne
  delay := setter_of_countdown_ne (d := .delay)
  sound := setter_of_countdown_ne (d := .sound)
  random := random_of_random_ne
  index := moves_index_of_index_ne
  register _ h := Instruction.block_load_of_writes (writes_of_get_ne h)
  flag h := Instruction.of_writes_flag (writes_of_get_ne h)

/-- What an instruction finds on its way is what was there before its word was fetched. -/
theorem TouchesOnly.of_ready {m m' : Machine} {i : Instruction Reg} (h : m.ready.TouchesOnly i m') :
    m.TouchesOnly i m' :=
  ⟨h.memory, h.display, h.stack, h.delay, h.sound, h.random, h.index, h.register, h.flag⟩

/-- A step that succeeds carries out the instruction at the program counter, and touches only what
that one reaches. -/
theorem step_touches_only {m : Machine} {keys : Keypad} {now : Nanos}
    (h : (m.step keys now).fault = none) :
    ∃ i, m.Runs i ∧ m.TouchesOnly i (m.step keys now).state := by
  obtain ⟨i, hi⟩ := exists_runs_of_done h
  refine ⟨i, hi, TouchesOnly.of_ready ?_⟩
  rw [hi.step keys now]
  exact m.ready.touchesOnly_execute keys now i

/-- A legacy machine about to store two registers at `0x300`. -/
def storing : Machine :=
  let start := (initial .legacy (RandomStream.ofSeed 8) 0).load
    ⟨[0x61, 0x2A, 0xA3, 0x00, 0xF1, 0x55], by decide⟩
  ((start.state.step .released 0).state.step .released 0).state

/-- A store in the legacy variant changes the bytes of its block and the index. -/
theorem storing_touches_block :
    (storing.step .released 0).fault = none ∧ storing.Runs (.block .store 1) ∧
      (storing.step .released 0).state.memory.byteAt 0x301 ≠ storing.memory.byteAt 0x301 ∧
      (storing.step .released 0).state.regs.i ≠ storing.regs.i ∧
      storing.TouchesOnly (.block .store 1) (storing.step .released 0).state := by
  have hdone : (storing.step .released 0).fault = none := by decide +kernel
  have hstore : storing.Runs (.block .store 1) := by decide +kernel
  have hbyte : (storing.step .released 0).state.memory.byteAt 0x301 ≠
      storing.memory.byteAt 0x301 := by decide +kernel
  have hindex : (storing.step .released 0).state.regs.i ≠ storing.regs.i := by decide +kernel
  obtain ⟨i, hi, htouches⟩ := step_touches_only hdone
  rw [hi.unique hstore] at htouches
  exact ⟨hdone, hstore, hbyte, hindex, htouches⟩

end Machine

end ChipVM
