import ChipVM.Proofs.Machine.Step
import ChipVM.Proofs.Table

/-!
# Control flow

What an instruction does to the program counter and to the return stack. Few instructions touch
either: jumps, calls and returns, the six skips, and the wait for a key, which goes back to its own
word.
-/

namespace ChipVM

namespace Registers

theorem pc_skipIf (r : Registers) (b : Bool) : (r.skipIf b).pc = if b then r.pc + 2 else r.pc := by
  cases b <;> rfl

@[simp] theorem pc_logic (rules : Rules) (r : Registers) (op : Logic) (x y : Reg) :
    (r.logic rules op x y).pc = r.pc := by
  unfold logic
  split <;> rfl

@[simp] theorem pc_passBlock (rules : Rules) (r : Registers) (x : Reg) :
    (r.passBlock rules x).pc = r.pc := by
  unfold passBlock
  split <;> rfl

end Registers

/-- A block transfer leaves the program counter alone, refused or not. -/
@[simp] theorem Rules.pc_transfer (rules : Rules) (r : Registers) (m : Memory) (x : Reg)
    (dir : Transfer) : (rules.transfer r m x dir).state.1.pc = r.pc := by
  by_cases h : Memory.InRange r.i (x.val + 1)
  · cases dir with
    | store => simp [rules.transfer_store_of_inRange m h]
    | load => simp [rules.transfer_load_of_inRange m h]
  · simp [rules.transfer_of_not_inRange m dir h]

namespace Machine

/-- The instruction passes the next one over. -/
def skips (m : Machine) (keys : Keypad) : Instruction Reg → Bool
  | .skipByte x b => m.regs.get x == b
  | .skipNotByte x b => m.regs.get x != b
  | .skipSame x y => m.regs.get x == m.regs.get y
  | .skipDiffer x y => m.regs.get x != m.regs.get y
  | .skipHeld x => keys.isHeld (namedKey (m.regs.get x))
  | .skipNotHeld x => !keys.isHeld (namedKey (m.regs.get x))
  | _ => false

/-- Where the program counter stands after an instruction that found it past its own word. -/
def landing (m : Machine) (keys : Keypad) : Instruction Reg → UInt16
  | .ret => m.stack.headD m.regs.pc
  | .jump target => target
  | .call target => if stackLimit ≤ m.stack.length then m.regs.pc else target
  | .jumpOffset x base =>
    base + (m.regs.get (if m.variant.rules.offsetIsFirst then Reg.first else x)).toUInt16
  | .awaitKey _ => if keys.first? = none then m.regs.pc - 2 else m.regs.pc
  | i => if m.skips keys i then m.regs.pc + 2 else m.regs.pc

/-- The return stack after an instruction. -/
def stackAfter (m : Machine) : Instruction Reg → List UInt16
  | .ret => m.stack.tail
  | .call _ => if stackLimit ≤ m.stack.length then m.stack else m.regs.pc :: m.stack
  | _ => m.stack

/-- Drawing has nothing to do with the counter or the stack. -/
theorem drawSprite_pc_stack (m : Machine) (x y : Reg) (n : UInt8) :
    (m.drawSprite x y n).state.regs.pc = m.regs.pc ∧
      (m.drawSprite x y n).state.stack = m.stack := by
  obtain ⟨display, regs, hpc, h⟩ := m.drawSprite_state x y n
  rw [h]
  exact ⟨hpc, rfl⟩

/-- Only a wait for a key takes the counter back. -/
theorem takeKey_pc_stack (m : Machine) (keys : Keypad) (x : Reg) :
    (m.takeKey keys x).regs.pc = (if keys.first? = none then m.regs.pc - 2 else m.regs.pc) ∧
      (m.takeKey keys x).stack = m.stack := by
  cases hk : keys.first? <;> simp [takeKey, hk, withRegs]

/-- Every instruction lands where `landing` says. -/
theorem pc_execute (m : Machine) (keys : Keypad) (now : Nanos) (i : Instruction Reg) :
    (m.execute keys now i).state.regs.pc = m.landing keys i := by
  cases i with
  | ret => cases hs : m.stack <;> simp [execute, landing, hs]
  | call target =>
    by_cases h : stackLimit ≤ m.stack.length <;> simp [execute, landing, h]
  | draw x y n => exact (m.drawSprite_pc_stack x y n).1
  | awaitKey x => exact (m.takeKey_pc_stack keys x).1
  | block dir x => exact m.variant.rules.pc_transfer m.regs m.memory x dir
  | logic op x y => exact m.regs.pc_logic m.variant.rules op x y
  | skipByte | skipNotByte | skipSame | skipDiffer | skipHeld | skipNotHeld =>
    exact m.regs.pc_skipIf _
  | _ => rfl

/-- After a step the counter is where its instruction lands. -/
theorem Runs.pc_step {m : Machine} {i : Instruction Reg} (h : m.Runs i) (keys : Keypad)
    (now : Nanos) : (m.step keys now).state.regs.pc = m.ready.landing keys i := by
  rw [h.step, pc_execute]

/-- Every instruction leaves the stack that `stackAfter` says. -/
theorem stack_execute (m : Machine) (keys : Keypad) (now : Nanos) (i : Instruction Reg) :
    (m.execute keys now i).state.stack = m.stackAfter i := by
  cases i with
  | ret => cases hs : m.stack <;> simp [execute, stackAfter, hs]
  | call target =>
    by_cases h : stackLimit ≤ m.stack.length <;> simp [execute, stackAfter, h]
  | draw x y n => exact (m.drawSprite_pc_stack x y n).2
  | awaitKey x => exact (m.takeKey_pc_stack keys x).2
  | _ => rfl

end Machine

end ChipVM
