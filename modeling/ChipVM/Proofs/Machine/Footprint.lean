import ChipVM.Proofs.Display.Parity
import ChipVM.Proofs.Machine.Step

/-!
# What an instruction leaves behind

One instruction draws from the random stream, and one sets each of the two countdowns. Two write to
memory and two to the display, a handful move the index, and each register is changed by the
instructions that name it, the flag by some more. Whatever else is carried out, with or without
success, leaves the component as it was. What an instruction leaves there is told by one function for
each component; the program counter and the return stack have theirs in a module of their own.
-/

namespace ChipVM

namespace Memory

/-- A write reaches no byte outside its range. -/
theorem byteAt_write_of_not_covered (m : Memory) {addr : UInt16} {data : List UInt8} {a : Nat}
    (h : ¬ (addr.toNat ≤ a ∧ a < addr.toNat + data.length)) :
    (m.write addr data).state.byteAt a = m.byteAt a := by
  by_cases hrange : InRange addr data.length
  · rw [m.write_of_inRange hrange, Outcome.state_done, byteAt_overwrite]
    exact if_neg fun hin => h ⟨hin.1, hin.2.1⟩
  · rw [m.write_of_not_inRange hrange, Outcome.state_failed]

end Memory

namespace Registers

@[simp] theorem get_passBlock (rules : Rules) (r : Registers) (x z : Reg) :
    (r.passBlock rules x).get z = r.get z := by
  unfold passBlock
  split <;> rfl

/-- A combination changes `x`, and the flag where the rules have it cleared. -/
theorem get_logic_of_ne {rules : Rules} {x z : Reg} (hx : z ≠ x)
    (hflag : ¬ (rules.logicClearsFlag = true ∧ z = Reg.flag)) (r : Registers) (op : Logic)
    (y : Reg) : (r.logic rules op x y).get z = r.get z := by
  unfold logic
  split
  · next hclears =>
    rw [get_setWithFlag, if_neg fun hz => hflag ⟨hclears, hz.symm⟩, if_neg (Ne.symm hx)]
  · rw [get_set, if_neg (Ne.symm hx)]

@[simp] theorem i_logic (rules : Rules) (r : Registers) (op : Logic) (x y : Reg) :
    (r.logic rules op x y).i = r.i := by
  unfold logic
  split <;> rfl

/-- The flag register holds 1 if the condition holds, and 0 otherwise. -/
def FlagTells (r : Registers) (p : Prop) : Prop :=
  (r.get Reg.flag).toNat = 1 ∧ p ∨ (r.get Reg.flag).toNat = 0 ∧ ¬ p

theorem toNat_flagByte (b : Bool) : (flagByte b).toNat = b.toNat := by
  cases b <;> rfl

/-- A flag that is set for `p` tells `p`. -/
theorem flagTells_setFlag (r : Registers) {b : Bool} {p : Prop} (h : b = true ↔ p) :
    (r.setFlag b).FlagTells p := by
  rw [FlagTells, get_setFlag, if_pos rfl, toNat_flagByte, ← h]
  cases b <;> simp

end Registers

namespace Rules

/-- A store writes the block at the index, if it gets done. -/
theorem memory_transfer_store (rules : Rules) (r : Registers) (m : Memory) (x : Reg) :
    (rules.transfer r m x .store).state.2 = (m.write r.i (r.upTo x)).state := by
  by_cases h : Memory.InRange r.i (x.val + 1)
  · have hw : Memory.InRange r.i (r.upTo x).length := by rwa [Registers.length_upTo]
    rw [rules.transfer_store_of_inRange m h, m.write_of_inRange hw]
    rfl
  · have hw : ¬ Memory.InRange r.i (r.upTo x).length := by rwa [Registers.length_upTo]
    rw [rules.transfer_of_not_inRange m _ h, m.write_of_not_inRange hw]
    rfl

/-- A load does not touch memory. -/
theorem memory_transfer_load (rules : Rules) (r : Registers) (m : Memory) (x : Reg) :
    (rules.transfer r m x .load).state.2 = m := by
  by_cases h : Memory.InRange r.i (x.val + 1)
  · rw [rules.transfer_load_of_inRange m h]
    rfl
  · rw [rules.transfer_of_not_inRange m _ h]
    rfl

/-- A transfer that gets done passes the block, and one that is refused leaves the index. -/
theorem i_transfer (rules : Rules) (r : Registers) (m : Memory) (x : Reg) (dir : Transfer) :
    (rules.transfer r m x dir).state.1.i =
      if Memory.InRange r.i (x.val + 1) then (r.passBlock rules x).i else r.i := by
  by_cases h : Memory.InRange r.i (x.val + 1)
  · rw [if_pos h]
    cases dir with
    | store =>
      rw [rules.transfer_store_of_inRange m h]
      rfl
    | load =>
      rw [rules.transfer_load_of_inRange m h, Outcome.state_done]
      simp only [Registers.passBlock]
      split <;> simp only [Registers.i_setFrom]
  · rw [if_neg h, rules.transfer_of_not_inRange m dir h]
    rfl

/-- Only a load changes data registers, and only up to `x`. -/
theorem get_transfer (rules : Rules) (r : Registers) (m : Memory) (x : Reg) (dir : Transfer)
    {z : Reg} (h : dir = .load → ¬ z ≤ x) :
    (rules.transfer r m x dir).state.1.get z = r.get z := by
  by_cases hrange : Memory.InRange r.i (x.val + 1)
  · cases dir with
    | store =>
      rw [rules.transfer_store_of_inRange m hrange]
      exact r.get_passBlock rules x z
    | load =>
      have hz := h rfl
      rw [Fin.le_def] at hz
      rw [rules.transfer_load_of_inRange m hrange, Outcome.state_done, Registers.get_passBlock,
        Registers.get_setFrom, if_neg]
      simp only [Memory.bytesFrom, List.length_map, List.length_range]
      omega
  · rw [rules.transfer_of_not_inRange m dir hrange]
    rfl

end Rules

/-- The two countdowns of a machine. -/
inductive Dial where
  /-- The one that programs can read. -/
  | delay
  /-- The one that sounds the tone. -/
  | sound
  deriving DecidableEq, Repr

namespace Instruction

variable {ρ : Type}

/-- The register that the instruction sets a countdown from, if it sets that one. -/
def sets? : Dial → Instruction ρ → Option ρ
  | .delay, .setDelay x => some x
  | .sound, .setSound x => some x
  | _, _ => none

/-- The instruction draws a random byte. -/
def isRandom : Instruction ρ → Bool
  | .random .. => true
  | _ => false

/-- The register is one that the instruction may change under the rules. -/
def Writes (rules : Rules) (z : Reg) : Instruction Reg → Prop
  | .setByte x _ | .addByte x _ | .copy x _ | .random x _ | .readDelay x | .awaitKey x => z = x
  | .logic _ x _ => z = x ∨ rules.logicClearsFlag = true ∧ z = Reg.flag
  | .add x _ | .sub x _ | .subFrom x _ | .shift _ x _ => z = x ∨ z = Reg.flag
  | .draw .. | .addIndex _ => z = Reg.flag
  | .block .load x => z ≤ x
  | _ => False

end Instruction

namespace Machine

/-- A countdown of the machine. -/
def countdown (m : Machine) : Dial → Countdown
  | .delay => m.delay
  | .sound => m.sound

/-- What a countdown reads. -/
def reading (m : Machine) (now : Nanos) : Dial → UInt8
  | .delay => m.delayUnits now
  | .sound => m.soundUnits now

/-- A dial shows what is left on its countdown. -/
theorem reading_eq (m : Machine) (now : Nanos) (d : Dial) :
    m.reading now d = (m.countdown d).units now := by
  cases d <;> rfl

/-- The random stream after an instruction. -/
def randomAfter (m : Machine) (i : Instruction Reg) : RandomStream :=
  if i.isRandom then m.random.advance else m.random

/-- A countdown after an instruction. -/
def countdownAfter (m : Machine) (now : Nanos) (d : Dial) (i : Instruction Reg) : Countdown :=
  match i.sets? d with
  | some x => Countdown.armUnits now (m.regs.get x)
  | none => m.countdown d

/-- The sprite that a drawing instruction reads at the index, with its corner taken onto the grid. -/
def sprite (m : Machine) (x y : Reg) (n : UInt8) : Sprite where
  x := (m.regs.get x).toNat % Display.width
  y := (m.regs.get y).toNat % Display.height
  rows := m.memory.bytesFrom m.regs.i.toNat n.toNat

/-- Memory after an instruction. -/
def memoryAfter (m : Machine) : Instruction Reg → Memory
  | .decimal x => (m.memory.write m.regs.i (decimalDigits (m.regs.get x))).state
  | .block .store x => (m.memory.write m.regs.i (m.regs.upTo x)).state
  | _ => m.memory

/-- The display after an instruction. -/
def displayAfter (m : Machine) : Instruction Reg → Display
  | .clear => Display.dark
  | .draw x y n =>
    if Memory.InRange m.regs.i n.toNat then (m.display.drawSprite (m.sprite x y n)).1
    else m.display
  | _ => m.display

/-- The index after an instruction. -/
def indexAfter (m : Machine) : Instruction Reg → UInt16
  | .setIndex target => target
  | .addIndex x => m.regs.i + (m.regs.get x).toUInt16
  | .glyph x => Font.glyphAddress (m.regs.get x)
  | .block _ x =>
    if Memory.InRange m.regs.i (x.val + 1) then (m.regs.passBlock m.variant.rules x).i
    else m.regs.i
  | _ => m.regs.i

/-- A sprite whose bytes exist is drawn. -/
theorem drawSprite_of_inRange {m : Machine} {n : UInt8} (h : Memory.InRange m.regs.i n.toNat)
    (x y : Reg) :
    m.drawSprite x y n =
      .done { m with
        display := (m.display.drawSprite (m.sprite x y n)).1
        regs := m.regs.setFlag (m.display.drawSprite (m.sprite x y n)).2 } := by
  rw [drawSprite, m.memory.read_of_inRange h]
  rfl

/-- A sprite that runs off the end of memory is refused. -/
theorem drawSprite_of_not_inRange {m : Machine} {n : UInt8}
    (h : ¬ Memory.InRange m.regs.i n.toNat) (x y : Reg) :
    m.drawSprite x y n = .failed m (.outOfBounds (Memory.firstOutside m.regs.i)) := by
  rw [drawSprite, m.memory.read_of_not_inRange h]
  rfl

/-- Every instruction leaves the random stream that `randomAfter` says. -/
theorem random_execute (m : Machine) (keys : Keypad) (now : Nanos) (i : Instruction Reg) :
    (m.execute keys now i).state.random = m.randomAfter i := by
  cases i with
  | ret | call =>
    rw [execute]
    split <;> rfl
  | draw x y n =>
    obtain ⟨display, regs, -, h⟩ := m.drawSprite_state x y n
    rw [execute, h]
    rfl
  | awaitKey x =>
    obtain ⟨regs, awaitingKey, h⟩ := m.takeKey_eq keys x
    rw [execute, h]
    rfl
  | _ => rfl

/-- No instruction changes what the machine is. -/
theorem variant_execute (m : Machine) (keys : Keypad) (now : Nanos) (i : Instruction Reg) :
    (m.execute keys now i).state.variant = m.variant := by
  cases i with
  | ret | call =>
    rw [execute]
    split <;> rfl
  | draw x y n =>
    obtain ⟨display, regs, -, h⟩ := m.drawSprite_state x y n
    rw [execute, h]
  | awaitKey x =>
    obtain ⟨regs, awaitingKey, h⟩ := m.takeKey_eq keys x
    rw [execute, h]
    rfl
  | _ => rfl

/-- Every instruction leaves the countdowns that `countdownAfter` says. -/
theorem countdown_execute (m : Machine) (keys : Keypad) (now : Nanos) (d : Dial)
    (i : Instruction Reg) :
    (m.execute keys now i).state.countdown d = m.countdownAfter now d i := by
  cases i with
  | ret | call =>
    rw [execute]
    split <;> cases d <;> rfl
  | draw x y n =>
    obtain ⟨display, regs, -, h⟩ := m.drawSprite_state x y n
    rw [execute, h]
    cases d <;> rfl
  | awaitKey x =>
    obtain ⟨regs, awaitingKey, h⟩ := m.takeKey_eq keys x
    rw [execute, h]
    cases d <;> rfl
  | _ => cases d <;> rfl

/-- Every instruction leaves the memory that `memoryAfter` says. -/
theorem memory_execute (m : Machine) (keys : Keypad) (now : Nanos) (i : Instruction Reg) :
    (m.execute keys now i).state.memory = m.memoryAfter i := by
  cases i with
  | ret | call =>
    rw [execute]
    split <;> rfl
  | draw x y n =>
    obtain ⟨display, regs, -, h⟩ := m.drawSprite_state x y n
    rw [execute, h]
    rfl
  | awaitKey x =>
    obtain ⟨regs, awaitingKey, h⟩ := m.takeKey_eq keys x
    rw [execute, h]
    rfl
  | block dir x =>
    cases dir with
    | store => exact m.variant.rules.memory_transfer_store m.regs m.memory x
    | load => exact m.variant.rules.memory_transfer_load m.regs m.memory x
  | _ => rfl

/-- Every instruction leaves the display that `displayAfter` says. -/
theorem display_execute (m : Machine) (keys : Keypad) (now : Nanos) (i : Instruction Reg) :
    (m.execute keys now i).state.display = m.displayAfter i := by
  cases i with
  | ret | call =>
    rw [execute]
    split <;> rfl
  | draw x y n =>
    rw [execute, displayAfter]
    split
    · next h => rw [drawSprite_of_inRange h, Outcome.state_done]
    · next h => rw [drawSprite_of_not_inRange h, Outcome.state_failed]
  | awaitKey x =>
    obtain ⟨regs, awaitingKey, h⟩ := m.takeKey_eq keys x
    rw [execute, h]
    rfl
  | _ => rfl

/-- Every instruction leaves the index that `indexAfter` says. -/
theorem index_execute (m : Machine) (keys : Keypad) (now : Nanos) (i : Instruction Reg) :
    (m.execute keys now i).state.regs.i = m.indexAfter i := by
  cases i with
  | ret | call =>
    rw [execute]
    split <;> rfl
  | skipByte | skipNotByte | skipSame | skipDiffer | skipHeld | skipNotHeld =>
    exact m.regs.i_skipIf _
  | logic op x y => exact m.regs.i_logic m.variant.rules op x y
  | draw x y n =>
    by_cases h : Memory.InRange m.regs.i n.toNat
    · rw [execute, drawSprite_of_inRange h]
      rfl
    · rw [execute, drawSprite_of_not_inRange h]
      rfl
  | awaitKey x =>
    rw [execute, takeKey]
    split <;> rfl
  | block dir x => exact m.variant.rules.i_transfer m.regs m.memory x dir
  | _ => rfl

/-- A register that the instruction does not write keeps its byte. -/
theorem get_execute_of_not_writes (m : Machine) (keys : Keypad) (now : Nanos)
    {i : Instruction Reg} {z : Reg} (h : ¬ i.Writes m.variant.rules z) :
    (m.execute keys now i).state.regs.get z = m.regs.get z := by
  cases i with
  | ret | call =>
    rw [execute]
    split <;> rfl
  | skipByte | skipNotByte | skipSame | skipDiffer | skipHeld | skipNotHeld =>
    exact m.regs.get_skipIf _ z
  | setByte x b | addByte x b | copy x b | random x b | readDelay x =>
    exact (m.regs.get_set x z _).trans (if_neg (Ne.symm h))
  | awaitKey x =>
    rw [execute, takeKey]
    split
    · exact (m.regs.get_set x z _).trans (if_neg (Ne.symm h))
    · rfl
  | logic op x y =>
    obtain ⟨hx, hflag⟩ := not_or.mp h
    exact m.regs.get_logic_of_ne hx hflag op y
  | add x y | sub x y | subFrom x y | shift dir x y =>
    obtain ⟨hx, hflag⟩ := not_or.mp h
    refine (m.regs.get_setWithFlag x z _ _).trans ?_
    rw [if_neg (Ne.symm hflag), if_neg (Ne.symm hx)]
  | draw x y n =>
    by_cases hrange : Memory.InRange m.regs.i n.toNat
    · rw [execute, drawSprite_of_inRange hrange]
      exact (m.regs.get_setFlag _ z).trans (if_neg (Ne.symm h))
    · rw [execute, drawSprite_of_not_inRange hrange]
      rfl
  | addIndex x => exact (Registers.get_setFlag _ _ z).trans (if_neg (Ne.symm h))
  | block dir x =>
    refine m.variant.rules.get_transfer m.regs m.memory x dir fun hload => ?_
    subst hload
    exact h
  | _ => rfl

end Machine

end ChipVM
