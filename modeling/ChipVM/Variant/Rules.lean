import ChipVM.Instruction
import ChipVM.Memory
import ChipVM.Registers
import ChipVM.Variant

/-!
# What the variants disagree on

Four instruction families behave differently, each in one respect. A variant is the record of its
four answers; every other instruction is the same in both.
-/

namespace ChipVM

/-- The points on which the variants disagree. -/
structure Rules where
  /-- A shift takes its operand from `y` and not from `x`. -/
  shiftsSecond : Bool
  /-- A jump with an offset adds the first register and not `x`. -/
  offsetIsFirst : Bool
  /-- A block transfer leaves the index past the block and not at its start. -/
  blockMovesIndex : Bool
  /-- A bitwise combination clears the flag. -/
  logicClearsFlag : Bool
  deriving DecidableEq, Repr

/-- The answers of each variant. -/
def Variant.rules : Variant → Rules
  | .legacy => ⟨true, true, true, false⟩
  | .extended => ⟨false, false, false, true⟩

/-- The combination of two bytes. -/
def Logic.apply : Logic → UInt8 → UInt8 → UInt8
  | or => (· ||| ·)
  | and => (· &&& ·)
  | xor => (· ^^^ ·)

/-- A byte moved by one place. -/
def Shift.apply : Shift → UInt8 → UInt8
  | right => fun b => b >>> 1
  | left => fun b => b <<< 1

/-- The bit that moving a byte by one place pushes out. -/
def Shift.out : Shift → UInt8 → Bool
  | right => fun b => b &&& 0x01 != 0
  | left => fun b => b &&& 0x80 != 0

namespace Registers

/-- Put a shifted register into `x` and the bit that fell out into the flag. -/
def shift (rules : Rules) (r : Registers) (dir : Shift) (x y : Reg) : Registers :=
  let b := r.get (if rules.shiftsSecond then y else x)
  r.setWithFlag x (dir.apply b) (dir.out b)

/-- Combine `y` into `x`. -/
def logic (rules : Rules) (r : Registers) (op : Logic) (x y : Reg) : Registers :=
  let b := op.apply (r.get x) (r.get y)
  if rules.logicClearsFlag then r.setWithFlag x b false else r.set x b

/-- Jump to an address plus the offset register. -/
def jumpOffset (rules : Rules) (r : Registers) (x : Reg) (base : UInt16) : Registers :=
  { r with pc := base + (r.get (if rules.offsetIsFirst then Reg.first else x)).toUInt16 }

/-- Move the index past the block of registers up to `x`, where the variant does so. -/
def passBlock (rules : Rules) (r : Registers) (x : Reg) : Registers :=
  if rules.blockMovesIndex then { r with i := r.i + UInt16.ofNat (x.val + 1) } else r

end Registers

/-- Copy the registers up to `x` to the index, or back. -/
def copyBlock (r : Registers) (m : Memory) (x : Reg) : Transfer → Outcome (Registers × Memory)
  | .store => (m.write r.i (r.upTo x)).within fun m' => (r, m')
  | .load => .ask (r, m) (m.read r.i (x.val + 1)) fun bs => .done (r.setFrom 0 bs, m)

/-- Copy a block of registers and then, where the variant does so, move the index past it. -/
def Rules.transfer (rules : Rules) (r : Registers) (m : Memory) (x : Reg) (dir : Transfer) :
    Outcome (Registers × Memory) :=
  (copyBlock r m x dir).andThen fun moved => .done (moved.1.passBlock rules x, moved.2)

namespace Rules

/-- A block is stored if its range exists. -/
theorem transfer_store_of_inRange (rules : Rules) {r : Registers} (m : Memory) {x : Reg}
    (h : Memory.InRange r.i (x.val + 1)) :
    rules.transfer r m x .store =
      .done (r.passBlock rules x, m.overwrite r.i.toNat (r.upTo x)) := by
  have hw : Memory.InRange r.i (r.upTo x).length := by rwa [Registers.length_upTo]
  rw [transfer, copyBlock, m.write_of_inRange hw]
  rfl

/-- A block is loaded if its range exists. -/
theorem transfer_load_of_inRange (rules : Rules) {r : Registers} (m : Memory) {x : Reg}
    (h : Memory.InRange r.i (x.val + 1)) :
    rules.transfer r m x .load =
      .done ((r.setFrom 0 (m.bytesFrom r.i.toNat (x.val + 1))).passBlock rules x, m) := by
  rw [transfer, copyBlock, m.read_of_inRange h]
  rfl

/-- A block that runs off memory is refused in both directions. -/
theorem transfer_of_not_inRange (rules : Rules) {r : Registers} (m : Memory) {x : Reg}
    (dir : Transfer) (h : ¬ Memory.InRange r.i (x.val + 1)) :
    rules.transfer r m x dir = .failed (r, m) (.outOfBounds (Memory.firstOutside r.i)) := by
  cases dir with
  | store =>
    have hw : ¬ Memory.InRange r.i (r.upTo x).length := by rwa [Registers.length_upTo]
    rw [transfer, copyBlock, m.write_of_not_inRange hw]
    rfl
  | load =>
    rw [transfer, copyBlock, m.read_of_not_inRange h]
    rfl

end Rules

end ChipVM
