import ChipVM.Instruction.Decode
import ChipVM.Keypad
import ChipVM.Machine
import ChipVM.Variant.Rules

/-!
# Steps

A step fetches the word at the program counter, moves the counter past it, and carries out what the
word stands for. An instruction that meets a fault stops there and leaves the machine as it is at
that point.
-/

namespace ChipVM

namespace Machine

/-- The word that the next step runs. -/
def fetch (m : Machine) : Except Fault Opcode := (m.memory.readWord m.regs.pc).map Opcode.mk

/-- The machine with its program counter past the word that was fetched. -/
def advance (m : Machine) : Machine := m.withRegs m.regs.skip

/-- The value of a register in decimal: hundreds, tens and ones. -/
def decimalDigits (b : UInt8) : List UInt8 := [b / 100, b / 10 % 10, b % 10]

/-- The key that a byte names by its low four bits. -/
def namedKey (b : UInt8) : UInt8 := b &&& 0xF

/-- Draw the sprite at the index with its corner at the place that two registers name, taken onto
the grid, and flag a collision. -/
def drawSprite (m : Machine) (x y : Reg) (n : UInt8) : Outcome Machine :=
  .ask m (m.memory.read m.regs.i n.toNat) fun sprite =>
    let column := (m.regs.get x).toNat % Display.width
    let line := (m.regs.get y).toNat % Display.height
    let drawn := m.display.draw column line sprite
    .done { m with display := drawn.1, regs := m.regs.setFlag drawn.2 }

/-- Put the lowest held key into a register; with no key held, stay at this instruction. -/
def takeKey (m : Machine) (keys : Keypad) (x : Reg) : Machine :=
  match keys.first? with
  | some key => m.withRegs (m.regs.set x key)
  | none => { m with regs.pc := m.regs.pc - 2, awaitingKey := true }

/-- Add a register to the index; the flag tells that the sum is past the last address. -/
def addToIndex (r : Registers) (x : Reg) : Registers :=
  let sum := r.i.toNat + (r.get x).toNat
  { r with i := r.i + (r.get x).toUInt16 }.setFlag (0xFFF < sum)

/-- Carry out an instruction with the given keys held at the given time. The program counter is
already past it. -/
def execute (m : Machine) (keys : Keypad) (now : Nanos) : Instruction Reg → Outcome Machine
  | .machineCall _ => .done m
  | .clear => .done { m with display := Display.dark }
  | .ret =>
    match m.stack with
    | [] => .failed m .stackUnderflow
    | back :: rest => .done { m with stack := rest, regs.pc := back }
  | .jump target => .done { m with regs.pc := target }
  | .call target =>
    if stackLimit ≤ m.stack.length then .failed m (.stackOverflow m.stack.length)
    else .done { m with stack := m.regs.pc :: m.stack, regs.pc := target }
  | .skipByte x b => .done (m.withRegs (m.regs.skipIf (m.regs.get x == b)))
  | .skipNotByte x b => .done (m.withRegs (m.regs.skipIf (m.regs.get x != b)))
  | .skipSame x y => .done (m.withRegs (m.regs.skipIf (m.regs.get x == m.regs.get y)))
  | .skipDiffer x y => .done (m.withRegs (m.regs.skipIf (m.regs.get x != m.regs.get y)))
  | .setByte x b => .done (m.withRegs (m.regs.set x b))
  | .addByte x b => .done (m.withRegs (m.regs.set x (m.regs.get x + b)))
  | .copy x y => .done (m.withRegs (m.regs.set x (m.regs.get y)))
  | .logic op x y => .done (m.withRegs (m.regs.logic m.variant.rules op x y))
  | .add x y =>
    let a := m.regs.get x
    let b := m.regs.get y
    .done (m.withRegs (m.regs.setWithFlag x (a + b) (0xFF < a.toNat + b.toNat)))
  | .sub x y =>
    let a := m.regs.get x
    let b := m.regs.get y
    .done (m.withRegs (m.regs.setWithFlag x (a - b) (b ≤ a)))
  | .subFrom x y =>
    let a := m.regs.get x
    let b := m.regs.get y
    .done (m.withRegs (m.regs.setWithFlag x (b - a) (a ≤ b)))
  | .shift dir x y => .done (m.withRegs (m.regs.shift m.variant.rules dir x y))
  | .setIndex target => .done { m with regs.i := target }
  | .jumpOffset x base => .done (m.withRegs (m.regs.jumpOffset m.variant.rules x base))
  | .random x mask =>
    .done { m with
      regs := m.regs.set x (m.random.next &&& mask)
      random := m.random.advance }
  | .draw x y n => m.drawSprite x y n
  | .skipHeld x => .done (m.withRegs (m.regs.skipIf (keys.isHeld (namedKey (m.regs.get x)))))
  | .skipNotHeld x => .done (m.withRegs (m.regs.skipIf (!keys.isHeld (namedKey (m.regs.get x)))))
  | .readDelay x => .done (m.withRegs (m.regs.set x (m.delayUnits now)))
  | .awaitKey x => .done (m.takeKey keys x)
  | .setDelay x => .done { m with delay := Countdown.armUnits now (m.regs.get x) }
  | .setSound x => .done { m with sound := Countdown.armUnits now (m.regs.get x) }
  | .addIndex x => .done (m.withRegs (addToIndex m.regs x))
  | .glyph x => .done { m with regs.i := Font.glyphAddress (m.regs.get x) }
  | .decimal x =>
    (m.memory.write m.regs.i (decimalDigits (m.regs.get x))).within fun memory =>
      { m with memory }
  | .block dir x =>
    (m.variant.rules.transfer m.regs m.memory x dir).within fun moved =>
      { m with regs := moved.1, memory := moved.2 }

/-- Run one instruction. A word that cannot be fetched leaves the machine alone, and one that stands
for nothing only moves the program counter. An instruction that is carried out, with or without
success, ends the wait for a key unless it starts one. -/
def step (m : Machine) (keys : Keypad) (now : Nanos) : Outcome Machine :=
  .ask m m.fetch fun op =>
    match Instruction.decode? op with
    | none => .failed m.advance (.unimplemented op)
    | some i => { m.advance with awaitingKey := false }.execute keys now i

/-- The instruction that the next step carries out, if it gets as far as that. -/
def upcoming? (m : Machine) : Option (Instruction Reg) :=
  match m.fetch with
  | .error _ => none
  | .ok op => Instruction.decode? op

end Machine

end ChipVM
