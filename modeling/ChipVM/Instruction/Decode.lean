import ChipVM.Opcode
import ChipVM.Instruction

/-!
# Decoding

The table from instruction words to instructions. Outside the categories 8, E and F every word
means something; the low four bits of categories 5 and 9 are not looked at.
-/

namespace ChipVM

namespace Instruction

/-- The arithmetic instruction that the low four bits of category 8 select. -/
def ofArithmetic? (x y : Reg) : Nat → Option (Instruction Reg)
  | 0x0 => some (copy x y)
  | 0x1 => some (logic .or x y)
  | 0x2 => some (logic .and x y)
  | 0x3 => some (logic .xor x y)
  | 0x4 => some (add x y)
  | 0x5 => some (sub x y)
  | 0x6 => some (shift .right x y)
  | 0x7 => some (subFrom x y)
  | 0xE => some (shift .left x y)
  | _ => none

/-- The keypad test that the low byte of category E selects. -/
def ofKeyTest? (x : Reg) : Nat → Option (Instruction Reg)
  | 0x9E => some (skipHeld x)
  | 0xA1 => some (skipNotHeld x)
  | _ => none

/-- The single-register instruction that the low byte of category F selects. -/
def ofService? (x : Reg) : Nat → Option (Instruction Reg)
  | 0x07 => some (readDelay x)
  | 0x0A => some (awaitKey x)
  | 0x15 => some (setDelay x)
  | 0x18 => some (setSound x)
  | 0x1E => some (addIndex x)
  | 0x29 => some (glyph x)
  | 0x33 => some (decimal x)
  | 0x55 => some (block .store x)
  | 0x65 => some (block .load x)
  | _ => none

/-- The instruction of category 0: two words have a meaning, all others call machine code. -/
def ofSystem (op : Opcode) : Instruction Reg :=
  if op.word = 0x00E0 then clear
  else if op.word = 0x00EE then ret
  else machineCall op.nnn

/-- The instruction that a word stands for, if it stands for one. -/
def decode? (op : Opcode) : Option (Instruction Reg) :=
  match op.category with
  | 0x0 => some (ofSystem op)
  | 0x1 => some (jump op.nnn)
  | 0x2 => some (call op.nnn)
  | 0x3 => some (skipByte op.x op.nn)
  | 0x4 => some (skipNotByte op.x op.nn)
  | 0x5 => some (skipSame op.x op.y)
  | 0x6 => some (setByte op.x op.nn)
  | 0x7 => some (addByte op.x op.nn)
  | 0x8 => ofArithmetic? op.x op.y op.n.toNat
  | 0x9 => some (skipDiffer op.x op.y)
  | 0xA => some (setIndex op.nnn)
  | 0xB => some (jumpOffset op.x op.nnn)
  | 0xC => some (random op.x op.nn)
  | 0xD => some (draw op.x op.y op.n)
  | 0xE => ofKeyTest? op.x op.nn.toNat
  | _ => ofService? op.x op.nn.toNat

end Instruction

end ChipVM
