import ChipVM.Instruction
import ChipVM.Opcode
import ChipVM.Text.Hex

/-!
# Assembly text

An instruction is written as a name and its operands, separated by commas. Each kind of operand
has one written form, and the form tells the kind, save that one number may look like another.
-/

namespace ChipVM

/-- An operand as assembly text names it. -/
inductive Operand where
  | register (x : Nat)
  /-- A byte in two digits. -/
  | byte (value : UInt8)
  /-- A sprite height, in as few digits as it has. -/
  | height (value : UInt8)
  /-- An address in three digits. -/
  | address (value : UInt16)
  | index
  | delayTimer
  | soundTimer
  | key
  | font
  | decimal
  /-- The memory at the index. -/
  | atIndex
  /-- The registers from the first up to `x`. -/
  | registersTo (x : Nat)
  /-- The first register or `x`, as the variant has it. -/
  | firstOr (x : Nat)
  deriving DecidableEq, Repr

namespace Operand

/-- The name of a register. -/
def registerText (x : Nat) : String := "V" ++ Text.hexUpper x

/-- The written form of an operand. -/
def text : Operand → String
  | register x => registerText x
  | byte b => Text.hex 2 b.toNat
  | height n => Text.hex 1 n.toNat
  | address a => Text.hex 3 a.toNat
  | index => "I"
  | delayTimer => "DT"
  | soundTimer => "ST"
  | key => "K"
  | font => "F"
  | decimal => "B"
  | atIndex => "[I]"
  | registersTo x => "V0-" ++ registerText x
  | firstOr x => "V0/" ++ registerText x

end Operand

/-- The name of a bitwise combination. -/
def Logic.name : Logic → String
  | or => "OR"
  | and => "AND"
  | xor => "XOR"

/-- The name of a shift. -/
def Shift.name : Shift → String
  | right => "SHR"
  | left => "SHL"

namespace Instruction

/-- The name that assembly text gives an instruction. -/
def name {ρ : Type} : Instruction ρ → String
  | machineCall _ => "SYS"
  | clear => "CLS"
  | ret => "RET"
  | jump _ | jumpOffset .. => "JP"
  | call _ => "CALL"
  | skipByte .. | skipSame .. => "SE"
  | skipNotByte .. | skipDiffer .. => "SNE"
  | setByte .. | copy .. | setIndex _ | readDelay _ | awaitKey _ | setDelay _ | setSound _
  | glyph _ | decimal _ | block .. => "LD"
  | addByte .. | add .. | addIndex _ => "ADD"
  | logic op .. => op.name
  | sub .. => "SUB"
  | subFrom .. => "SUBN"
  | shift dir .. => dir.name
  | random .. => "RND"
  | draw .. => "DRW"
  | skipHeld _ => "SKP"
  | skipNotHeld _ => "SKNP"

/-- The operands of an instruction in written order. -/
def operands : Instruction Nat → List Operand
  | clear | ret => []
  | machineCall a | jump a | call a => [.address a]
  | skipByte x b | skipNotByte x b | setByte x b | addByte x b | random x b =>
    [.register x, .byte b]
  | skipSame x y | skipDiffer x y | copy x y | logic _ x y | add x y | sub x y | subFrom x y
  | shift _ x y => [.register x, .register y]
  | setIndex a => [.index, .address a]
  | jumpOffset x a => [.firstOr x, .address a]
  | draw x y n => [.register x, .register y, .height n]
  | skipHeld x | skipNotHeld x => [.register x]
  | readDelay x => [.register x, .delayTimer]
  | awaitKey x => [.register x, .key]
  | setDelay x => [.delayTimer, .register x]
  | setSound x => [.soundTimer, .register x]
  | addIndex x => [.index, .register x]
  | glyph x => [.font, .register x]
  | decimal x => [.decimal, .register x]
  | block .store x => [.atIndex, .registersTo x]
  | block .load x => [.registersTo x, .atIndex]

/-- The assembly text of an instruction over numbered registers. -/
def mnemonic (i : Instruction Nat) : String :=
  match i.operands with
  | [] => i.name
  | ops => i.name ++ " " ++ ", ".intercalate (ops.map Operand.text)

/-- The assembly text of an instruction of the machine. -/
def text (i : Instruction Reg) : String := (i.map Fin.val).mnemonic

end Instruction

end ChipVM
