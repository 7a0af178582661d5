/-!
# Instruction words

An opcode is sixteen bits. Its fields overlap: the top four bits name the category, and the
instruction of that category decides which of the others it reads.
-/

namespace ChipVM

/-- The number of one of the sixteen data registers. -/
abbrev Reg := Fin 16

/-- The register with the lowest number. -/
abbrev Reg.first : Reg := ⟨0, by decide⟩

/-- The register that arithmetic and drawing use as their flag. -/
abbrev Reg.flag : Reg := 15

/-- An instruction word; memory holds its high byte first. -/
structure Opcode where
  /-- The sixteen bits. -/
  word : UInt16
  deriving DecidableEq, Repr

namespace Opcode

/-- The top four bits. -/
def category (op : Opcode) : Nat := op.word.toNat / 0x1000

/-- The second four bits, as a register. -/
def x (op : Opcode) : Reg := ⟨op.word.toNat / 0x100 % 16, Nat.mod_lt _ (by decide)⟩

/-- The third four bits, as a register. -/
def y (op : Opcode) : Reg := ⟨op.word.toNat / 0x10 % 16, Nat.mod_lt _ (by decide)⟩

/-- The low four bits, a sprite's height. -/
def n (op : Opcode) : UInt8 := UInt8.ofNat (op.word.toNat % 0x10)

/-- The low eight bits, an immediate byte. -/
def nn (op : Opcode) : UInt8 := UInt8.ofNat (op.word.toNat % 0x100)

/-- The low twelve bits, an address. -/
def nnn (op : Opcode) : UInt16 := UInt16.ofNat (op.word.toNat % 0x1000)

theorem category_lt (op : Opcode) : op.category < 16 := by
  have h := op.word.toNat_lt
  unfold category
  omega

/-- The fields hold every bit of the word: category, two registers and the low four bits. -/
theorem toNat_word_eq (op : Opcode) :
    op.word.toNat = 0x1000 * op.category + 0x100 * op.x.val + 0x10 * op.y.val + op.n.toNat := by
  have h := op.word.toNat_lt
  simp only [category, x, y, n, UInt8.toNat_ofNat']
  omega

@[simp] theorem toNat_nn (op : Opcode) : op.nn.toNat = 0x10 * op.y.val + op.n.toNat := by
  simp only [nn, y, n, UInt8.toNat_ofNat']
  omega

@[simp] theorem toNat_nnn (op : Opcode) :
    op.nnn.toNat = 0x100 * op.x.val + 0x10 * op.y.val + op.n.toNat := by
  have h := op.word.toNat_lt
  simp only [nnn, x, y, n, UInt8.toNat_ofNat', UInt16.toNat_ofNat']
  omega

end Opcode

end ChipVM
