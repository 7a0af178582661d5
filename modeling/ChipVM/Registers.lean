import ChipVM.Opcode
import ChipVM.Memory

/-!
# Registers

Sixteen data bytes, the index and the program counter. The last data register doubles as the flag
of arithmetic and drawing, so a result that goes there is overwritten by its own flag.
-/

namespace ChipVM

/-- The registers that a program sees. -/
structure Registers where
  /-- The data registers. -/
  v : Vector UInt8 16
  /-- The index, an address that drawing and transfers start from. -/
  i : UInt16
  /-- The program counter, the address of the next instruction. -/
  pc : UInt16
  deriving DecidableEq, Repr

namespace Registers

/-- All zeros, and the program counter where programs are put. -/
def initial : Registers := ⟨Vector.replicate 16 0, 0, Memory.programStart⟩

/-- The byte in a data register. -/
def get (r : Registers) (x : Reg) : UInt8 := r.v[x.val]

/-- Put a byte into a data register. -/
def set (r : Registers) (x : Reg) (b : UInt8) : Registers := { r with v := r.v.set x.val b }

/-- The byte that stands for a condition in the flag register. -/
def flagByte (b : Bool) : UInt8 := if b then 1 else 0

/-- Put a condition into the flag register. -/
def setFlag (r : Registers) (b : Bool) : Registers := r.set Reg.flag (flagByte b)

/-- Put a result into a register and then its flag, so that the flag wins in the flag register. -/
def setWithFlag (r : Registers) (x : Reg) (b : UInt8) (flag : Bool) : Registers :=
  (r.set x b).setFlag flag

/-- Move on to the next instruction, or past it. -/
def skip (r : Registers) : Registers := { r with pc := r.pc + 2 }

/-- Pass the next instruction over if the condition holds. -/
def skipIf (r : Registers) (b : Bool) : Registers := if b then r.skip else r

/-- Put bytes into the registers from `x` on, as far as there are registers. -/
def setFrom (r : Registers) (x : Nat) : List UInt8 → Registers
  | [] => r
  | b :: rest => setFrom { r with v := r.v.setIfInBounds x b } (x + 1) rest

/-- The bytes of the registers up to and including `x`. -/
def upTo (r : Registers) (x : Reg) : List UInt8 := r.v.toList.take (x.val + 1)

/-- The registers are known by what can be read from them. -/
@[ext] theorem ext_get {r s : Registers} (hv : ∀ x, r.get x = s.get x) (hi : r.i = s.i)
    (hpc : r.pc = s.pc) : r = s := by
  obtain ⟨v, i, pc⟩ := r
  obtain ⟨v', i', pc'⟩ := s
  have h : v = v' := Vector.ext fun k hk => hv ⟨k, hk⟩
  simp_all

/-- Setting a register changes that one and no other. -/
theorem get_set (r : Registers) (x y : Reg) (b : UInt8) :
    (r.set x b).get y = if x = y then b else r.get y := by
  simp only [get, set, Vector.getElem_set, Fin.ext_iff]

@[simp] theorem get_set_self (r : Registers) (x : Reg) (b : UInt8) : (r.set x b).get x = b := by
  simp [get_set]

@[simp] theorem i_set (r : Registers) (x : Reg) (b : UInt8) : (r.set x b).i = r.i := rfl
@[simp] theorem pc_set (r : Registers) (x : Reg) (b : UInt8) : (r.set x b).pc = r.pc := rfl
@[simp] theorem i_setFlag (r : Registers) (b : Bool) : (r.setFlag b).i = r.i := rfl
@[simp] theorem pc_setFlag (r : Registers) (b : Bool) : (r.setFlag b).pc = r.pc := rfl

theorem get_setFlag (r : Registers) (b : Bool) (y : Reg) :
    (r.setFlag b).get y = if Reg.flag = y then flagByte b else r.get y := get_set ..

/-- The flag register holds the flag, `x` the result unless it is the flag register, and every
other register what it held. -/
theorem get_setWithFlag (r : Registers) (x y : Reg) (b : UInt8) (flag : Bool) :
    (r.setWithFlag x b flag).get y =
      if Reg.flag = y then flagByte flag else if x = y then b else r.get y := by
  rw [setWithFlag, get_setFlag, get_set]

@[simp] theorem i_setWithFlag (r : Registers) (x : Reg) (b : UInt8) (flag : Bool) :
    (r.setWithFlag x b flag).i = r.i := rfl

@[simp] theorem pc_setWithFlag (r : Registers) (x : Reg) (b : UInt8) (flag : Bool) :
    (r.setWithFlag x b flag).pc = r.pc := rfl

@[simp] theorem get_skip (r : Registers) (x : Reg) : r.skip.get x = r.get x := rfl
@[simp] theorem i_skip (r : Registers) : r.skip.i = r.i := rfl

@[simp] theorem get_skipIf (r : Registers) (b : Bool) (x : Reg) :
    (r.skipIf b).get x = r.get x := by
  cases b <;> rfl

@[simp] theorem i_skipIf (r : Registers) (b : Bool) : (r.skipIf b).i = r.i := by
  cases b <;> rfl

@[simp] theorem i_setFrom (r : Registers) (x : Nat) (bs : List UInt8) :
    (r.setFrom x bs).i = r.i := by
  induction bs generalizing r x with
  | nil => rfl
  | cons b rest ih => rw [setFrom, ih]

@[simp] theorem pc_setFrom (r : Registers) (x : Nat) (bs : List UInt8) :
    (r.setFrom x bs).pc = r.pc := by
  induction bs generalizing r x with
  | nil => rfl
  | cons b rest ih => rw [setFrom, ih]

/-- The registers that the bytes reach hold them, and the others what they held. -/
theorem get_setFrom (r : Registers) (x : Nat) (bs : List UInt8) (y : Reg) :
    (r.setFrom x bs).get y =
      if x ≤ y.val ∧ y.val < x + bs.length then bs[y.val - x]?.getD 0 else r.get y := by
  induction bs generalizing r x with
  | nil =>
    rw [if_neg (by rw [List.length_nil]; omega)]
    rfl
  | cons b rest ih =>
    rw [setFrom, ih]
    simp only [List.length_cons, get, Vector.getElem_setIfInBounds]
    by_cases h : x = y.val
    · rw [if_neg (by omega), if_pos h, if_pos (by omega), h, Nat.sub_self]
      rfl
    · rw [if_neg h]
      by_cases h1 : x + 1 ≤ y.val ∧ y.val < x + 1 + rest.length
      · have h3 : y.val - x = (y.val - (x + 1)) + 1 := by omega
        rw [if_pos h1, if_pos (by omega), h3, List.getElem?_cons_succ]
      · rw [if_neg h1, if_neg (by omega)]

@[simp] theorem length_upTo (r : Registers) (x : Reg) : (r.upTo x).length = x.val + 1 := by
  have h := x.isLt
  simp only [upTo, List.length_take, Vector.length_toList]
  omega

theorem getElem?_upTo (r : Registers) (x y : Reg) (h : y ≤ x) :
    (r.upTo x)[y.val]? = some (r.get y) := by
  have hy : y.val < x.val + 1 := by
    have := Fin.le_def.mp h
    omega
  simp [upTo, get, hy]

end Registers

end ChipVM
