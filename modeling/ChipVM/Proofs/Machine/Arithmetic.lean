import Mathlib.Data.Nat.Bitwise
import ChipVM.Proofs.Machine.Footprint

/-!
# Arithmetic and the flag

A sum, a difference or a shifted byte need not fit into a register; the flag tells the rest. So the
result and the flag together determine the exact value, and this holds whichever registers are
operands: the operands are read before anything is written, and the flag is written last.
-/

namespace ChipVM

/-- The sum of two bytes is exact with its carry. -/
theorem toNat_add_carry (a b : UInt8) :
    (a + b).toNat + 256 * (decide (0xFF < a.toNat + b.toNat)).toNat = a.toNat + b.toNat := by
  have ha := a.toNat_lt
  have hb := b.toNat_lt
  rw [UInt8.toNat_add]
  by_cases h : 0xFF < a.toNat + b.toNat
  · rw [decide_eq_true h, Bool.toNat_true]
    omega
  · rw [decide_eq_false h, Bool.toNat_false]
    omega

/-- What is missing in a difference is one unit of the next place if something was borrowed. -/
theorem toNat_sub_borrow (a b : UInt8) :
    ((a - b).toNat : Int) = a.toNat - b.toNat + 256 * (1 - (decide (b ≤ a)).toNat) := by
  have ha := a.toNat_lt
  have hb := b.toNat_lt
  rw [UInt8.toNat_sub]
  by_cases h : b ≤ a
  · have hle := UInt8.le_iff_toNat_le.mp h
    rw [decide_eq_true h, Bool.toNat_true]
    omega
  · have hlt := UInt8.lt_iff_toNat_lt.mp (UInt8.not_le.mp h)
    rw [decide_eq_false h, Bool.toNat_false]
    omega

/-- A byte has something in common with a power of two exactly if it has that bit. -/
theorem and_ne_zero_eq_testBit (b mask : UInt8) {k : Nat} (hmask : mask.toNat = 2 ^ k) :
    (b &&& mask != 0) = b.toNat.testBit k := by
  have hand : (b &&& mask).toNat = (b.toNat.testBit k).toNat * 2 ^ k := by
    rw [UInt8.toNat_and, hmask, Nat.and_two_pow]
  rw [Bool.eq_iff_iff, bne_iff_ne, ne_eq, ← UInt8.toNat_inj, hand]
  cases b.toNat.testBit k <;> simp

namespace Shift

/-- The place of the bit that falls out. -/
def lastBit : Shift → Nat
  | right => 0
  | left => 7

/-- The bit that falls out is the one at the shift's last place. -/
theorem out_eq_testBit (dir : Shift) (b : UInt8) : dir.out b = b.toNat.testBit dir.lastBit := by
  cases dir with
  | right => exact and_ne_zero_eq_testBit b 0x01 rfl
  | left => exact and_ne_zero_eq_testBit b 0x80 rfl

/-- A byte shifted right is exact with the bit that falls out. -/
theorem two_mul_right_add_out (b : UInt8) :
    2 * (right.apply b).toNat + (right.out b).toNat = b.toNat := by
  have happly : (right.apply b).toNat = b.toNat / 2 := by
    simp [Shift.apply, Nat.shiftRight_eq_div_pow]
  rw [out_eq_testBit, happly, lastBit, Nat.toNat_testBit]
  omega

/-- A byte shifted left is exact with the bit that falls out. -/
theorem out_mul_add_left (b : UInt8) :
    256 * (left.out b).toNat + (left.apply b).toNat = 2 * b.toNat := by
  have hb := b.toNat_lt
  have happly : (left.apply b).toNat = b.toNat * 2 % 256 := by
    simp [Shift.apply, Nat.shiftLeft_eq]
  rw [out_eq_testBit, happly, lastBit, Nat.toNat_testBit]
  omega

end Shift

namespace Machine

/-- An instruction of `m` that computes into `x` has come to `o`. The two numbers that `exact`
speaks of are what is then in `x` and in the flag register. -/
structure Computes (m : Machine) (o : Outcome Machine) (x : Reg) (flag : Prop)
    (exact : Int → Int → Prop) : Prop where
  done : o.fault = none
  /-- Also where `x` is the flag register. -/
  flag : o.state.regs.FlagTells flag
  /-- A result in another register outlives the flag. -/
  result : x ≠ Reg.flag → exact (o.state.regs.get x).toNat (o.state.regs.get Reg.flag).toNat
  others : ∀ z, z ≠ x → z ≠ Reg.flag → o.state.regs.get z = m.regs.get z
  index : o.state.regs.i = m.regs.i
  memory : o.state.memory = m.memory

/-- A step that puts a result and then its flag into registers computes what they tell. -/
theorem computes_of_setWithFlag {m : Machine} {i : Instruction Reg} (hruns : m.Runs i)
    (keys : Keypad) (now : Nanos) {x : Reg} {b : UInt8} {carry : Bool}
    (hexecute : m.ready.execute keys now i =
      .done (m.ready.withRegs (m.ready.regs.setWithFlag x b carry)))
    {flag : Prop} (hflag : carry = true ↔ flag) {exact : Int → Int → Prop}
    (hexact : exact b.toNat carry.toNat) :
    m.Computes (m.step keys now) x flag exact := by
  have hget := fun z => m.ready.regs.get_setWithFlag x z b carry
  rw [hruns.step, hexecute]
  refine ⟨rfl, Registers.flagTells_setFlag _ hflag, fun hx => ?_, fun z hzx hzflag => ?_, rfl, rfl⟩
  · dsimp only [Outcome.state_done, withRegs]
    rw [hget x, hget Reg.flag, if_neg (Ne.symm hx), if_pos rfl, if_pos rfl,
      Registers.toNat_flagByte]
    exact hexact
  · exact (hget z).trans ((if_neg (Ne.symm hzflag)).trans (if_neg (Ne.symm hzx)))

/-- The variant picks the register that a shift takes its byte from. -/
theorem exists_shift_operand (m : Machine) (x y : Reg) :
    ∃ z, (m.regs.get z).toNat = (match m.variant with
        | .legacy => (m.regs.get y).toNat
        | .extended => (m.regs.get x).toNat) ∧
      ∀ dir keys now, m.ready.execute keys now (.shift dir x y) =
        .done (m.ready.withRegs
          (m.ready.regs.setWithFlag x (dir.apply (m.regs.get z)) (dir.out (m.regs.get z)))) := by
  have hready : m.ready.variant = m.variant := rfl
  cases hvariant : m.variant with
  | legacy =>
    refine ⟨y, rfl, fun dir keys now => ?_⟩
    rw [execute, hready, hvariant]
    rfl
  | extended =>
    refine ⟨x, rfl, fun dir keys now => ?_⟩
    rw [execute, hready, hvariant]
    rfl

/-- The sum of the index and a register is computed before the flag is written, and taken modulo the
number of all indices. -/
theorem step_of_addIndex {m : Machine} {x : Reg} (hruns : m.Runs (.addIndex x)) (keys : Keypad)
    (now : Nanos) :
    let o := m.step keys now
    let sum := m.regs.i.toNat + (m.regs.get x).toNat
    o.fault = none ∧ o.state.regs.i.toNat = sum % 2 ^ 16 ∧ o.state.regs.FlagTells (0xFFF < sum) ∧
      (∀ z, z ≠ Reg.flag → o.state.regs.get z = m.regs.get z) ∧ o.state.memory = m.memory := by
  intro o sum
  have ho : o = .done (m.ready.withRegs (addToIndex m.ready.regs x)) := hruns.step keys now
  rw [ho]
  refine ⟨rfl, ?_, Registers.flagTells_setFlag _ decide_eq_true_iff, fun z hz => ?_, rfl⟩
  · exact (UInt16.toNat_add ..).trans (by rw [UInt8.toNat_toUInt16]; rfl)
  · exact (Registers.get_setFlag ..).trans (if_neg (Ne.symm hz))

/-- Adding a byte wraps round and changes no other register. -/
theorem step_of_addByte {m : Machine} {x : Reg} {nn : UInt8} (hruns : m.Runs (.addByte x nn))
    (keys : Keypad) (now : Nanos) :
    let o := m.step keys now
    o.fault = none ∧ (o.state.regs.get x).toNat = ((m.regs.get x).toNat + nn.toNat) % 256 ∧
      (∀ z, z ≠ x → o.state.regs.get z = m.regs.get z) ∧ o.state.regs.i = m.regs.i ∧
      o.state.memory = m.memory := by
  intro o
  have ho : o = .done (m.ready.withRegs (m.ready.regs.set x (m.ready.regs.get x + nn))) :=
    hruns.step keys now
  rw [ho]
  refine ⟨rfl, ?_, fun z hz => ?_, rfl, rfl⟩
  · exact (congrArg UInt8.toNat (m.ready.regs.get_set_self x _)).trans (UInt8.toNat_add ..)
  · exact (Registers.get_set ..).trans (if_neg (Ne.symm hz))

/-- After `8xy4`, `8xy5`, `8xy7`, `8xy6` and `8xyE` the flag tells of a carry, of nothing borrowed
or of the bit that fell out. Unless the result went to the flag register too, both together make up
the exact sum, difference or shifted byte; no other register has changed, nor have the index and
memory. A shift takes its byte from `y` in the legacy variant and from `x` in the extended one.
`Fx1E` adds to the index modulo `2^16` and flags a sum past the last address, and `7xnn` adds to `x`
modulo 256 without a flag. The operands are as they were before the step, and any of them may be the
same register or the flag register. -/
theorem arithmetic_is_exact (m : Machine) (keys : Keypad) (now : Nanos) (x y : Reg) :
    let o := m.step keys now
    let a := (m.regs.get x).toNat
    let b := (m.regs.get y).toNat
    let s : Nat := match m.variant with
      | .legacy => b
      | .extended => a
    (m.Runs (.add x y) → m.Computes o x (255 < a + b) fun v f => v + 256 * f = a + b) ∧
    (m.Runs (.sub x y) → m.Computes o x (b ≤ a) fun v f => v = a - b + 256 * (1 - f)) ∧
    (m.Runs (.subFrom x y) → m.Computes o x (a ≤ b) fun v f => v = b - a + 256 * (1 - f)) ∧
    (m.Runs (.shift .right x y) → m.Computes o x (s.testBit 0) fun v f => 2 * v + f = s) ∧
    (m.Runs (.shift .left x y) → m.Computes o x (s.testBit 7) fun v f => 256 * f + v = 2 * s) ∧
    (m.Runs (.addIndex x) →
      o.fault = none ∧ o.state.regs.i.toNat = (m.regs.i.toNat + a) % 2 ^ 16 ∧
      o.state.regs.FlagTells (0xFFF < m.regs.i.toNat + a) ∧
      (∀ z, z ≠ Reg.flag → o.state.regs.get z = m.regs.get z) ∧ o.state.memory = m.memory) ∧
    ∀ nn, m.Runs (.addByte x nn) →
      o.fault = none ∧ (o.state.regs.get x).toNat = (a + nn.toNat) % 256 ∧
      (∀ z, z ≠ x → o.state.regs.get z = m.regs.get z) ∧ o.state.regs.i = m.regs.i ∧
      o.state.memory = m.memory := by
  intro o a b s
  obtain ⟨z, hz, hshift⟩ := m.exists_shift_operand x y
  refine ⟨fun h => ?_, fun h => ?_, fun h => ?_, fun h => ?_, fun h => ?_,
    fun h => step_of_addIndex h keys now, fun nn h => step_of_addByte h keys now⟩
  · exact computes_of_setWithFlag h keys now rfl decide_eq_true_iff
      (by exact_mod_cast toNat_add_carry (m.regs.get x) (m.regs.get y))
  · exact computes_of_setWithFlag h keys now rfl
      (decide_eq_true_iff.trans UInt8.le_iff_toNat_le) (toNat_sub_borrow ..)
  · exact computes_of_setWithFlag h keys now rfl
      (decide_eq_true_iff.trans UInt8.le_iff_toNat_le) (toNat_sub_borrow ..)
  · refine computes_of_setWithFlag h keys now (hshift .right keys now) ?_ ?_
    · rw [Shift.out_eq_testBit, hz]
      rfl
    · exact_mod_cast (Shift.two_mul_right_add_out (m.regs.get z)).trans hz
  · refine computes_of_setWithFlag h keys now (hshift .left keys now) ?_ ?_
    · rw [Shift.out_eq_testBit, hz]
      rfl
    · exact_mod_cast (Shift.out_mul_add_left (m.regs.get z)).trans (congrArg (2 * ·) hz)

/-- A machine about to run one word with 100 in the first register, 200 in the flag register and an
index that is close to wrapping around. -/
def reckoner (variant : Variant) (high low : UInt8) : Machine :=
  let start := initial variant (RandomStream.ofSeed 8) 0
  { start with
    memory := start.memory.overwrite 0x200 [high, low]
    regs := { (start.regs.set Reg.first 100).set Reg.flag 200 with i := 0xFFE0 } }

theorem fetch_reckoner (variant : Variant) (high low : UInt8) :
    (reckoner variant high low).fetch =
      .ok ⟨UInt16.ofNat (0x100 * high.toNat + low.toNat)⟩ :=
  fetch_of_overwrite high low (Nat.le_of_ble_eq_true rfl) rfl

theorem operands_reckoner (variant : Variant) (high low : UInt8) :
    ((reckoner variant high low).regs.get Reg.first).toNat = 100 ∧
      ((reckoner variant high low).regs.get Reg.flag).toNat = 200 ∧
      (reckoner variant high low).regs.i.toNat = 0xFFE0 := ⟨rfl, rfl, rfl⟩

/-- Every operation is exact for the reckoner's operands, also where the flag register is one of
them. -/
theorem reckoner_is_exact :
    ((reckoner .legacy 0x80 0xF4).Runs (.add Reg.first Reg.flag) ∧
      (reckoner .legacy 0x80 0xF4).Computes ((reckoner .legacy 0x80 0xF4).step .released 0)
        Reg.first (255 < 100 + 200) fun v f => v + 256 * f = 100 + 200) ∧
    ((reckoner .legacy 0x8F 0x05).Runs (.sub Reg.flag Reg.first) ∧
      ((reckoner .legacy 0x8F 0x05).step .released 0).state.regs.FlagTells (100 ≤ 200)) ∧
    ((reckoner .legacy 0x8F 0xF7).Runs (.subFrom Reg.flag Reg.flag) ∧
      ((reckoner .legacy 0x8F 0xF7).step .released 0).state.regs.FlagTells (200 ≤ 200)) ∧
    ((reckoner .legacy 0x80 0xF6).Runs (.shift .right Reg.first Reg.flag) ∧
      (reckoner .legacy 0x80 0xF6).Computes ((reckoner .legacy 0x80 0xF6).step .released 0)
        Reg.first ((200).testBit 0) fun v f => 2 * v + f = 200) ∧
    ((reckoner .extended 0x80 0xFE).Runs (.shift .left Reg.first Reg.flag) ∧
      (reckoner .extended 0x80 0xFE).Computes ((reckoner .extended 0x80 0xFE).step .released 0)
        Reg.first ((100).testBit 7) fun v f => 256 * f + v = 2 * 100) ∧
    ((reckoner .legacy 0xFF 0x1E).Runs (.addIndex Reg.flag) ∧
      ((reckoner .legacy 0xFF 0x1E).step .released 0).state.regs.i.toNat =
        (0xFFE0 + 200) % 2 ^ 16) ∧
    (reckoner .legacy 0x7F 0xC8).Runs (.addByte Reg.flag 200) ∧
      (((reckoner .legacy 0x7F 0xC8).step .released 0).state.regs.get Reg.flag).toNat =
        (200 + 200) % 256 := by
  have hadd : (reckoner .legacy 0x80 0xF4).Runs (.add Reg.first Reg.flag) :=
    ⟨_, fetch_reckoner .legacy 0x80 0xF4, by decide, by decide, by decide, by decide⟩
  have hsub : (reckoner .legacy 0x8F 0x05).Runs (.sub Reg.flag Reg.first) :=
    ⟨_, fetch_reckoner .legacy 0x8F 0x05, by decide, by decide, by decide, by decide⟩
  have hsubFrom : (reckoner .legacy 0x8F 0xF7).Runs (.subFrom Reg.flag Reg.flag) :=
    ⟨_, fetch_reckoner .legacy 0x8F 0xF7, by decide, by decide, by decide, by decide⟩
  have hright : (reckoner .legacy 0x80 0xF6).Runs (.shift .right Reg.first Reg.flag) :=
    ⟨_, fetch_reckoner .legacy 0x80 0xF6, by decide, by decide, by decide, by decide⟩
  have hleft : (reckoner .extended 0x80 0xFE).Runs (.shift .left Reg.first Reg.flag) :=
    ⟨_, fetch_reckoner .extended 0x80 0xFE, by decide, by decide, by decide, by decide⟩
  have hindex : (reckoner .legacy 0xFF 0x1E).Runs (.addIndex Reg.flag) :=
    ⟨_, fetch_reckoner .legacy 0xFF 0x1E, by decide, by decide, by decide⟩
  have hbyte : (reckoner .legacy 0x7F 0xC8).Runs (.addByte Reg.flag 200) :=
    ⟨_, fetch_reckoner .legacy 0x7F 0xC8, by decide, by decide, by decide⟩
  obtain ⟨gadd, -⟩ :=
    arithmetic_is_exact (reckoner .legacy 0x80 0xF4) .released 0 Reg.first Reg.flag
  obtain ⟨-, gsub, -⟩ :=
    arithmetic_is_exact (reckoner .legacy 0x8F 0x05) .released 0 Reg.flag Reg.first
  obtain ⟨-, -, gsubFrom, -⟩ :=
    arithmetic_is_exact (reckoner .legacy 0x8F 0xF7) .released 0 Reg.flag Reg.flag
  obtain ⟨-, -, -, gright, -⟩ :=
    arithmetic_is_exact (reckoner .legacy 0x80 0xF6) .released 0 Reg.first Reg.flag
  obtain ⟨-, -, -, -, gleft, -⟩ :=
    arithmetic_is_exact (reckoner .extended 0x80 0xFE) .released 0 Reg.first Reg.flag
  obtain ⟨-, -, -, -, -, gindex, -⟩ :=
    arithmetic_is_exact (reckoner .legacy 0xFF 0x1E) .released 0 Reg.flag Reg.first
  obtain ⟨-, -, -, -, -, -, gbyte⟩ :=
    arithmetic_is_exact (reckoner .legacy 0x7F 0xC8) .released 0 Reg.flag Reg.first
  simp only [operands_reckoner] at gadd gsub gsubFrom gright gleft gindex gbyte
  exact ⟨⟨hadd, gadd hadd⟩, ⟨hsub, (gsub hsub).flag⟩, ⟨hsubFrom, (gsubFrom hsubFrom).flag⟩,
    ⟨hright, gright hright⟩, ⟨hleft, gleft hleft⟩, ⟨hindex, (gindex hindex).2.1⟩, hbyte,
    (gbyte 200 hbyte).2.1⟩

end Machine

end ChipVM
