import ChipVM.Proofs.Machine.Frame
import ChipVM.Proofs.Machine.Variants
import ChipVM.Proofs.Memory.Blocks

/-!
# Blocks of registers

`Fx55` copies the registers up to `x` to the bytes at the index, and `Fx65` copies them back. Either
of them undoes the other, as long as the bytes of the block are left alone in between and the index is
set back: what a store has put away a load finds again, and what a load has found a store puts where
it was. A legacy machine moves its index past the block in both cases, an extended one does not.
-/

namespace ChipVM

namespace Registers

/-- Registers that hold the bytes of a range are those bytes when they are listed. -/
theorem upTo_eq_bytesFrom {r : Registers} {m : Memory} {a : Nat} {x : Reg}
    (h : ∀ z ≤ x, r.get z = m.byteAt (a + z.val)) : r.upTo x = m.bytesFrom a (x.val + 1) := by
  have hx := x.isLt
  refine List.ext_getElem (by simp) fun k hk hk' => ?_
  rw [length_upTo] at hk
  have hget := h ⟨k, by omega⟩ (Fin.le_def.mpr (Nat.le_of_lt_succ hk))
  have hup := r.getElem?_upTo x ⟨k, by omega⟩ (Fin.le_def.mpr (Nat.le_of_lt_succ hk))
  have hfrom := m.getElem?_bytesFrom a hk
  rw [← hget, ← hup] at hfrom
  exact Option.some.inj (by rw [← List.getElem?_eq_getElem, ← List.getElem?_eq_getElem, hfrom])

end Registers

namespace Machine

section

variable {m : Machine} {x : Reg}

/-- The machine after a store that gets done. -/
def stored (m : Machine) (x : Reg) : Machine :=
  { m.ready with
    regs := m.ready.regs.passBlock m.variant.rules x
    memory := m.memory.overwrite m.regs.i.toNat (m.regs.upTo x) }

/-- The machine after a load that gets done. -/
def loaded (m : Machine) (x : Reg) : Machine :=
  { m.ready with
    regs := (m.ready.regs.setFrom 0 (m.memory.bytesFrom m.regs.i.toNat (x.val + 1))).passBlock
      m.variant.rules x }

/-- A block whose range exists is stored by the step. -/
theorem Runs.step_store (hruns : m.Runs (.block .store x))
    (hrange : m.regs.i.toNat + x.val + 1 ≤ 0x1000) (keys : Keypad) (now : Nanos) :
    m.step keys now = .done (m.stored x) := by
  have h : Memory.InRange m.ready.regs.i (x.val + 1) := hrange
  rw [hruns.step, execute, Rules.transfer_store_of_inRange _ _ h]
  rfl

/-- A block whose range exists is loaded by the step. -/
theorem Runs.step_load (hruns : m.Runs (.block .load x))
    (hrange : m.regs.i.toNat + x.val + 1 ≤ 0x1000) (keys : Keypad) (now : Nanos) :
    m.step keys now = .done (m.loaded x) := by
  have h : Memory.InRange m.ready.regs.i (x.val + 1) := hrange
  rw [hruns.step, execute, Rules.transfer_load_of_inRange _ _ h]
  rfl

@[simp] theorem get_stored (m : Machine) (x z : Reg) :
    (m.stored x).regs.get z = m.regs.get z :=
  m.ready.regs.get_passBlock m.variant.rules x z

/-- A stored block lies at the index, register by register. -/
theorem byteAt_stored (hrange : m.regs.i.toNat + x.val + 1 ≤ 0x1000) {z : Reg} (hz : z ≤ x) :
    (m.stored x).memory.byteAt (m.regs.i.toNat + z.val) = m.regs.get z := by
  have hle := Fin.le_def.mp hz
  have hcovers : m.regs.i.toNat ≤ m.regs.i.toNat + z.val ∧
      m.regs.i.toNat + z.val < m.regs.i.toNat + (m.regs.upTo x).length ∧
      m.regs.i.toNat + z.val < Memory.size := by
    rw [Registers.length_upTo]
    unfold Memory.size
    omega
  rw [stored, Memory.byteAt_overwrite, if_pos hcovers, Nat.add_sub_cancel_left,
    m.regs.getElem?_upTo x z hz, Option.getD_some]

/-- A stored block leaves the bytes outside its range alone. -/
theorem byteAt_stored_of_not_covered (m : Machine) {x : Reg} {a : Nat}
    (h : a < m.regs.i.toNat ∨ m.regs.i.toNat + x.val < a) :
    (m.stored x).memory.byteAt a = m.memory.byteAt a := by
  refine Memory.byteAt_overwrite_of_not_covered _ ?_
  rw [Registers.length_upTo]
  omega

/-- A load reaches the registers up to `x` and no others. -/
theorem get_loaded (m : Machine) (x z : Reg) :
    (m.loaded x).regs.get z =
      if z ≤ x then m.memory.byteAt (m.regs.i.toNat + z.val) else m.regs.get z := by
  rw [loaded, Registers.get_passBlock, Registers.get_setFrom, Memory.length_bytesFrom]
  by_cases hz : z ≤ x
  · have hle := Fin.le_def.mp hz
    rw [if_pos hz, if_pos (by omega), Memory.getElem?_bytesFrom _ _ (by omega)]
    rfl
  · have hlt : ¬ z.val ≤ x.val := hz
    rw [if_neg hz, if_neg (by omega)]
    rfl

/-- The bytes of the block that begins at the index are the registers up to `x`, and nothing else has
changed in memory or in the registers. -/
structure StoresBlock (m : Machine) (x : Reg) (o : Outcome Machine) : Prop where
  done : o.fault = none
  inside : ∀ z ≤ x, o.state.memory.byteAt (m.regs.i.toNat + z.val) = m.regs.get z
  outside : ∀ a, a < m.regs.i.toNat ∨ m.regs.i.toNat + x.val < a →
    o.state.memory.byteAt a = m.memory.byteAt a
  registers : ∀ z, o.state.regs.get z = m.regs.get z

/-- The registers up to `x` are the bytes of the block that begins at the index, and nothing else has
changed in the registers or in memory. -/
structure LoadsBlock (m : Machine) (x : Reg) (o : Outcome Machine) : Prop where
  done : o.fault = none
  inside : ∀ z ≤ x, o.state.regs.get z = m.memory.byteAt (m.regs.i.toNat + z.val)
  outside : ∀ z, x < z → o.state.regs.get z = m.regs.get z
  memory : o.state.memory = m.memory

/-- The index is past the block in a legacy machine, without having wrapped around, and where it was
in an extended one. -/
structure LeavesIndex (m : Machine) (x : Reg) (o : Outcome Machine) : Prop where
  legacy : m.variant = .legacy → o.state.regs.i.toNat = m.regs.i.toNat + x.val + 1
  extended : m.variant = .extended → o.state.regs.i = m.regs.i

/-- A step that stores a block changes what a store may change and no more. -/
theorem Runs.storesBlock (hruns : m.Runs (.block .store x))
    (hrange : m.regs.i.toNat + x.val + 1 ≤ 0x1000) (keys : Keypad) (now : Nanos) :
    m.StoresBlock x (m.step keys now) := by
  rw [hruns.step_store hrange]
  exact ⟨rfl, fun _ => byteAt_stored hrange, fun _ => m.byteAt_stored_of_not_covered,
    m.get_stored x⟩

/-- A step that loads a block changes what a load may change and no more. -/
theorem Runs.loadsBlock (hruns : m.Runs (.block .load x))
    (hrange : m.regs.i.toNat + x.val + 1 ≤ 0x1000) (keys : Keypad) (now : Nanos) :
    m.LoadsBlock x (m.step keys now) := by
  rw [hruns.step_load hrange]
  exact ⟨rfl, fun z hz => (m.get_loaded x z).trans (if_pos hz),
    fun z hz => (m.get_loaded x z).trans (if_neg (Fin.not_le.mpr hz)), rfl⟩

/-- The index moves past the block in the legacy variant only. -/
theorem leavesIndex_of_block {dir : Transfer} (hruns : m.Runs (.block dir x))
    (hrange : m.regs.i.toNat + x.val + 1 ≤ 0x1000) (keys : Keypad) (now : Nanos) :
    m.LeavesIndex x (m.step keys now) := by
  have h : Memory.InRange m.ready.regs.i (x.val + 1) := hrange
  have hindex : (m.step keys now).state.regs.i =
      (m.ready.regs.passBlock m.variant.rules x).i := by
    rw [hruns.step, index_execute]
    exact if_pos h
  refine ⟨fun hlegacy => ?_, fun hextended => ?_⟩
  · rw [hindex, hlegacy]
    exact Registers.toNat_i_passBlock rfl h
  · rw [hindex, hextended]
    rfl

/-- A load finds again what a store has put away, whatever else has changed in between. -/
theorem load_after_store {m' : Machine} {o : Outcome Machine} (hstores : m.StoresBlock x o)
    (hrange : m.regs.i.toNat + x.val + 1 ≤ 0x1000) (hruns : m'.Runs (.block .load x))
    (hindex : m'.regs.i = m.regs.i)
    (hkept : ∀ z ≤ x, m'.memory.byteAt (m.regs.i.toNat + z.val) =
      o.state.memory.byteAt (m.regs.i.toNat + z.val)) (keys : Keypad) (now : Nanos) :
    (m'.step keys now).fault = none ∧ ∀ z, (m'.step keys now).state.regs.get z =
      if z ≤ x then m.regs.get z else m'.regs.get z := by
  have hloads := hruns.loadsBlock (by rwa [hindex]) keys now
  refine ⟨hloads.done, fun z => ?_⟩
  split
  · next hz => rw [hloads.inside z hz, hindex, hkept z hz, hstores.inside z hz]
  · next hz => exact hloads.outside z (Fin.not_le.mp hz)

/-- A store puts what a load has found where it was, whatever else has changed in between. -/
theorem store_after_load {m' : Machine} {o : Outcome Machine} (hloads : m.LoadsBlock x o)
    (hrange : m.regs.i.toNat + x.val + 1 ≤ 0x1000) (hruns : m'.Runs (.block .store x))
    (hindex : m'.regs.i = m.regs.i) (hheld : ∀ z ≤ x, m'.regs.get z = o.state.regs.get z)
    (hkept : ∀ z ≤ x, m'.memory.byteAt (m.regs.i.toNat + z.val) =
      o.state.memory.byteAt (m.regs.i.toNat + z.val)) (keys : Keypad) (now : Nanos) :
    (m'.step keys now).fault = none ∧ (m'.step keys now).state.memory = m'.memory := by
  have hsame : m'.regs.upTo x = m'.memory.bytesFrom m'.regs.i.toNat (x.val + 1) := by
    refine Registers.upTo_eq_bytesFrom fun z hz => ?_
    rw [hheld z hz, hloads.inside z hz, hindex, hkept z hz, hloads.memory]
  rw [hruns.step_store (by rwa [hindex]) keys now]
  refine ⟨rfl, ?_⟩
  rw [Outcome.state_done, stored, hsame, Memory.overwrite_bytesFrom]

end

/-- Memory below the index is out of reach of whatever a step carries out. -/
theorem byteAt_step_of_lt_index {m : Machine} (keys : Keypad) (now : Nanos) {a : Nat}
    (h : a < m.regs.i.toNat) : (m.step keys now).state.memory.byteAt a = m.memory.byteAt a := by
  rcases m.step_cases keys now with ⟨-, hs⟩ | ⟨-, -, hs⟩ | ⟨i, -, -, hs⟩
  · rw [hs, Outcome.state_failed]
  · rw [hs]
    rfl
  · rw [hs]
    refine Classical.byContradiction fun hne => ?_
    rcases decimal_or_store_of_memory_ne (m := m.ready) hne with ⟨x, -, hle, -⟩ | ⟨x, -, hle, -⟩
    · exact absurd h (Nat.not_lt.mpr hle)
    · exact absurd h (Nat.not_lt.mpr hle)

end Machine

end ChipVM
