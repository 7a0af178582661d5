import ChipVM.Proofs.Machine.Atomicity
import ChipVM.Proofs.Session.Faults

/-!
# What the variants agree on

Outside four families of instructions a step does not look at the variant, so changing the variant
before the step or after it comes to the same. An instruction of these families that is refused has
changed nothing, under either variant. When one gets done, the two results differ in the flag, in
the shifted register and the flag, in the program counter or in the index, and in nothing else.
-/

namespace ChipVM

/-- The instruction is of a family that the variants may disagree on. -/
def Instruction.disputed {ρ : Type} : Instruction ρ → Bool
  | .logic .. | .shift .. | .jumpOffset .. | .block .. => true
  | _ => false

namespace Registers

/-- What was in a register and in the flag is lost if both are written again. -/
theorem setWithFlag_set_set (r : Registers) (x : Reg) (a b : UInt8) (c d : Bool) :
    ((r.setWithFlag x a c).set x b).set Reg.flag (flagByte d) = r.setWithFlag x b d := by
  refine ext_get (fun z => ?_) rfl rfl
  simp only [get_set, get_setWithFlag]
  by_cases hf : Reg.flag = z
  · rw [if_pos hf, if_pos hf]
  · rw [if_neg hf, if_neg hf, if_neg hf]
    by_cases hx : x = z
    · rw [if_pos hx, if_pos hx]
    · rw [if_neg hx, if_neg hx, if_neg hx]

/-- Two rules for shifts can come to different results in the register and in the flag alone. -/
theorem shift_eq_set_set (rules rules' : Rules) (r : Registers) (dir : Shift) (x y : Reg) :
    ∃ b c, r.shift rules' dir x y = ((r.shift rules dir x y).set x b).set Reg.flag c :=
  ⟨_, _, (setWithFlag_set_set r x _ _ _ _).symm⟩

/-- It makes no difference which of two equal bytes is shifted. -/
theorem shift_eq_of_get_eq {r : Registers} {x y : Reg} (h : r.get x = r.get y)
    (rules rules' : Rules) (dir : Shift) : r.shift rules' dir x y = r.shift rules dir x y := by
  have hsame : ∀ b : Bool, r.get (if b then y else x) = r.get x := by
    intro b
    cases b
    · rfl
    · exact h.symm
  simp only [shift, hsame]

/-- Passing a block of memory does not wrap around. -/
theorem toNat_i_passBlock {rules : Rules} (hrules : rules.blockMovesIndex = true) {r : Registers}
    {x : Reg} (h : Memory.InRange r.i (x.val + 1)) :
    (r.passBlock rules x).i.toNat = r.i.toNat + (x.val + 1) := by
  have hx := x.isLt
  simp only [Memory.InRange, Memory.size] at h
  simp only [passBlock, hrules, if_true, UInt16.toNat_add, UInt16.toNat_ofNat']
  omega

end Registers

/-- What a block transfer moves does not depend on the rules, only what it does to the index. -/
theorem Rules.transfer_of_inRange {r : Registers} {x : Reg} (m : Memory) (dir : Transfer)
    (h : Memory.InRange r.i (x.val + 1)) :
    ∃ (r' : Registers) (m' : Memory), r'.i = r.i ∧
      ∀ rules : Rules, rules.transfer r m x dir = .done (r'.passBlock rules x, m') := by
  cases dir with
  | store => exact ⟨r, _, rfl, fun rules => rules.transfer_store_of_inRange m h⟩
  | load => exact ⟨_, m, r.i_setFrom _ _, fun rules => rules.transfer_load_of_inRange m h⟩

namespace Machine

/-- The same machine of another variant. -/
def withVariant (m : Machine) (v : Variant) : Machine := { m with variant := v }

/-- The next step gets an instruction done that the variants may disagree on. -/
def Disputes (m : Machine) (keys : Keypad) (now : Nanos) : Prop :=
  ∃ i, m.Runs i ∧ i.disputed = true ∧ (m.step keys now).fault = none

/-- What stands in the way of an instruction is the same in both variants. -/
theorem obstacle_withVariant (m : Machine) (v : Variant) (i : Instruction Reg) :
    (m.withVariant v).obstacle i = m.obstacle i := by
  cases i <;> rfl

/-- An instruction with an obstacle stops there and leaves the machine as it is. -/
theorem execute_of_obstacle {m : Machine} {i : Instruction Reg} {f : Fault}
    (h : m.obstacle i = some f) (keys : Keypad) (now : Nanos) :
    m.execute keys now i = .failed m f := by
  have hf : (m.execute keys now i).fault = some f := (m.fault_execute keys now i).trans h
  have hs := m.atomic_execute keys now i (by rw [hf]; exact Option.some_ne_none f)
  calc m.execute keys now i
      = ⟨(m.execute keys now i).state, (m.execute keys now i).fault⟩ := rfl
    _ = .failed m f := by rw [hf, hs]; rfl

/-- Drawing is the same in both variants. -/
theorem drawSprite_withVariant (m : Machine) (v : Variant) (x y : Reg) (n : UInt8) :
    (m.withVariant v).drawSprite x y n = (m.drawSprite x y n).within (·.withVariant v) := by
  unfold drawSprite withVariant
  cases m.memory.read m.regs.i n.toNat <;> rfl

/-- The wait for a key is the same in both variants. -/
theorem takeKey_withVariant (m : Machine) (v : Variant) (keys : Keypad) (x : Reg) :
    (m.withVariant v).takeKey keys x = (m.takeKey keys x).withVariant v := by
  unfold takeKey
  cases keys.first? <;> rfl

/-- Undisputed instructions do not look at the variant. -/
theorem execute_withVariant (m : Machine) (v : Variant) (keys : Keypad) (now : Nanos)
    {i : Instruction Reg} (hi : i.disputed = false) :
    (m.withVariant v).execute keys now i =
      (m.execute keys now i).within (·.withVariant v) := by
  cases i with
  | logic | shift | jumpOffset | block => cases hi
  | ret => cases hs : m.stack <;> simp [execute, withVariant, hs]
  | call target =>
    by_cases h : stackLimit ≤ m.stack.length <;> simp [execute, withVariant, h]
  | draw x y n => exact m.drawSprite_withVariant v x y n
  | awaitKey x => exact congrArg Outcome.done (m.takeKey_withVariant v keys x)
  | _ => rfl

/-- A step in which nothing disputed gets done comes to the same under another variant. -/
theorem step_withVariant {m : Machine} (v : Variant) {keys : Keypad} {now : Nanos}
    (h : ¬ m.Disputes keys now) :
    (m.step keys now).Related (fun a b => b = a.withVariant v) ((m.withVariant v).step keys now) := by
  refine step_related keys keys now now rfl rfl rfl rfl fun i hi => ?_
  cases hdis : i.disputed with
  | false =>
    have hex : (m.withVariant v).ready.execute keys now i = _ :=
      m.ready.execute_withVariant v keys now hdis
    rw [hex]
    exact ⟨rfl, rfl⟩
  | true =>
    cases hf : m.ready.obstacle i with
    | none => exact absurd ⟨i, hi, hdis, by rw [hi.step, fault_execute, hf]⟩ h
    | some f =>
      have hv : (m.withVariant v).ready.obstacle i = some f :=
        (m.ready.obstacle_withVariant v i).trans hf
      rw [execute_of_obstacle hf, execute_of_obstacle hv]
      exact ⟨rfl, rfl⟩

/-- Both variants report the same, whatever they run. -/
theorem fault_step_withVariant (m : Machine) (v : Variant) (keys : Keypad) (now : Nanos) :
    ((m.withVariant v).step keys now).fault = (m.step keys now).fault := by
  have hsame := step_related (R := fun _ _ => True) (a := m) (b := m.withVariant v) keys keys now
    now rfl rfl trivial trivial fun i _ => ⟨?_, trivial⟩
  · exact hsame.fault
  · rw [fault_execute, fault_execute]
    exact m.ready.obstacle_withVariant v i

/-- How the outcome `e` of an extended machine's step stands to the outcome `l` of a legacy
machine's step, if both start in the state of `m`. -/
structure VariantsCompare (m : Machine) (l e : Outcome Machine) : Prop where
  /-- Both report the same. -/
  fault : e.fault = l.fault
  /-- After `8xy1`, `8xy2` and `8xy3` the extended machine has cleared the flag. The legacy machine's
  flag is untouched, unless the result itself went there. -/
  logic : ∀ how x y, m.Runs (.logic how x y) →
    e.state = (l.state.withRegs (l.state.regs.set Reg.flag 0)).withVariant .extended ∧
    l.state.regs.get Reg.flag =
      if x = Reg.flag then how.apply (m.regs.get x) (m.regs.get y) else m.regs.get Reg.flag
  /-- After `8xy6` and `8xyE` only the shifted register and the flag can differ, and they do not if
  `x` and `y` held the same. -/
  shift : ∀ dir x y, m.Runs (.shift dir x y) →
    (∃ b c, e.state =
      (l.state.withRegs ((l.state.regs.set x b).set Reg.flag c)).withVariant .extended) ∧
    (m.regs.get x = m.regs.get y → e.state = l.state.withVariant .extended)
  /-- After `Bxnn` only the counter can differ: one adds `V0`, the other `Vx`. -/
  jumpOffset : ∀ x base, m.Runs (.jumpOffset x base) →
    e.state = { l.state with variant := .extended, regs.pc := e.state.regs.pc } ∧
    l.state.regs.pc.toNat = base.toNat + (m.regs.get Reg.first).toNat ∧
    e.state.regs.pc.toNat = base.toNat + (m.regs.get x).toNat
  /-- After `Fx55` and `Fx65`, if they get done, the index and nothing else differs. -/
  block : ∀ dir x, m.Runs (.block dir x) → l.fault = none →
    e.state = { l.state with variant := .extended, regs.i := e.state.regs.i } ∧
    l.state.regs.i.toNat = e.state.regs.i.toNat + (x.val + 1)
  /-- In all other cases nothing differs. -/
  other : (¬ ∃ i, m.Runs i ∧ i.disputed = true ∧ l.fault = none) →
    e.state = l.state.withVariant .extended

/-- A block transfer that gets done has all its bytes in memory. -/
theorem inRange_of_block {m : Machine} {keys : Keypad} {now : Nanos} {dir : Transfer} {x : Reg}
    (h : (m.execute keys now (.block dir x)).fault = none) :
    Memory.InRange m.regs.i (x.val + 1) := by
  rw [fault_execute, obstacle, shortfall] at h
  by_cases hr : Memory.InRange m.regs.i (x.val + 1)
  · exact hr
  · rw [if_neg hr] at h
    cases h

/-- A block transfer that gets done does the same under both variants but for the index. -/
theorem execute_block_withVariant {m : Machine} (dir : Transfer) {x : Reg}
    (h : Memory.InRange m.regs.i (x.val + 1)) (keys : Keypad) (now : Nanos) :
    ∃ (r : Registers) (mem : Memory), r.i = m.regs.i ∧
      ∀ v, (m.withVariant v).execute keys now (.block dir x) =
        .done { m with variant := v, regs := r.passBlock v.rules x, memory := mem } := by
  obtain ⟨r, mem, hindex, hmove⟩ := Rules.transfer_of_inRange m.memory dir h
  refine ⟨r, mem, hindex, fun v => ?_⟩
  have hv : (m.withVariant v).variant.rules.transfer (m.withVariant v).regs
      (m.withVariant v).memory x dir = .done (r.passBlock v.rules x, mem) := hmove v.rules
  rw [execute, hv]
  rfl

/-- The two variants compare so after a step from every state. -/
theorem variantsCompare_step (m : Machine) (keys : Keypad) (now : Nanos) :
    m.VariantsCompare ((m.withVariant .legacy).step keys now)
      ((m.withVariant .extended).step keys now) where
  fault := (m.withVariant .legacy).fault_step_withVariant .extended keys now
  logic how x y hi := by
    have hl : (m.withVariant .legacy).Runs (.logic how x y) := hi
    have he : (m.withVariant .extended).Runs (.logic how x y) := hi
    rw [hl.step, he.step]
    refine ⟨rfl, ?_⟩
    exact Registers.get_set m.ready.regs x Reg.flag (how.apply (m.regs.get x) (m.regs.get y))
  shift dir x y hi := by
    have hl : (m.withVariant .legacy).Runs (.shift dir x y) := hi
    have he : (m.withVariant .extended).Runs (.shift dir x y) := hi
    rw [hl.step, he.step]
    constructor
    · obtain ⟨b, c, h⟩ := m.ready.regs.shift_eq_set_set Variant.legacy.rules
        Variant.extended.rules dir x y
      exact ⟨b, c, congrArg (m.ready.withVariant .extended).withRegs h⟩
    · intro hsame
      exact congrArg (m.ready.withVariant .extended).withRegs
        (Registers.shift_eq_of_get_eq (r := m.ready.regs) hsame _ _ dir)
  jumpOffset x base hi := by
    have hl : (m.withVariant .legacy).Runs (.jumpOffset x base) := hi
    have he : (m.withVariant .extended).Runs (.jumpOffset x base) := hi
    have hpc := toNat_jumpOffset (runs_iff_upcoming?.mp hi)
    rw [hl.step, he.step]
    exact ⟨rfl, hpc Variant.legacy.rules, hpc Variant.extended.rules⟩
  block dir x hi hok := by
    have hl : (m.withVariant .legacy).Runs (.block dir x) := hi
    have he : (m.withVariant .extended).Runs (.block dir x) := hi
    rw [hl.step] at hok ⊢
    rw [he.step]
    have hrange : Memory.InRange m.ready.regs.i (x.val + 1) :=
      inRange_of_block (m := (m.withVariant .legacy).ready) hok
    obtain ⟨r, mem, hindex, hmove⟩ := execute_block_withVariant dir hrange keys now
    have hlegacy : (m.withVariant .legacy).ready.execute keys now (.block dir x) = _ :=
      hmove .legacy
    have hextended : (m.withVariant .extended).ready.execute keys now (.block dir x) = _ :=
      hmove .extended
    rw [hlegacy, hextended]
    exact ⟨rfl, Registers.toNat_i_passBlock rfl (hindex ▸ hrange)⟩
  other h := by
    have hdis : ¬ (m.withVariant .legacy).Disputes keys now := h
    exact (step_withVariant (m := m.withVariant .legacy) .extended hdis).state

end Machine

end ChipVM
