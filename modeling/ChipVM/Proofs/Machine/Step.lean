import ChipVM.Machine.Step
import ChipVM.Proofs.Table

/-!
# The three ways a step can go

A step finds no word, or a word without a meaning, or an instruction to carry out. Each way is one
equation with its guards, and they exclude each other: a proof about steps splits here and does not
look into the step again.
-/

namespace ChipVM

/-- Both pieces of work report the same, and the states that they leave are related. -/
structure Outcome.Related {σ : Type} (R : σ → σ → Prop) (o o' : Outcome σ) : Prop where
  fault : o'.fault = o.fault
  state : R o.state o'.state

namespace Machine

/-- The word at the program counter, high byte first. -/
def opcode (m : Machine) : Opcode := ⟨m.memory.wordAt m.regs.pc.toNat⟩

/-- The machine as an instruction finds it: past the instruction's own word and not waiting. -/
def ready (m : Machine) : Machine := { m.advance with awaitingKey := false }

@[simp] theorem stack_ready (m : Machine) : m.ready.stack = m.stack := rfl

/-- A whole word lies at the program counter exactly up to the last address but one. -/
theorem inRange_pc_iff {m : Machine} :
    Memory.InRange m.regs.pc 2 ↔ m.regs.pc.toNat ≤ 0xFFE := by
  simp only [Memory.InRange, Memory.size]
  omega

/-- A word that ends inside memory is fetched. -/
theorem fetch_of_le {m : Machine} (h : m.regs.pc.toNat ≤ 0xFFE) : m.fetch = .ok m.opcode := by
  rw [fetch, m.memory.readWord_of_inRange (inRange_pc_iff.mpr h)]
  rfl

/-- A word that ends outside is refused with the first address outside. -/
theorem fetch_of_lt {m : Machine} (h : 0xFFE < m.regs.pc.toNat) :
    m.fetch = .error (.outOfBounds (Memory.firstOutside m.regs.pc)) := by
  have hr : ¬ Memory.InRange m.regs.pc 2 := fun hr => by
    have hle := inRange_pc_iff.mp hr
    omega
  rw [fetch, m.memory.readWord_of_not_inRange hr]
  rfl

/-- A word is fetched exactly if a whole one lies at the program counter. -/
theorem fetch_eq_ok_iff {m : Machine} {op : Opcode} :
    m.fetch = .ok op ↔ m.regs.pc.toNat ≤ 0xFFE ∧ op = m.opcode := by
  by_cases h : m.regs.pc.toNat ≤ 0xFFE
  · rw [fetch_of_le h, Except.ok.injEq]
    exact ⟨fun he => ⟨h, he.symm⟩, fun he => he.2.symm⟩
  · rw [fetch_of_lt (by omega)]
    exact ⟨nofun, fun he => absurd he.1 h⟩

/-- A word that was put where the counter stands is the one to be fetched. -/
theorem fetch_of_overwrite {m : Machine} {memory : Memory} (high low : UInt8) {rest : List UInt8}
    (hpc : m.regs.pc.toNat ≤ 0xFFE)
    (hmemory : m.memory = memory.overwrite m.regs.pc.toNat (high :: low :: rest)) :
    m.fetch = .ok ⟨UInt16.ofNat (0x100 * high.toNat + low.toNat)⟩ := by
  have hbyte (k : Nat) (hk : k < 2) : m.memory.byteAt (m.regs.pc.toNat + k) =
      (high :: low :: rest)[k]?.getD 0 := by
    rw [hmemory, Memory.byteAt_overwrite, if_pos, Nat.add_sub_cancel_left]
    simp only [List.length_cons, Memory.size]
    omega
  have hhigh := hbyte 0 (by decide)
  rw [Nat.add_zero] at hhigh
  refine fetch_eq_ok_iff.mpr ⟨hpc, congrArg Opcode.mk ?_⟩
  rw [Memory.wordAt, hhigh, hbyte 1 (by decide)]
  rfl

/-- What comes next is what the word at the counter stands for. -/
theorem upcoming?_eq_some_iff {m : Machine} {i : Instruction Reg} :
    m.upcoming? = some i ↔ m.regs.pc.toNat ≤ 0xFFE ∧ Instruction.decode? m.opcode = some i := by
  by_cases h : m.regs.pc.toNat ≤ 0xFFE
  · simp [upcoming?, fetch_of_le h, h]
  · simp [upcoming?, fetch_of_lt (Nat.lt_of_not_le h), h]

/-- A step without a word changes nothing. -/
theorem step_of_outside {m : Machine} (keys : Keypad) (now : Nanos)
    (h : 0xFFE < m.regs.pc.toNat) :
    m.step keys now = .failed m (.outOfBounds (Memory.firstOutside m.regs.pc)) := by
  rw [step, fetch_of_lt h, Outcome.ask_error]

/-- A step with a word that stands for nothing only moves past it. -/
theorem step_of_undefined {m : Machine} (keys : Keypad) (now : Nanos)
    (h : m.regs.pc.toNat ≤ 0xFFE) (hd : Instruction.decode? m.opcode = none) :
    m.step keys now = .failed m.advance (.unimplemented m.opcode) := by
  rw [step, fetch_of_le h, Outcome.ask_ok, hd]

/-- Any other step carries out the instruction that the word stands for. -/
theorem step_of_decoded {m : Machine} (keys : Keypad) (now : Nanos) {i : Instruction Reg}
    (h : m.regs.pc.toNat ≤ 0xFFE) (hd : Instruction.decode? m.opcode = some i) :
    m.step keys now = m.ready.execute keys now i := by
  rw [step, fetch_of_le h, Outcome.ask_ok, hd]
  rfl

/-- Every step goes one of the three ways. -/
theorem step_cases (m : Machine) (keys : Keypad) (now : Nanos) :
    (0xFFE < m.regs.pc.toNat ∧
      m.step keys now = .failed m (.outOfBounds (Memory.firstOutside m.regs.pc))) ∨
    (m.regs.pc.toNat ≤ 0xFFE ∧ Instruction.decode? m.opcode = none ∧
      m.step keys now = .failed m.advance (.unimplemented m.opcode)) ∨
    ∃ i, m.regs.pc.toNat ≤ 0xFFE ∧ Instruction.decode? m.opcode = some i ∧
      m.step keys now = m.ready.execute keys now i := by
  rcases Nat.lt_or_ge 0xFFE m.regs.pc.toNat with h | h
  · exact Or.inl ⟨h, step_of_outside keys now h⟩
  · cases hd : Instruction.decode? m.opcode with
    | none => exact Or.inr (Or.inl ⟨h, rfl, step_of_undefined keys now h hd⟩)
    | some i => exact Or.inr (Or.inr ⟨i, h, rfl, step_of_decoded keys now h hd⟩)

/-- The next step carries out the instruction: a whole word lies at the program counter, and it
stands for the instruction. -/
def Runs (m : Machine) (i : Instruction Reg) : Prop := ∃ op, m.fetch = .ok op ∧ op.StandsFor i

/-- A machine runs an instruction if its word is inside and stands for it. -/
theorem runs_iff {m : Machine} {i : Instruction Reg} :
    m.Runs i ↔ m.regs.pc.toNat ≤ 0xFFE ∧ Instruction.decode? m.opcode = some i := by
  rw [Instruction.decode?_eq_some_iff]
  constructor
  · rintro ⟨op, hf, hi⟩
    obtain ⟨hpc, rfl⟩ := fetch_eq_ok_iff.mp hf
    exact ⟨hpc, hi⟩
  · rintro ⟨hpc, hi⟩
    exact ⟨m.opcode, fetch_of_le hpc, hi⟩

/-- A machine runs the instruction that comes next. -/
theorem runs_iff_upcoming? {m : Machine} {i : Instruction Reg} :
    m.Runs i ↔ m.upcoming? = some i := by
  rw [runs_iff, upcoming?_eq_some_iff]

instance (m : Machine) (i : Instruction Reg) : Decidable (m.Runs i) :=
  decidable_of_iff _ runs_iff_upcoming?.symm

/-- The word that is fetched stands for the instruction that is run. -/
theorem Runs.standsFor {m : Machine} {i : Instruction Reg} (h : m.Runs i) {op : Opcode}
    (hfetch : m.fetch = .ok op) : op.StandsFor i := by
  obtain ⟨op', hfetch', hi⟩ := h
  rw [hfetch] at hfetch'
  exact Except.ok.inj hfetch' ▸ hi

/-- No step carries out two instructions. -/
theorem Runs.unique {m : Machine} {i j : Instruction Reg} (hi : m.Runs i) (hj : m.Runs j) :
    i = j :=
  Option.some.inj ((runs_iff_upcoming?.mp hi).symm.trans (runs_iff_upcoming?.mp hj))

/-- A step carries out the instruction that is run. -/
theorem Runs.step {m : Machine} {i : Instruction Reg} (h : m.Runs i) (keys : Keypad)
    (now : Nanos) : m.step keys now = m.ready.execute keys now i := by
  obtain ⟨hpc, hd⟩ := runs_iff.mp h
  exact step_of_decoded keys now hpc hd

/-- A step that carries no instruction out fails, and has moved the program counter at most. -/
theorem step_of_not_runs {m : Machine} (h : ∀ i, ¬ m.Runs i) (keys : Keypad) (now : Nanos) :
    ∃ f, m.step keys now = .failed m f ∨ m.step keys now = .failed m.advance f := by
  rcases m.step_cases keys now with ⟨-, hs⟩ | ⟨-, -, hs⟩ | ⟨i, hpc, hd, -⟩
  · exact ⟨_, Or.inl hs⟩
  · exact ⟨_, Or.inr hs⟩
  · exact absurd (runs_iff.mpr ⟨hpc, hd⟩) (h i)

/-- A step that succeeds carries an instruction out. -/
theorem exists_runs_of_done {m : Machine} {keys : Keypad} {now : Nanos}
    (h : (m.step keys now).fault = none) : ∃ i, m.Runs i := by
  refine Classical.byContradiction fun hnone => ?_
  obtain ⟨f, hs | hs⟩ := step_of_not_runs (not_exists.mp hnone) keys now
  all_goals
    rw [hs] at h
    cases h

/-- Two machines with the same word at the same counter step alike, with whatever keys held and at
whatever time: they are related afterwards, if moving the counter keeps them related and carrying
out their instruction does. -/
theorem step_related {R : Machine → Machine → Prop} {a b : Machine} (keys keys' : Keypad)
    (now now' : Nanos) (hmemory : b.memory = a.memory) (hpc : b.regs.pc = a.regs.pc) (hstay : R a b)
    (hadvance : R a.advance b.advance)
    (hexecute : ∀ i, a.Runs i →
      (a.ready.execute keys now i).Related R (b.ready.execute keys' now' i)) :
    (a.step keys now).Related R (b.step keys' now') := by
  have hop : b.opcode = a.opcode := by rw [opcode, opcode, hmemory, hpc]
  rcases a.step_cases keys now with ⟨h, hs⟩ | ⟨h, hd, hs⟩ | ⟨i, h, hd, hs⟩
  · rw [hs, step_of_outside keys' now' (hpc ▸ h), hpc]
    exact ⟨rfl, hstay⟩
  · rw [hs, step_of_undefined keys' now' (hpc ▸ h) (hop ▸ hd), hop]
    exact ⟨rfl, hadvance⟩
  · rw [hs, step_of_decoded keys' now' (hpc ▸ h) (hop ▸ hd)]
    exact hexecute i (runs_iff.mpr ⟨h, hd⟩)

/-- Drawing changes the display and the data registers at most, whether or not it is refused. -/
theorem drawSprite_state (m : Machine) (x y : Reg) (n : UInt8) :
    ∃ display regs, regs.pc = m.regs.pc ∧
      (m.drawSprite x y n).state = { m with display, regs } := by
  by_cases h : Memory.InRange m.regs.i n.toNat
  · rw [drawSprite, m.memory.read_of_inRange h, Outcome.ask_ok]
    exact ⟨_, m.regs.setFlag _, rfl, rfl⟩
  · rw [drawSprite, m.memory.read_of_not_inRange h]
    exact ⟨m.display, m.regs, rfl, rfl⟩

/-- Asking for a key changes the registers and the wait for a key at most. -/
theorem takeKey_eq (m : Machine) (keys : Keypad) (x : Reg) :
    ∃ regs awaitingKey, m.takeKey keys x = { m with regs, awaitingKey } := by
  unfold takeKey
  cases keys.first? with
  | none => exact ⟨_, _, rfl⟩
  | some key => exact ⟨_, m.awaitingKey, rfl⟩

/-- Moving on from a word that was fetched does not wrap around. -/
theorem toNat_pc_advance {m : Machine} (h : m.regs.pc.toNat ≤ 0xFFFD) :
    m.advance.regs.pc.toNat = m.regs.pc.toNat + 2 := by
  simp only [advance, withRegs, Registers.skip, UInt16.toNat_add, UInt16.reduceToNat]
  omega

end Machine

end ChipVM
