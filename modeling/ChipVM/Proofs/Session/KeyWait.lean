import ChipVM.Proofs.Machine.Control
import ChipVM.Session

/-!
# The wait for a key

An instruction that is carried out settles whether the machine waits for a key. A step that reaches
no instruction leaves that as it was. Without interference a machine that waits stands at the
instruction that it waits in, so it always reaches one; only a program that is loaded meanwhile can
put a word without meaning in its way, and then the wait outlives the step.
-/

namespace ChipVM

/-- The instruction is the one that waits for a key. -/
def Instruction.isAwaitKey {ρ : Type} : Instruction ρ → Bool
  | .awaitKey _ => true
  | _ => false

namespace Machine

/-- Drawing leaves the wait for a key alone. -/
theorem awaitingKey_drawSprite (m : Machine) (x y : Reg) (n : UInt8) :
    (m.drawSprite x y n).state.awaitingKey = m.awaitingKey := by
  obtain ⟨display, regs, -, h⟩ := m.drawSprite_state x y n
  rw [h]

/-- A machine without a key to take waits. -/
theorem awaitingKey_takeKey (m : Machine) (keys : Keypad) (x : Reg) :
    (m.takeKey keys x).awaitingKey = (keys.first?.isNone || m.awaitingKey) := by
  cases hk : keys.first? <;> simp [takeKey, hk, withRegs]

/-- One instruction starts a wait, and only if no key is held. -/
theorem awaitingKey_execute (m : Machine) (keys : Keypad) (now : Nanos) (i : Instruction Reg) :
    (m.execute keys now i).state.awaitingKey =
      (i.isAwaitKey && keys.first?.isNone || m.awaitingKey) := by
  cases i with
  | ret => cases hs : m.stack <;> simp [execute, Instruction.isAwaitKey, hs]
  | call target =>
    by_cases h : stackLimit ≤ m.stack.length <;> simp [execute, Instruction.isAwaitKey, h]
  | draw x y n => exact m.awaitingKey_drawSprite x y n
  | awaitKey x => exact m.awaitingKey_takeKey keys x
  | _ => rfl

/-- Waiting in place undoes what fetching has done to the program counter. -/
theorem takeKey_ready_of_none (m : Machine) {keys : Keypad} (h : keys.first? = none) (x : Reg) :
    m.ready.takeKey keys x = { m with awaitingKey := true } := by
  have hpc : m.regs.pc + 2 - 2 = m.regs.pc := UInt16.add_sub_cancel ..
  simp only [takeKey, h, ready, advance, withRegs, Registers.skip, hpc]

/-- A machine that waits stands at the instruction that it waits in. -/
def Parked (m : Machine) : Prop := m.awaitingKey = true → ∃ x, m.Runs (.awaitKey x)

end Machine

namespace Session

/-- The next step waits for a key: it carries out `Fx0A` while no key is held. -/
def WaitsForKey (s : Session) : Prop :=
  (∃ x, s.machine.Runs (.awaitKey x)) ∧ ∀ key, s.keys.isHeld key = false

/-- In the course of the history a program is loaded into the machine while it waits for a key. -/
def LoadedWhileWaiting (s : Session) (events : List Event) : Prop :=
  ∃ before p after, events = before ++ .load p :: after ∧
    (s.run before).machine.awaitingKey = true

/-- A step that carries an instruction out leaves the machine waiting exactly if it waits itself. -/
theorem awaitingKey_step_of_runs {s : Session} {i : Instruction Reg} (hi : s.machine.Runs i) :
    s.step.machine.awaitingKey = true ↔ s.WaitsForKey := by
  have hstep : s.step.machine.awaitingKey = (i.isAwaitKey && s.keys.first?.isNone) := by
    rw [step, outcome, hi.step, Machine.awaitingKey_execute]
    exact Bool.or_false _
  have hawait : i.isAwaitKey = true ↔ ∃ x, s.machine.Runs (.awaitKey x) := by
    constructor
    · intro h
      cases i with
      | awaitKey x => exact ⟨x, hi⟩
      | _ => cases h
    · rintro ⟨x, hx⟩
      rw [hi.unique hx]
      rfl
  rw [hstep, Bool.and_eq_true, hawait, Option.isNone_iff_eq_none, Keypad.first?_eq_none_iff]
  exact Iff.rfl

/-- A step that reaches no instruction leaves a wait as it is. -/
theorem awaitingKey_step_of_not_runs {s : Session} (h : ∀ i, ¬ s.machine.Runs i) :
    s.step.machine.awaitingKey = s.machine.awaitingKey := by
  rw [step, outcome]
  obtain ⟨f, hs | hs⟩ := Machine.step_of_not_runs h s.keys s.now
  all_goals
    rw [hs]
    rfl

/-- After a step the machine waits for a key if the step did, or if it waited before and the step
reached no instruction. -/
theorem awaitingKey_step_iff (s : Session) :
    s.step.machine.awaitingKey = true ↔
      s.WaitsForKey ∨ s.machine.awaitingKey = true ∧ ∀ i, ¬ s.machine.Runs i := by
  by_cases hrun : ∃ i, s.machine.Runs i
  · obtain ⟨i, hi⟩ := hrun
    rw [awaitingKey_step_of_runs hi]
    exact (or_iff_left fun h => h.2 i hi).symm
  · have hnone : ∀ i, ¬ s.machine.Runs i := fun i hi => hrun ⟨i, hi⟩
    rw [awaitingKey_step_of_not_runs hnone, and_iff_left hnone]
    exact (or_iff_right fun h => h.1.elim fun x hx => hnone _ hx).symm

/-- A parked machine that waits after a step is still at the same instruction. -/
theorem parked_step {s : Session} (hs : s.machine.Parked) : s.step.machine.Parked := by
  intro hwait
  rcases s.awaitingKey_step_iff.mp hwait with ⟨⟨x, hx⟩, hkeys⟩ | ⟨hold, hnone⟩
  · refine ⟨x, ?_⟩
    rw [step, outcome, hx.step, Machine.execute,
      s.machine.takeKey_ready_of_none (Keypad.first?_eq_none_iff.mpr hkeys) x]
    exact hx
  · obtain ⟨x, hx⟩ := hs hold
    exact absurd hx (hnone _)

/-- Only loading a program can take a machine away from the instruction that it waits in. -/
theorem parked_run {s : Session} {events : List Event} (hs : s.machine.Parked)
    (hload : ¬ s.LoadedWhileWaiting events) : (s.run events).machine.Parked := by
  induction events generalizing s with
  | nil => exact hs
  | cons e es ih =>
    have hrest : ¬ (s.apply e).LoadedWhileWaiting es := by
      rintro ⟨before, p, after, rfl, hwait⟩
      exact hload ⟨e :: before, p, after, rfl, hwait⟩
    refine ih ?_ hrest
    cases e with
    | load p =>
      intro hwait
      rw [apply, Machine.load_eq_done] at hwait
      exact absurd ⟨[], p, es, rfl, hwait⟩ hload
    | step => exact parked_step hs
    | key change => exact hs
    | wait time => exact hs

/-- After every history and one more step, the machine waits for a key exactly if that step carried
out `Fx0A` with no key held, or if it waited before and the step reached no instruction. The second
comes about only if a program was loaded while the machine waited. -/
theorem awaitingKey_after_step_iff (variant : Variant) (random : RandomStream) (keys : Keypad)
    (now : Nanos) (events : List Event) :
    let s := (switchedOn variant random keys now).run events
    (s.step.machine.awaitingKey = true ↔
      s.WaitsForKey ∨ s.machine.awaitingKey = true ∧ ∀ i, ¬ s.machine.Runs i) ∧
    ((s.machine.awaitingKey = true ∧ ∀ i, ¬ s.machine.Runs i) →
      (switchedOn variant random keys now).LoadedWhileWaiting events) := by
  intro s
  refine ⟨s.awaitingKey_step_iff, fun ⟨hwait, hnone⟩ => Classical.byContradiction fun hload => ?_⟩
  obtain ⟨x, hx⟩ := parked_run (s := switchedOn variant random keys now) nofun hload hwait
  exact hnone _ hx

/-- A machine that waited for a key when a program was loaded that begins with a word without
meaning. -/
def reloadedWait : Session :=
  (initial .legacy (RandomStream.ofSeed 8)).run
    [.load ⟨[0xF0, 0x0A], by decide⟩, .step, .load ⟨[0xE0, 0xFF], by decide⟩]

/-- That a machine waits for a key does not always tell that its last step did. -/
theorem wait_outlives_step :
    reloadedWait.step.machine.awaitingKey = true ∧ ¬ reloadedWait.WaitsForKey := by
  have hnone : reloadedWait.machine.upcoming? = none := by decide +kernel
  refine ⟨by decide +kernel, ?_⟩
  rintro ⟨⟨x, hx⟩, -⟩
  exact Option.some_ne_none _ ((Machine.runs_iff_upcoming?.mp hx).symm.trans hnone)

end Session

end ChipVM
