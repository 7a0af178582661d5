import ChipVM.Proofs.Session.KeyWait
import ChipVM.Proofs.Session.Trace

/-!
# Waiting changes nothing

A machine at `Fx0A` stays there, step after step, as long as no key is held when it steps, and
nothing but the note that it waits tells how often it has stepped. The first step that finds keys
held takes the lowest and goes on. What happens to the keys between two steps does not count.
-/

namespace ChipVM

namespace Machine

/-- Waiting in place. -/
theorem step_awaitKey_of_none {m : Machine} {x : Reg} (hwait : m.Runs (.awaitKey x))
    {keys : Keypad} (hkeys : keys.first? = none) (now : Nanos) :
    m.step keys now = .done { m with awaitingKey := true } := by
  rw [hwait.step, execute, m.takeKey_ready_of_none hkeys x]

/-- Taking a key and going on. -/
theorem step_awaitKey_of_some {m : Machine} {x : Reg} (hwait : m.Runs (.awaitKey x))
    {keys : Keypad} {key : UInt8} (hkeys : keys.first? = some key) (now : Nanos) :
    m.step keys now = .done { m with
      regs := { m.regs.set x key with pc := m.advance.regs.pc }
      awaitingKey := false } := by
  rw [hwait.step, execute, takeKey, hkeys]
  rfl

/-- At `Fx0A` a step depends on the time in no way, and on the keys through the lowest held one. -/
theorem step_awaitKey_congr {m : Machine} {x : Reg} (hwait : m.Runs (.awaitKey x))
    {keys keys' : Keypad} (hkeys : keys.first? = keys'.first?) (now now' : Nanos) :
    m.step keys now = m.step keys' now' := by
  rw [hwait.step, hwait.step, execute, execute, takeKey, takeKey, hkeys]

end Machine

namespace Session

/-- An idle history does nothing to a machine at `Fx0A` but note that it waits. -/
theorem machine_run_of_idle {s : Session} {x : Reg} (hwait : s.machine.Runs (.awaitKey x))
    {events : List Event} (hload : ∀ p, .load p ∉ events)
    (hkeys : ∀ n < events.length, events[n]? = some .step →
      ∀ key, (s.run (events.take n)).keys.isHeld key = false) :
    (s.run events).machine =
      { s.machine with awaitingKey := decide (.step ∈ events) || s.machine.awaitingKey } := by
  induction events generalizing s with
  | nil => rfl
  | cons e es ih =>
    have hload' : ∀ p, .load p ∉ es := fun p hp => hload p (List.mem_cons_of_mem e hp)
    have hkeys' := steps_tail (P := fun u => ∀ key, u.keys.isHeld key = false) hkeys
    by_cases he : e = .step
    · subst he
      have hnone : s.keys.first? = none :=
        Keypad.first?_eq_none_iff.mpr (hkeys 0 (Nat.succ_pos _) rfl)
      have hstay : (s.apply .step).machine = { s.machine with awaitingKey := true } := by
        rw [apply, step, outcome, Machine.step_awaitKey_of_none hwait hnone]
        rfl
      rw [run_cons, ih (hstay ▸ hwait) hload' hkeys', hstay]
      simp
    · have houter : e.isInner = false := by
        cases e with
        | load p => exact absurd List.mem_cons_self (hload p)
        | step => exact absurd rfl he
        | key | wait => rfl
      have hstay := s.machine_apply_of_outer houter
      rw [run_cons, ih (hstay ▸ hwait) hload' hkeys', hstay]
      simp [Ne.symm he]

/-- After an idle history the machine still stands at `Fx0A`. -/
theorem runs_of_idle {s : Session} {x : Reg} (hwait : s.machine.Runs (.awaitKey x))
    {events : List Event} (hload : ∀ p, .load p ∉ events)
    (hkeys : ∀ n < events.length, events[n]? = some .step →
      ∀ key, (s.run (events.take n)).keys.isHeld key = false) :
    (s.run events).machine.Runs (.awaitKey x) := by
  rw [machine_run_of_idle hwait hload hkeys]
  exact hwait

/-- After an idle history one more step without a key is idle too. -/
theorem outcome_of_idle {s : Session} {x : Reg} (hwait : s.machine.Runs (.awaitKey x))
    {events : List Event} (hload : ∀ p, .load p ∉ events)
    (hkeys : ∀ n < events.length, events[n]? = some .step →
      ∀ key, (s.run (events.take n)).keys.isHeld key = false)
    (hnone : ∀ key, (s.run events).keys.isHeld key = false) :
    (s.run events).outcome = .done { s.machine with awaitingKey := true } := by
  have hthere := runs_of_idle hwait hload hkeys
  have hfirst := Keypad.first?_eq_none_iff.mpr hnone
  rw [outcome, Machine.step_awaitKey_of_none hthere hfirst, machine_run_of_idle hwait hload hkeys]

/-- Let a machine stand at `Fx0A` and let any history follow without a load and without a step that
finds a key held. Then every one of its steps succeeds, and the machine is as it was, but for the
note that it waits if a step was taken. If no key is held now, another step does the same; if one
is, the next step succeeds, puts the lowest held key into the register, moves the counter on by two,
ends the wait and changes nothing else. And whatever keys are pressed and released before that step,
it comes to the same if in the end the same keys are held. -/
theorem waits_until_key_is_held {s : Session} {x : Reg} (hwait : s.machine.Runs (.awaitKey x))
    {events : List Event} (hload : ∀ p, .load p ∉ events)
    (hkeys : ∀ n < events.length, events[n]? = some .step →
      ∀ key, (s.run (events.take n)).keys.isHeld key = false) :
    let t := s.run events
    t.machine =
      { s.machine with awaitingKey := decide (.step ∈ events) || s.machine.awaitingKey } ∧
    (∀ n < events.length, events[n]? = some .step →
      (s.run (events.take n)).outcome = .done { s.machine with awaitingKey := true }) ∧
    ((∀ key, t.keys.isHeld key = false) →
      t.outcome = .done { s.machine with awaitingKey := true }) ∧
    (∀ held, t.keys.isHeld held = true →
      ∃ key pc, t.keys.isHeld key = true ∧ (∀ k < key, t.keys.isHeld k = false) ∧
        pc.toNat = s.machine.regs.pc.toNat + 2 ∧
        t.outcome = .done { s.machine with
          regs := { s.machine.regs.set x key with pc := pc }
          awaitingKey := false }) ∧
    ∀ between, (∀ e ∈ between, e.isInner = false) →
      (∀ key, (t.run between).keys.isHeld key = t.keys.isHeld key) →
      (t.run between).machine = t.machine ∧ (t.run between).outcome = t.outcome := by
  intro t
  have hidle := machine_run_of_idle hwait hload hkeys
  have hthere : t.machine.Runs (.awaitKey x) := runs_of_idle hwait hload hkeys
  refine ⟨hidle, fun n hn hstep => ?_, outcome_of_idle hwait hload hkeys, fun held hheld => ?_,
    fun between houter hsame => ?_⟩
  · have hload' : ∀ p, .load p ∉ events.take n := fun p hp => hload p (List.mem_of_mem_take hp)
    have hkeys' := steps_take (P := fun u => ∀ key, u.keys.isHeld key = false) hkeys n
    exact outcome_of_idle hwait hload' hkeys' (hkeys n hn hstep)
  · cases hfirst : t.keys.first? with
    | none =>
      rw [Keypad.first?_eq_none_iff.mp hfirst held] at hheld
      cases hheld
    | some key =>
      obtain ⟨hkey, hlowest⟩ := Keypad.first?_eq_some_iff.mp hfirst
      have hfetched := (Machine.runs_iff.mp hwait).1
      have hpc := Machine.toNat_pc_advance (m := s.machine) (by omega)
      refine ⟨key, s.machine.advance.regs.pc, hkey, hlowest, hpc, ?_⟩
      rw [outcome, Machine.step_awaitKey_of_some hthere hfirst, hidle]
      rfl
  · have hmachine : (t.run between).machine = t.machine := t.machine_run_of_outer houter
    have hkeypad : (t.run between).keys = t.keys := Keypad.ext_isHeld hsame
    refine ⟨hmachine, ?_⟩
    rw [outcome, outcome, hmachine, hkeypad]
    exact Machine.step_awaitKey_congr hthere rfl _ _

/-- A program that stores `F30A` at the last word of memory and jumps there. -/
def waitAtEnd : Program :=
  ⟨[0x60, 0xF3, 0x61, 0x0A, 0xAF, 0xFE, 0xF1, 0x55, 0x1F, 0xFE], by decide⟩

/-- The program arrived at the word that it has stored. -/
def endWaiter : Session :=
  (initial .extended (RandomStream.ofSeed 8)).run
    [.load waitAtEnd, .step, .step, .step, .step, .step]

/-- Two steps without a key, one pressed and released between them, and then two keys held. -/
def endWaiterHistory : List Event :=
  [.step, .key (.press 5), .wait 9, .key (.release 5), .step, .key (.press 12), .key (.press 9)]

/-- A machine that waits at the last word of memory takes the lowest key that is held and goes on.
-/
theorem endWaiter_takes_key :
    endWaiter.machine.Runs (.awaitKey 3) ∧ (∀ p, .load p ∉ endWaiterHistory) ∧
    (∀ n < endWaiterHistory.length, endWaiterHistory[n]? = some .step →
      ∀ key, (endWaiter.run (endWaiterHistory.take n)).keys.isHeld key = false) ∧
    (endWaiter.run endWaiterHistory).keys.isHeld 12 = true ∧
    ∃ key pc, (endWaiter.run endWaiterHistory).keys.isHeld key = true ∧
      (∀ k < key, (endWaiter.run endWaiterHistory).keys.isHeld k = false) ∧
      pc.toNat = endWaiter.machine.regs.pc.toNat + 2 ∧
      (endWaiter.run endWaiterHistory).outcome = .done { endWaiter.machine with
        regs := { endWaiter.machine.regs.set 3 key with pc := pc }
        awaitingKey := false } := by
  have hwait : endWaiter.machine.Runs (.awaitKey 3) := by decide +kernel
  have hload : ∀ p, .load p ∉ endWaiterHistory := by
    intro p hp
    simp [endWaiterHistory] at hp
  have hnone : ∀ n < endWaiterHistory.length, endWaiterHistory[n]? = some .step →
      (endWaiter.run (endWaiterHistory.take n)).keys.first? = none := by
    decide +kernel
  have hkeys : ∀ n < endWaiterHistory.length, endWaiterHistory[n]? = some .step →
      ∀ key, (endWaiter.run (endWaiterHistory.take n)).keys.isHeld key = false :=
    fun n hn hstep => Keypad.first?_eq_none_iff.mp (hnone n hn hstep)
  have hheld : (endWaiter.run endWaiterHistory).keys.isHeld 12 = true := by decide +kernel
  have hwaits := waits_until_key_is_held hwait hload hkeys
  exact ⟨hwait, hload, hkeys, hheld, hwaits.2.2.2.1 12 hheld⟩

end Session

end ChipVM
