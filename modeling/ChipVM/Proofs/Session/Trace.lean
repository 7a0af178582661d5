import ChipVM.Proofs.Machine.Step
import ChipVM.Session

/-!
# What a history consists of

Loading a program and taking a step happen to the machine, key changes and pauses around it. Only a
step carries an instruction out, and only if it reaches one. A part of the machine that neither
loading a program nor the program counter has anything to do with is after an event what the
instruction made of it, if one was carried out, and what it was otherwise.
-/

namespace ChipVM.Session

variable {s : Session} {P : Session → Prop}

/-- What every step of a history finds, the steps after its first event find. -/
theorem steps_tail {e : Event} {es : List Event}
    (h : ∀ n < (e :: es).length, (e :: es)[n]? = some .step → P (s.run ((e :: es).take n))) :
    ∀ n < es.length, es[n]? = some .step → P ((s.apply e).run (es.take n)) :=
  fun n hn hstep => h (n + 1) (Nat.succ_lt_succ hn) hstep

/-- What every step of a history finds, the steps of its beginnings find. -/
theorem steps_take {events : List Event}
    (h : ∀ n < events.length, events[n]? = some .step → P (s.run (events.take n))) (m : Nat) :
    ∀ n < (events.take m).length, (events.take m)[n]? = some .step →
      P (s.run ((events.take m).take n)) := by
  intro n hn hstep
  rw [List.length_take] at hn
  rw [List.getElem?_take_of_lt (by omega)] at hstep
  rw [List.take_take, Nat.min_eq_left (by omega)]
  exact h n (by omega) hstep

/-- The event happens to the machine itself and not to what surrounds it. -/
def Event.isInner : Event → Bool
  | .load _ | .step => true
  | .key _ | .wait _ => false

/-- Changes around a machine do not reach it. -/
theorem machine_apply_of_outer (s : Session) {e : Event} (he : e.isInner = false) :
    (s.apply e).machine = s.machine := by
  cases e with
  | load | step => cases he
  | key | wait => rfl

/-- Outer events leave the machine alone. -/
theorem machine_run_of_outer (s : Session) {events : List Event}
    (h : ∀ e ∈ events, e.isInner = false) : (s.run events).machine = s.machine := by
  induction events generalizing s with
  | nil => rfl
  | cons e es ih =>
    rw [run_cons, ih (s.apply e) fun e' he' => h e' (List.mem_cons_of_mem e he')]
    exact s.machine_apply_of_outer (h e List.mem_cons_self)

/-- Time does not go back. -/
theorem now_le_now_apply (s : Session) (e : Event) : s.now ≤ (s.apply e).now := by
  cases e with
  | wait time => exact Nat.le_add_right s.now time
  | load | step | key => exact Nat.le_refl s.now

/-- Time never goes back. -/
theorem now_le_now_run (s : Session) (events : List Event) : s.now ≤ (s.run events).now := by
  induction events generalizing s with
  | nil => exact Nat.le_refl s.now
  | cons e es ih => exact Nat.le_trans (s.now_le_now_apply e) (ih (s.apply e))

/-- The instruction that an event carries out, if it carries one out. -/
def performs? (s : Session) : Event → Option (Instruction Reg)
  | .step => s.machine.upcoming?
  | _ => none

/-- The instructions that a history carries out, in their order, each with the session in which it
is carried out. -/
def performed (s : Session) : List Event → List (Session × Instruction Reg)
  | [] => []
  | e :: es => ((s.performs? e).map fun i => (s, i)).toList ++ (s.apply e).performed es

/-- An event changes such a part of the machine as the instruction does that it carries out. -/
theorem part_apply {α : Type} (part : Machine → α) (after : Machine → Nanos → Instruction Reg → α)
    (hload : ∀ m p, part (m.load p).state = part m)
    (hadvance : ∀ m, part m.advance = part m)
    (hexecute : ∀ m keys now i, part (m.ready.execute keys now i).state = after m now i)
    (s : Session) (e : Event) :
    part (s.apply e).machine =
      ((s.performs? e).map (after s.machine s.now)).getD (part s.machine) := by
  cases e with
  | load p => exact hload s.machine p
  | key | wait => rfl
  | step =>
    rw [apply, step, outcome, performs?]
    cases hi : s.machine.upcoming? with
    | some i =>
      have hrun := Machine.runs_iff_upcoming?.mpr hi
      rw [hrun.step, hexecute, Option.map_some, Option.getD_some]
    | none =>
      have hnone : ∀ i, ¬ s.machine.Runs i := by
        intro i hrun
        rw [Machine.runs_iff_upcoming?, hi] at hrun
        cases hrun
      obtain ⟨f, hs | hs⟩ := Machine.step_of_not_runs hnone s.keys s.now
      · rw [hs]
        rfl
      · rw [hs]
        exact hadvance s.machine

end ChipVM.Session
