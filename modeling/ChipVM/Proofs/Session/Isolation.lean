import ChipVM.Proofs.Machine.Inside
import ChipVM.Proofs.Session.Trace

/-!
# How the world outside gets in

Two sessions whose machines are the same inside may go through different key changes and pauses. As
long as both load the same programs and take their steps in the same order, and the first carries
out no instruction that looks outside, the machines stay the same inside and report the same. A
program may rewrite itself meanwhile: both machines rewrite it alike.
-/

namespace ChipVM

instance (m : Machine) : Decidable m.LooksOutside :=
  decidable_of_iff (∃ i ∈ m.upcoming?, i.looksOutside = true) <| by
    simp only [Machine.LooksOutside, Machine.runs_iff_upcoming?, Option.mem_def]

namespace Session

/-- The same event inside keeps two machines the same inside, if the first does not look outside. -/
theorem sameInside_apply {s t : Session} (h : s.machine.SameInside t.machine) {e : Event}
    (he : e.isInner = true) (hclosed : e = .step → ¬ s.machine.LooksOutside) :
    (s.apply e).machine.SameInside (t.apply e).machine := by
  cases e with
  | load p => exact Machine.load_sameInside h p
  | step => exact (Machine.step_sameInside h _ _ _ _ (hclosed rfl)).state
  | key | wait => cases he

/-- Histories with the same events inside keep two machines the same inside, whatever happens
between these events. -/
theorem sameInside_run {s t : Session} (h : s.machine.SameInside t.machine) {es fs : List Event}
    (hinner : es.filter Event.isInner = fs.filter Event.isInner)
    (hclosed : ∀ n < es.length, es[n]? = some .step →
      ¬ (s.run (es.take n)).machine.LooksOutside) :
    (s.run es).machine.SameInside (t.run fs).machine := by
  induction es generalizing s t fs with
  | nil =>
    have houter : ∀ f ∈ fs, f.isInner = false := by
      intro f hf
      simpa using List.filter_eq_nil_iff.mp hinner.symm f hf
    rw [t.machine_run_of_outer houter]
    exact h
  | cons e es ih =>
    have hrest := steps_tail (P := fun u => ¬ u.machine.LooksOutside) hclosed
    cases he : e.isInner with
    | false =>
      rw [List.filter_cons_of_neg (by simp [he])] at hinner
      exact ih ((s.machine_apply_of_outer he).symm ▸ h) hinner hrest
    | true =>
      -- the other history comes to the same event after changes around its machine
      rw [List.filter_cons_of_pos he] at hinner
      obtain ⟨before, after, rfl, hbefore, -, hafter⟩ := List.filter_eq_cons_iff.mp hinner.symm
      have houter : (t.run before).machine = t.machine :=
        t.machine_run_of_outer (by simpa using hbefore)
      have hfirst : e = .step → ¬ s.machine.LooksOutside :=
        fun heq => hclosed 0 (Nat.succ_pos _) (congrArg some heq)
      rw [run_append, run_cons, run_cons]
      exact ih (sameInside_apply (houter.symm ▸ h) he hfirst) hafter.symm hrest

/-- Take two machines that are the same inside, and any two histories, the first of which carries
out no instruction that looks outside. Wherever both have loaded the same programs and taken their
steps in the same order, the machines are the same inside, and if the next event is a step for both,
they report the same. What was pressed, how much time passed and what is left of countdowns and
random streams makes no difference. -/
theorem inside_independent_of_outside {s t : Session} (h : s.machine.SameInside t.machine)
    {es : List Event} (hclosed : ∀ n < es.length, es[n]? = some .step →
      ¬ (s.run (es.take n)).machine.LooksOutside) (fs : List Event) :
    ∀ n ≤ es.length, ∀ k ≤ fs.length,
      (es.take n).filter Event.isInner = (fs.take k).filter Event.isInner →
      (s.run (es.take n)).machine.SameInside (t.run (fs.take k)).machine ∧
      (es[n]? = some .step →
        (t.run (fs.take k)).outcome.fault = (s.run (es.take n)).outcome.fault) := by
  intro n hn k _ hinner
  have hbefore := steps_take (P := fun u => ¬ u.machine.LooksOutside) hclosed n
  have hsame := sameInside_run h hinner hbefore
  refine ⟨hsame, fun hstep => ?_⟩
  have hlt : n < es.length := (List.getElem?_eq_some_iff.mp hstep).1
  exact (Machine.step_sameInside hsame _ _ _ _ (hclosed n hlt hstep)).fault

/-- A program that stores two registers over the word behind the store, runs that word and then
meets one without a meaning. -/
def overwritingNext : Program :=
  ⟨[0x60, 0x61, 0x61, 0x07, 0xA2, 0x08, 0xF1, 0x55, 0x00, 0x00, 0xE0, 0xFF], by decide⟩

/-- The program in a machine with the random stream of a seed that was switched on at `now` while
the given keys were held. -/
def overwriting (seed : UInt64) (keys : Keypad) (now : Nanos) : Session :=
  (switchedOn .legacy (RandomStream.ofSeed seed) keys now).apply (.load overwritingNext)

def quietHistory : List Event := [.step, .step, .step, .step, .step, .step]

def busyHistory : List Event :=
  [.wait 9, .step, .step, .key (.press 3), .wait 5, .step, .step, .step, .key .releaseAll, .step]

/-- A program that writes over itself does the same whatever happens outside, its fault included. -/
theorem overwriting_same_inside :
    let s := overwriting 8 Keypad.released 0
    let t := overwriting 9 ⟨0x00F0⟩ 77
    s.machine.SameInside t.machine ∧
    (∀ n < quietHistory.length, quietHistory[n]? = some .step →
      ¬ (s.run (quietHistory.take n)).machine.LooksOutside) ∧
    (s.run quietHistory).machine.SameInside (t.run busyHistory).machine ∧
    (s.run (quietHistory.take 5)).outcome.fault = some (.unimplemented ⟨0xE0FF⟩) ∧
    (t.run (busyHistory.take 9)).outcome.fault = some (.unimplemented ⟨0xE0FF⟩) := by
  intro s t
  have hsame : s.machine.SameInside t.machine :=
    Machine.load_sameInside (Machine.sameInside_with ..) overwritingNext
  have hclosed : ∀ n < quietHistory.length, quietHistory[n]? = some .step →
      ¬ (s.run (quietHistory.take n)).machine.LooksOutside := by
    decide +kernel
  have hfault : (s.run (quietHistory.take 5)).outcome.fault = some (.unimplemented ⟨0xE0FF⟩) := by
    decide +kernel
  have hrun := inside_independent_of_outside hsame hclosed busyHistory
  have hlast := (hrun 5 (by decide) 9 (by decide) rfl).2 rfl
  exact ⟨hsame, hclosed, (hrun 6 (by decide) 10 (by decide) rfl).1, hfault, hlast.trans hfault⟩

end Session

end ChipVM
