import ChipVM.Proofs.Machine.Variants
import ChipVM.Proofs.Session.Trace

/-!
# Runs on which the variants agree

Two sessions that differ in the variant alone go through the same states and report the same, as
long as nothing that the variants dispute gets done. What one of them runs is what the other runs,
so it is enough to look at one: a program may rewrite itself, both machines rewrite it alike.
-/

namespace ChipVM

instance (m : Machine) (keys : Keypad) (now : Nanos) : Decidable (m.Disputes keys now) :=
  decidable_of_iff
    ((∃ i ∈ m.upcoming?, i.disputed = true) ∧ (m.step keys now).fault = none) <| by
    simp only [Machine.Disputes, Machine.runs_iff_upcoming?, Option.mem_def]
    constructor
    · rintro ⟨⟨i, hi, hd⟩, hf⟩
      exact ⟨i, hi, hd, hf⟩
    · rintro ⟨i, hi, hd, hf⟩
      exact ⟨⟨i, hi, hd⟩, hf⟩

namespace Session

/-- The same session with a machine of another variant. -/
def withVariant (s : Session) (v : Variant) : Session :=
  { s with machine := s.machine.withVariant v }

/-- The next step gets an instruction done that the variants may disagree on. -/
def Disputes (s : Session) : Prop := s.machine.Disputes s.keys s.now

instance (s : Session) : Decidable s.Disputes :=
  inferInstanceAs (Decidable (Machine.Disputes ..))

/-- Changing the variant before or after an event is the same, unless the event is a step that gets
something disputed done. -/
theorem apply_withVariant {s : Session} (v : Variant) {e : Event}
    (h : e = .step → ¬ s.Disputes) : (s.withVariant v).apply e = (s.apply e).withVariant v := by
  cases e with
  | load p =>
    simp only [apply, withVariant, Machine.load_eq_done]
    rfl
  | step =>
    have hstep := (Machine.step_withVariant (m := s.machine) v (h rfl)).state
    exact congrArg (fun m => { s with machine := m }) hstep
  | key change => rfl
  | wait time => rfl

/-- Until a step is disputed, the variants differ in nothing but their name. -/
theorem run_withVariant {s : Session} (v : Variant) {events : List Event}
    (h : ∀ n < events.length, events[n]? = some .step → ¬ (s.run (events.take n)).Disputes) :
    (s.withVariant v).run events = (s.run events).withVariant v := by
  induction events generalizing s with
  | nil => rfl
  | cons e es ih =>
    have hfirst : e = .step → ¬ s.Disputes := fun he => h 0 (Nat.succ_pos _) (congrArg some he)
    rw [run_cons, run_cons, apply_withVariant v hfirst]
    exact ih (steps_tail (P := fun t => ¬ t.Disputes) h)

/-- From the same state, under the same keys and at the same time, a step of a legacy and one of an
extended machine report the same and leave states that differ only as the four disputed families
say. So on a history on which one machine, of whichever variant, gets nothing disputed done, the
other goes through the same states and reports the same at every point. -/
theorem variants_differ_in_disputes_alone :
    (∀ (m : Machine) (keys : Keypad) (now : Nanos),
      m.VariantsCompare ((m.withVariant .legacy).step keys now)
        ((m.withVariant .extended).step keys now)) ∧
    ∀ (v w : Variant) (s : Session) (events : List Event),
      (∀ n < events.length, events[n]? = some .step →
        ¬ ((s.withVariant v).run (events.take n)).Disputes) →
      ∀ n ≤ events.length,
        (s.withVariant w).run (events.take n) =
          ((s.withVariant v).run (events.take n)).withVariant w ∧
        ((s.withVariant w).run (events.take n)).outcome.fault =
          ((s.withVariant v).run (events.take n)).outcome.fault := by
  refine ⟨Machine.variantsCompare_step, fun v w s events h n hn => ?_⟩
  have hrun : (s.withVariant w).run (events.take n) =
      ((s.withVariant v).run (events.take n)).withVariant w :=
    run_withVariant (s := s.withVariant v) w (steps_take (P := fun t => ¬ t.Disputes) h n)
  refine ⟨hrun, ?_⟩
  rw [hrun]
  exact Machine.fault_step_withVariant ..

/-- A program that asks for a block transfer off the end of memory, and then writes decimal digits
over the word that it runs next. -/
def selfWriting : Program :=
  ⟨[0xAF, 0xFF, 0xF1, 0x55, 0xA2, 0x0A, 0x60, 0x7B, 0xF0, 0x33, 0x60, 0x01], by decide⟩

def selfWritingHistory : List Event :=
  [.load selfWriting, .step, .step, .key (.press 3), .step, .wait 5, .step, .step, .step]

/-- A program that writes over itself without a dispute runs the same in both variants, its fault
included. -/
theorem variants_agree_on_selfWriting :
    let s := initial .legacy (RandomStream.ofSeed 8)
    (∀ n < selfWritingHistory.length, selfWritingHistory[n]? = some .step →
      ¬ ((s.withVariant .legacy).run (selfWritingHistory.take n)).Disputes) ∧
    ((s.withVariant .legacy).run (selfWritingHistory.take 2)).outcome.fault =
      some (.outOfBounds 0x1000) ∧
    (s.withVariant .extended).run selfWritingHistory =
      ((s.withVariant .legacy).run selfWritingHistory).withVariant .extended := by
  intro s
  have h : ∀ n < selfWritingHistory.length, selfWritingHistory[n]? = some .step →
      ¬ ((s.withVariant .legacy).run (selfWritingHistory.take n)).Disputes := by
    decide +kernel
  exact ⟨h, by decide +kernel, (variants_differ_in_disputes_alone.2 .legacy .extended s
    selfWritingHistory h selfWritingHistory.length (Nat.le_refl _)).1⟩

end Session

end ChipVM
