import ChipVM.Proofs.Play.Cycle

/-!
# A play is a fold

A play that ends without a failure has, for each of its cycles in order, done what the host does at
that poll and then run one step at the time on the clock. Frames and rests only let time pass. How
many cycles there are is settled by the limit and by the first poll at which the host asks to stop,
and what the play has counted and noted is what happened in them.
-/

namespace ChipVM

namespace Pace

/-- A limit is reached if there is one and it is not above the count. -/
theorem reached_eq_true_iff {pace : Pace} {cycles : Nat} :
    pace.reached cycles = true ↔ ∃ m, pace.limit = some m ∧ m ≤ cycles := by
  unfold reached
  cases pace.limit with
  | none => exact ⟨nofun, nofun⟩
  | some m =>
    constructor
    · exact fun h => ⟨m, rfl, of_decide_eq_true h⟩
    · rintro ⟨_, h, hle⟩
      cases h
      exact decide_eq_true hle

theorem lt_limit_of_not_reached {pace : Pace} {cycles m : Nat}
    (h : pace.reached cycles = false) (hm : pace.limit = some m) : cycles < m := by
  refine Nat.lt_of_not_le fun hle => ?_
  cases h.symm.trans (reached_eq_true_iff.mpr ⟨m, hm, hle⟩)

/-- The limit is the first number of cycles that reaches it. -/
theorem limit_of_reached {pace : Pace} {cycles : Nat} (h : pace.reached cycles = true)
    (hbefore : ∀ j < cycles, pace.reached j = false) : pace.limit = some cycles := by
  obtain ⟨m, hm, hle⟩ := reached_eq_true_iff.mp h
  have hge : ¬ m < cycles := fun hlt =>
    Nat.lt_irrefl m (lt_limit_of_not_reached (hbefore m hlt) hm)
  rwa [show cycles = m by omega]

end Pace

namespace Session

/-- The session after so many cycles. In each of them the host is polled, one step is run, and then
there is a pause. -/
def driven (s : Session) (host : Host) (pause : Nat → Nanos) : Nat → Session
  | 0 => s
  | k + 1 => ((s.driven host pause k).poll (host.poll k)).1.step.apply (.wait (pause k))

/-- The session that the step of a cycle runs from. -/
def beforeStep (s : Session) (host : Host) (pause : Nat → Nanos) (k : Nat) : Session :=
  ((s.driven host pause k).poll (host.poll k)).1

end Session

namespace Play

/-- The play that a stretch has come to. -/
def Progress.play : Progress → Play
  | .going p => p
  | .ended p _ => p

/-- The play at the beginning of a cycle, if it gets there; the play as it ended otherwise. -/
def head (host : Host) (pace : Pace) (s : Session) (k : Nat) : Play :=
  (run host pace k (start s)).play

/-- How long the pause after the step of a cycle is. -/
def pauseAfter (host : Host) (pace : Pace) (s : Session) (k : Nat) : Nanos :=
  (head host pace s (k + 1)).session.now - ((head host pace s k).polled host).now

variable {host : Host} {pace : Pace}

/-- One cycle more is a cycle after the others, unless the play has ended. -/
theorem run_succ (n : Nat) (p : Play) :
    run host pace (n + 1) p =
      match run host pace n p with
      | .going q => q.cycle host pace
      | .ended q ending => .ended q ending := by
  induction n generalizing p with
  | zero =>
    simp only [run]
    cases p.cycle host pace <;> rfl
  | succ n ih =>
    rw [run, run]
    cases p.cycle host pace with
    | going q => exact ih q
    | ended q ending => rfl

theorem run_succ_eq_going_iff {n : Nat} {p r : Play} :
    run host pace (n + 1) p = .going r ↔
      ∃ q, run host pace n p = .going q ∧ q.cycle host pace = .going r := by
  rw [run_succ]
  cases run host pace n p with
  | going q =>
    exact ⟨fun h => ⟨q, rfl, h⟩, fun ⟨_, hq, h⟩ => Progress.going.inj hq ▸ h⟩
  | ended q ending => exact ⟨nofun, nofun⟩

/-- A play has ended if some cycle before has ended it. -/
theorem run_eq_ended_iff {n : Nat} {p r : Play} {ending : Ending} :
    run host pace n p = .ended r ending ↔
      ∃ k < n, ∃ q, run host pace k p = .going q ∧ q.cycle host pace = .ended r ending := by
  induction n with
  | zero => exact ⟨nofun, nofun⟩
  | succ n ih =>
    rw [run_succ, Nat.exists_lt_succ_right, ← ih]
    cases run host pace n p with
    | going q =>
      constructor
      · intro h
        exact Or.inr ⟨q, rfl, h⟩
      · rintro (h | ⟨q', hq', h⟩)
        · cases h
        · cases hq'
          exact h
    | ended q ending' =>
      constructor
      · exact Or.inl
      · rintro (h | ⟨q', hq', -⟩)
        · exact h
        · cases hq'

/-- What is so at the beginning of cycle `k`. -/
structure AtHead (host : Host) (pace : Pace) (s : Session) (k : Nat) (q : Play) : Prop where
  cycles : q.cycles = k
  polls : q.polls = k
  unreached : ∀ j < k, pace.reached j = false
  stays : ∀ j < k, host.reply j = .ok false
  session : ∀ j ≤ k, (head host pace s j).session = s.driven host (pauseAfter host pace s) j
  failures : q.failures.reverse = (List.range k).filterMap fun j =>
    (s.beforeStep host (pauseAfter host pace s) j).failure?
  frames : q.frames = (List.range k).countP fun j => (head host pace s j).showsFrame host

theorem head_of_going {s : Session} {k : Nat} {q : Play}
    (h : run host pace k (start s) = .going q) : head host pace s k = q := by
  rw [head, h]
  rfl

/-- A new play is at the head of its first cycle. -/
theorem atHead_start (s : Session) : AtHead host pace s 0 (start s) := by
  refine ⟨rfl, rfl, nofun, nofun, ?_, rfl, rfl⟩
  intro j hj
  rw [Nat.le_zero.mp hj]
  rfl

/-- What is noted cycle by cycle, the latest first, is one list over the cycles when reversed. -/
theorem reverse_toList_append {α : Type} {g : Nat → Option α} {l : List α} {k : Nat}
    (h : l.reverse = (List.range k).filterMap g) :
    ((g k).toList ++ l).reverse = (List.range (k + 1)).filterMap g := by
  rw [List.reverse_append, h, List.range_succ, List.filterMap_append]
  cases hg : g k <;> simp [hg]

/-- A cycle that the play survives leads from the beginning of one cycle to that of the next. -/
theorem AtHead.cycled {s : Session} {k : Nat} {p q : Play} (h : AtHead host pace s k p)
    (hp : head host pace s k = p) (hq : head host pace s (k + 1) = q)
    (hc : Cycled host pace p q) : AtHead host pace s (k + 1) q := by
  have hbefore : p.polled host = s.beforeStep host (pauseAfter host pace s) k := by
    rw [polled, h.polls, ← hp, h.session k (Nat.le_refl k)]
    rfl
  have hsession : q.session = s.driven host (pauseAfter host pace s) (k + 1) := by
    obtain ⟨time, ht⟩ := hc.session
    have hpause : pauseAfter host pace s k = time := by
      rw [pauseAfter, hq, hp, ht]
      exact Nat.add_sub_cancel_left ..
    rw [ht, hbefore, ← hpause]
    rfl
  constructor
  · rw [hc.cycles, h.cycles]
  · rw [hc.polls, h.polls]
  · exact Nat.forall_lt_succ_right.mpr ⟨h.unreached, h.cycles ▸ hc.unreached⟩
  · exact Nat.forall_lt_succ_right.mpr ⟨h.stays, h.polls ▸ hc.stays⟩
  · intro j hj
    rcases Nat.le_succ_iff.mp hj with hle | rfl
    · exact h.session j hle
    · rw [hq, hsession]
  · rw [hc.failures, hbefore]
    exact reverse_toList_append h.failures
  · rw [hc.frames, h.frames, List.range_succ, List.countP_append, ← hp]
    cases hs : (head host pace s k).showsFrame host <;> simp [hs]

/-- A play that gets to a cycle has done there what the fold says. -/
theorem atHead_of_going {s : Session} {k : Nat} {q : Play}
    (h : run host pace k (start s) = .going q) : AtHead host pace s k q := by
  induction k generalizing q with
  | zero =>
    cases h
    exact atHead_start s
  | succ k ih =>
    obtain ⟨p, hp, hcycle⟩ := run_succ_eq_going_iff.mp h
    exact (ih hp).cycled (head_of_going hp) (head_of_going h) (cycled_of_going hcycle)

/-- A cycle shows one frame at most. -/
theorem AtHead.frames_le {s : Session} {k : Nat} {q : Play} (h : AtHead host pace s k q) :
    q.frames ≤ k := by
  have hle := List.countP_le_length (p := fun j => (head host pace s j).showsFrame host)
    (l := List.range k)
  rw [List.length_range] at hle
  exact h.frames ▸ hle

/-- After `k` cycles a play is at its limit, or its host asks for the first time to stop. -/
structure StopsAfter (host : Host) (pace : Pace) (k : Nat) : Prop where
  stays : ∀ j < k, host.reply j = .ok false
  stops : pace.limit = some k ∨ host.reply k = .ok true ∧ ∀ m, pace.limit = some m → k < m

/-- A host that can show the frames lets the play get to the cycle in which it stops. -/
theorem going_of_stopsAfter {s : Session} {k : Nat} (hstop : StopsAfter host pace k)
    (hdraw : ∀ j ≤ k, ∃ time, host.draw j = .ok time) {j : Nat} (hj : j ≤ k) :
    ∃ q, run host pace j (start s) = .going q ∧ ∃ time, host.draw q.frames = .ok time := by
  have hframes : ∀ {i q}, i ≤ k → run host pace i (start s) = .going q →
      ∃ time, host.draw q.frames = .ok time := by
    intro i q hi hq
    exact hdraw _ (Nat.le_trans (atHead_of_going hq).frames_le hi)
  induction j with
  | zero => exact ⟨start s, rfl, hframes (Nat.zero_le k) rfl⟩
  | succ j ih =>
    obtain ⟨q, hq, time, ht⟩ := ih (Nat.le_of_succ_le hj)
    have hpast := atHead_of_going hq
    have hunreached : pace.reached q.cycles = false := by
      refine Bool.eq_false_iff.mpr fun hr => ?_
      obtain ⟨m, hm, hle⟩ := Pace.reached_eq_true_iff.mp hr
      rw [hpast.cycles] at hle
      rcases hstop.stops with h | ⟨-, h⟩
      · cases h.symm.trans hm
        omega
      · have hlt := h m hm
        omega
    obtain ⟨r, hr⟩ := going_of_stays ht hunreached (hpast.polls ▸ hstop.stays j hj)
    have hnext := run_succ_eq_going_iff.mpr ⟨q, hq, hr⟩
    exact ⟨r, hnext, hframes hj hnext⟩

/-- A play with such a host ends, as soon as it may run more cycles than that. -/
theorem ended_of_stopsAfter {s : Session} {k n : Nat} (hstop : StopsAfter host pace k)
    (hdraw : ∀ j ≤ k, ∃ time, host.draw j = .ok time) (hn : k < n) :
    ∃ p ending, run host pace n (start s) = .ended p ending ∧
      ∀ fault, ending ≠ .failed fault := by
  obtain ⟨q, hq, time, ht⟩ := going_of_stopsAfter (s := s) hstop hdraw (Nat.le_refl k)
  have hpast := atHead_of_going hq
  have hnow : pace.reached q.cycles = true ∨ host.reply q.polls = .ok true := by
    rw [hpast.cycles, hpast.polls]
    rcases hstop.stops with h | ⟨h, -⟩
    · exact Or.inl (Pace.reached_eq_true_iff.mpr ⟨k, h, Nat.le_refl k⟩)
    · exact Or.inr h
  obtain ⟨r, ending, hc, hok⟩ := ended_of_stops ht hnow
  exact ⟨r, ending, run_eq_ended_iff.mpr ⟨k, hn, q, hq, hc⟩, hok⟩

/-- What a play of `s` amounts to that has ended without a failure. -/
structure Account (host : Host) (pace : Pace) (s : Session) (p : Play) (ending : Ending) :
    Prop where
  /-- The play has not ended before it had to. -/
  stops : StopsAfter host pace p.cycles
  /-- A play whose host does not ask to stop before the limit runs to the limit. -/
  enough : ∀ m, pace.limit = some m → (∀ j < m, host.reply j ≠ .ok true) →
    ending = .enough ∧ p.cycles = m ∧ p.polls = m
  /-- A play is quit at the first poll that asks for it, if that comes before the limit. -/
  quit : ∀ k, host.reply k = .ok true → (∀ j < k, host.reply j ≠ .ok true) →
    (∀ m, pace.limit = some m → k < m) → ending = .quit ∧ p.cycles = k ∧ p.polls = k + 1
  /-- At the beginning of each cycle machine, keys and clock are those of the fold. -/
  heads : ∀ j ≤ p.cycles,
    (head host pace s j).session = s.driven host (pauseAfter host pace s) j
  /-- Nothing but the polls and the steps of the cycles has touched the machine. -/
  machine : p.session.machine = (s.driven host (pauseAfter host pace s) p.cycles).machine
  errors : p.errors = (List.range p.cycles).countP fun j =>
    (s.beforeStep host (pauseAfter host pace s) j).outcome.fault.isSome
  /-- One warning is noted for each step that failed, in their order, with the counter that the step
  started from. -/
  entries : p.entries = (List.range p.cycles).filterMap fun j =>
    let t := s.beforeStep host (pauseAfter host pace s) j
    t.outcome.fault.map fun fault => .stepFailed t.machine.regs.pc fault
  /-- A frame is shown in each cycle that finds one due, and one more at the end. -/
  frames : p.frames = ((List.range p.cycles).countP fun j =>
    (head host pace s j).showsFrame host) + 1
  last : p.shots.head?.map Shot.picture = some p.session.machine.display

/-- Failures that were noted as pairs are counted and worded step by step. -/
theorem entries_eq_of_failures {p : Play} {f : Nat → Session} {k : Nat}
    (h : p.failures.reverse = (List.range k).filterMap fun j => (f j).failure?) :
    p.errors = ((List.range k).countP fun j => (f j).outcome.fault.isSome) ∧
      p.entries = (List.range k).filterMap fun j =>
        (f j).outcome.fault.map fun fault => .stepFailed (f j).machine.regs.pc fault := by
  constructor
  · rw [errors, ← List.length_reverse, h, List.length_filterMap_eq_countP]
    simp only [Session.failure?, Option.isSome_map]
  · rw [entries, h, List.map_filterMap]
    simp only [Session.failure?, Option.map_map]
    rfl

/-- How a play closes in which `k` cycles have been run: it is at the limit, or asked to stop before
the limit. The number is that of its polls. -/
inductive Closes (host : Host) (pace : Pace) (k : Nat) : Ending → Nat → Prop where
  | enough (hlimit : pace.limit = some k) : Closes host pace k .enough k
  | quit (hasks : host.reply k = .ok true) (hlimit : ∀ m, pace.limit = some m → k < m) :
    Closes host pace k .quit (k + 1)

/-- A play that a cycle ends without a failure closes there. -/
theorem closes_of_ended {s : Session} {k : Nat} {q p : Play} {ending : Ending}
    (hpast : AtHead host pace s k q) (hend : q.cycle host pace = .ended p ending)
    (hok : ∀ fault, ending ≠ .failed fault) : Closes host pace k ending p.polls := by
  obtain ⟨-, hway⟩ := closed_of_ended hend hok
  rw [hpast.cycles, hpast.polls] at hway
  rcases hway with ⟨hr, rfl, hpolls⟩ | ⟨hr, hasks, rfl, hpolls⟩
  all_goals rw [hpolls]
  · exact .enough (Pace.limit_of_reached hr hpast.unreached)
  · exact .quit hasks fun _ => Pace.lt_limit_of_not_reached hr

namespace Closes

variable {k polls : Nat} {ending : Ending}

/-- A play that has closed was at its limit, or was asked to stop before it. -/
theorem stops (h : Closes host pace k ending polls) :
    pace.limit = some k ∨ host.reply k = .ok true ∧ ∀ m, pace.limit = some m → k < m := by
  cases h with
  | enough hlimit => exact Or.inl hlimit
  | quit hasks hlimit => exact Or.inr ⟨hasks, hlimit⟩

/-- If the host does not ask to stop before the limit, the play closes there. -/
theorem eq_limit (h : Closes host pace k ending polls) {m : Nat} (hm : pace.limit = some m)
    (hstay : ∀ j < m, host.reply j ≠ .ok true) : ending = .enough ∧ k = m ∧ polls = m := by
  cases h with
  | enough hlimit =>
    cases hlimit.symm.trans hm
    exact ⟨rfl, rfl, rfl⟩
  | quit hasks hlimit => exact absurd hasks (hstay k (hlimit m hm))

/-- If the host asks to stop before the limit, the play closes when it first does. -/
theorem eq_asking (h : Closes host pace k ending polls) (hpast : ∀ j < k, host.reply j = .ok false)
    {c : Nat} (hasks : host.reply c = .ok true) (hstay : ∀ j < c, host.reply j ≠ .ok true)
    (hbefore : ∀ m, pace.limit = some m → c < m) :
    ending = .quit ∧ k = c ∧ polls = c + 1 := by
  have hle : k ≤ c := Nat.le_of_not_lt fun hlt => by
    cases (hpast c hlt).symm.trans hasks
  cases h with
  | enough hlimit =>
    have hlt := hbefore k hlimit
    omega
  | quit hasks' _ =>
    have hge : c ≤ k := Nat.le_of_not_lt fun hlt => hstay k hlt hasks'
    cases Nat.le_antisymm hle hge
    exact ⟨rfl, rfl, rfl⟩

end Closes

/-- A play that has ended without a failure has a right account. -/
theorem account_of_ended {s : Session} {n : Nat} {p : Play} {ending : Ending}
    (hend : run host pace n (start s) = .ended p ending)
    (hok : ∀ fault, ending ≠ .failed fault) : Account host pace s p ending := by
  obtain ⟨k, -, q, hq, hc⟩ := run_eq_ended_iff.mp hend
  have hpast := atHead_of_going hq
  have hcloses := closes_of_ended hpast hc hok
  have hclosed := (closed_of_ended hc hok).1
  have hcycles : p.cycles = k := hclosed.cycles.trans hpast.cycles
  have hfailures := entries_eq_of_failures (p := p) (hclosed.failures ▸ hpast.failures)
  have hhead : q.session = s.driven host (pauseAfter host pace s) k :=
    head_of_going hq ▸ hpast.session k (Nat.le_refl k)
  constructor
  · exact hcycles ▸ ⟨hpast.stays, hcloses.stops⟩
  · exact fun m hm hstay => hcycles ▸ hcloses.eq_limit hm hstay
  · exact fun c hasks hstay hlimit =>
      hcycles ▸ hcloses.eq_asking hpast.stays hasks hstay hlimit
  · exact hcycles ▸ hpast.session
  · rw [hclosed.machine, hhead, hcycles]
  · exact hcycles ▸ hfailures.1
  · exact hcycles ▸ hfailures.2
  · rw [hclosed.frames, hpast.frames, hcycles]
  · exact hclosed.last

/-- A play of a session with any host at any pace. If the host can show the frames, it ends at its
limit or, before that, when the host first asks to stop; and whenever it ends without a failure, it
is the fold of the host's polls and of steps, and its account is right. -/
theorem play_eq_fold (host : Host) (pace : Pace) (s : Session) :
    (∀ k, StopsAfter host pace k → (∀ j ≤ k, ∃ time, host.draw j = .ok time) →
      ∀ n > k, ∃ p ending, run host pace n (start s) = .ended p ending ∧
        ∀ fault, ending ≠ .failed fault) ∧
    ∀ n p ending, run host pace n (start s) = .ended p ending →
      (∀ fault, ending ≠ .failed fault) → Account host pace s p ending :=
  ⟨fun _ hstop hdraw _ hn => ended_of_stopsAfter hstop hdraw hn,
    fun _ _ _ hend hok => account_of_ended hend hok⟩

/-- A host that presses a key at the second poll, is held up for longer than a cycle at the third,
and asks to stop at the fourth. -/
def stallingHost : Host :=
  Script.host ⟨[(1, .key (.press 3)), (2, .wait 200000000), (3, .quit)], 5, 7, none⟩

/-- A machine whose program begins with a word without meaning and then asks for key after key. -/
def faultingSession : Session :=
  (Session.initial .legacy (RandomStream.ofSeed 8)).run
    [.load ⟨[0xE0, 0xFF, 0xF5, 0x0A, 0x12, 0x02], by decide⟩]

/-- With the stalling host a play is quit after three cycles, and the account has one warning. -/
theorem fold_of_stallingHost :
    StopsAfter stallingHost (Pace.standard (some 10)) 3 ∧
    (∀ j ≤ 3, ∃ time, stallingHost.draw j = .ok time) ∧
    ∃ p, run stallingHost (Pace.standard (some 10)) 4 (start faultingSession) = .ended p .quit ∧
      p.cycles = 3 ∧ p.polls = 4 ∧ p.entries = [.stepFailed 0x200 (.unimplemented ⟨0xE0FF⟩)] := by
  have hstays : ∀ j < 3, stallingHost.reply j = .ok false
    | 0, _ | 1, _ | 2, _ => rfl
  have hlimit : ∀ m, (Pace.standard (some 10)).limit = some m → 3 < m := fun _ hm => by
    cases hm
    decide
  have hstop : StopsAfter stallingHost (Pace.standard (some 10)) 3 :=
    ⟨hstays, Or.inr ⟨rfl, hlimit⟩⟩
  have hdraw : ∀ j ≤ 3, ∃ time, stallingHost.draw j = .ok time := fun _ _ => ⟨7, rfl⟩
  have h := play_eq_fold stallingHost (Pace.standard (some 10)) faultingSession
  obtain ⟨p, ending, hend, hok⟩ := h.1 3 hstop hdraw 4 (Nat.lt_succ_self 3)
  have hacc := h.2 4 p ending hend hok
  obtain ⟨rfl, hcycles, hpolls⟩ := hacc.quit 3 rfl
    (fun j hj hquit => by cases (hstays j hj).symm.trans hquit) hlimit
  refine ⟨hstop, hdraw, p, hend, hcycles, hpolls, ?_⟩
  rw [hacc.entries, hcycles]
  decide +kernel

end Play

end ChipVM
