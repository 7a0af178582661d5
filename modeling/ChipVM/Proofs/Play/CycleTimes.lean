import ChipVM.Proofs.Play.Clock

/-!
# When cycles begin

When a cycle begins, its deadline has come and is no further back than the lag that is worth making
up for; and from each cycle to the next the deadline moves on by a period or more. So cycles never
come too early, and those that make up for a lag gain no more than that lag on the clock. As long as
no lag is given up, the deadlines are whole periods from the start.
-/

namespace ChipVM

namespace Play

variable {host : Host} {pace : Pace} {s : Session}

/-- When a cycle begins, its deadline has come, and the lag is worth making up for. -/
theorem Reaches.cycleDue_le_now {k : Nat} (h : Reaches host pace s k) :
    (head host pace s k).due.cycle ≤ (head host pace s k).session.now ∧
      (head host pace s k).session.now ≤ (head host pace s k).due.cycle + Pace.maxLag := by
  cases k with
  | zero => exact ⟨Nat.le_refl _, Nat.le_add_right ..⟩
  | succ k =>
    have ht := h.timed
    rw [ht.cycle, ht.now]
    exact ⟨Nat.le_max_right .., Deadlines.restUntil_afterCycle_le ..⟩

/-- Between two cycles the deadline has moved on by a period for each. -/
theorem Reaches.cycleDue_add_le {i j : Nat} (h : Reaches host pace s j) (hij : i ≤ j) :
    (head host pace s i).due.cycle + (j - i) * pace.cyclePeriod ≤
      (head host pace s j).due.cycle := by
  induction j with
  | zero =>
    rw [Nat.le_zero.mp hij, Nat.sub_self, Nat.zero_mul]
    exact Nat.le_refl _
  | succ j ih =>
    rcases Nat.le_succ_iff.mp hij with hle | rfl
    · have hpast := ih (reaches_succ_iff.mp h).1 hle
      have hnext := (head host pace s j).due.add_period_le_cycle_afterCycle pace
        ((head host pace s j).doneAt host pace)
      have hmul : (j + 1 - i) * pace.cyclePeriod =
          (j - i) * pace.cyclePeriod + pace.cyclePeriod := by
        rw [Nat.succ_sub hle, Nat.succ_mul]
      rw [h.timed.cycle, hmul]
      lia
    · rw [Nat.sub_self, Nat.zero_mul]
      exact Nat.le_refl _

/-- As long as no lag is given up, the deadlines are whole periods from the start. -/
theorem Reaches.cycleDue_eq {k : Nat} (h : Reaches host pace s k)
    (hlag : ∀ j < k, (head host pace s j).doneAt host pace ≤
      s.now + (j + 1) * pace.cyclePeriod + Pace.maxLag) :
    (head host pace s k).due.cycle = s.now + k * pace.cyclePeriod := by
  induction k with
  | zero =>
    rw [Nat.zero_mul]
    rfl
  | succ k ih =>
    have hpast := ih (reaches_succ_iff.mp h).1 fun j hj => hlag j (Nat.lt_succ_of_lt hj)
    have hdone := hlag k (Nat.lt_succ_self k)
    rw [Nat.succ_mul] at hdone ⊢
    rw [h.timed.cycle, Deadlines.cycle_afterCycle_of_le (by lia), hpast, Nat.add_assoc]

/-- Cycle `n` begins with poll `n`, and no earlier than `n` periods after the start. Between any two
cycles no more time is saved than the lag that is worth making up for. As long as each cycle is done
within that lag of its deadline, all of the lag is made up for: the next cycle begins at its
deadline, or as soon as the one before is done if that comes later. -/
theorem cycles_keep_pace (host : Host) (pace : Pace) (s : Session) :
    (∀ n, Reaches host pace s n → (head host pace s n).polls = n ∧
      s.now + n * pace.cyclePeriod ≤ (head host pace s n).session.now) ∧
    (∀ i j, i < j → Reaches host pace s j →
      (head host pace s i).session.now + (j - i) * pace.cyclePeriod ≤
        (head host pace s j).session.now + Pace.maxLag) ∧
    ∀ n, Reaches host pace s (n + 1) →
      (∀ k ≤ n, (head host pace s k).doneAt host pace ≤
        s.now + (k + 1) * pace.cyclePeriod + Pace.maxLag) →
      (head host pace s (n + 1)).session.now =
        max (s.now + (n + 1) * pace.cyclePeriod) ((head host pace s n).doneAt host pace) := by
  refine ⟨?_, ?_, ?_⟩
  · intro n h
    have hdue := h.cycleDue_add_le (Nat.zero_le n)
    have hnow := h.cycleDue_le_now.1
    exact ⟨h.atHead.polls, Nat.le_trans hdue hnow⟩
  · intro i j hij h
    -- cycle `i` lags behind its deadline, cycle `j` does not begin before its own
    have hlag := (h.of_le (Nat.le_of_lt hij)).cycleDue_le_now.2
    have hdue := h.cycleDue_add_le (Nat.le_of_lt hij)
    have hnow := h.cycleDue_le_now.1
    lia
  · intro n h hlag
    have hdue := h.cycleDue_eq fun k hk => hlag k (Nat.le_of_lt_succ hk)
    rw [← hdue, h.timed.now, h.timed.cycle]
    exact Nat.max_comm ..

/-- A host that is held up at the second poll for less than the lag that is made up for, and at the
fifth for more. -/
def dawdlingHost : Host :=
  Script.host ⟨[(1, .wait 30000000), (4, .wait 250000000)], 5, 7, none⟩

theorem reaches_dawdlingHost :
    Reaches dawdlingHost (Pace.ofRates 1000 60 (some 6)) faultingSession 6 := by
  have hstays : ∀ j < 6, dawdlingHost.reply j = .ok false
    | 0, _ | 1, _ | 2, _ | 3, _ | 4, _ | 5, _ => rfl
  exact reaches_of_stopsAfter ⟨hstays, Or.inl rfl⟩ fun _ _ => ⟨7, rfl⟩

/-- At a thousand cycles per second the first hold-up has been made up for in part by the fifth
cycle, and the second one has been given up. -/
theorem dawdlingHost_keeps_pace :
    let pace := Pace.ofRates 1000 60 (some 6)
    let began := fun n => (head dawdlingHost pace faultingSession n).session.now
    let done := fun n => (head dawdlingHost pace faultingSession n).doneAt dawdlingHost pace
    Reaches dawdlingHost pace faultingSession 6 ∧
    faultingSession.now + 6 * pace.cyclePeriod ≤ began 6 ∧
    (∀ k ≤ 3, done k ≤ faultingSession.now + (k + 1) * pace.cyclePeriod + Pace.maxLag) ∧
    began (3 + 1) = max (faultingSession.now + (3 + 1) * pace.cyclePeriod) (done 3) ∧
    done 3 = 31000022 ∧
    began 5 + (6 - 5) * pace.cyclePeriod ≤ began 6 + Pace.maxLag ∧ began 5 = 281000034 := by
  intro pace began done
  have hlag : ∀ k ≤ 3, done k ≤ faultingSession.now + (k + 1) * pace.cyclePeriod + Pace.maxLag := by
    decide +kernel
  obtain ⟨hearliest, hsaved, hmade⟩ := cycles_keep_pace dawdlingHost pace faultingSession
  refine ⟨reaches_dawdlingHost, ?_, hlag, ?_, by decide +kernel, ?_, by decide +kernel⟩
  · exact (hearliest 6 reaches_dawdlingHost).2
  · exact hmade 3 (reaches_dawdlingHost.of_le (by decide)) hlag
  · exact hsaved 5 6 (by decide) reaches_dawdlingHost

end Play

end ChipVM
