import ChipVM.Proofs.Play.FrameTimes

/-!
# The timetable of a play

A host that takes no time over anything leaves a play to its pace. Cycles then begin on the grid of
their period. If the period of a frame is no longer than that of a cycle, every cycle shows a frame;
if it is longer, the frames' deadlines stay on a grid of their own, and each is met by the first
cycle that is not before it.
-/

namespace ChipVM

/-- For so many cycles the host lets a play go on, shows its frames, and takes no time over this. -/
structure Host.TakesNoTime (host : Host) (cycles : Nat) : Prop where
  stays : ∀ j < cycles, host.reply j = .ok false
  poll : ∀ j < cycles, host.pollTime j = 0
  draw : ∀ j ≤ cycles, host.draw j = .ok 0

namespace Play

variable {host : Host} {pace : Pace} {s : Session} {n k : Nat}

/-- The step of a cycle is run when the cycle begins. -/
theorem Reaches.steppedAt_eq_now (h : Reaches host pace s k) (hhost : host.TakesNoTime n)
    (hk : k < n) : (head host pace s k).steppedAt host = (head host pace s k).session.now := by
  rw [steppedAt_eq, h.atHead.polls, hhost.poll k hk, Nat.add_zero]

/-- A cycle has done its work when it has run its step. -/
theorem Reaches.doneAt_eq_steppedAt (h : Reaches host pace s (k + 1))
    (hhost : host.TakesNoTime n) (hk : k < n) :
    (head host pace s k).doneAt host pace = (head host pace s k).steppedAt host := by
  rcases h.timed.doneAt_eq with heq | ⟨-, htime⟩
  · exact heq
  · have hframes := (reaches_succ_iff.mp h).1.atHead.frames_le
    have hdraw := hhost.draw _ (Nat.le_trans hframes (Nat.le_of_lt hk))
    have hzero := Except.ok.inj (htime.symm.trans hdraw)
    exact Nat.le_antisymm (Nat.le_of_sub_eq_zero hzero) h.timed.steppedAt_le

/-- Each cycle begins at its deadline, which is a number of periods from the start. -/
theorem Reaches.onTime (h : Reaches host pace s k) (hhost : host.TakesNoTime n) (hk : k ≤ n) :
    (head host pace s k).due.cycle = s.now + k * pace.cyclePeriod ∧
      (head host pace s k).session.now = s.now + k * pace.cyclePeriod := by
  induction k with
  | zero =>
    rw [Nat.zero_mul]
    exact ⟨rfl, rfl⟩
  | succ k ih =>
    have hpast := (reaches_succ_iff.mp h).1
    obtain ⟨hdue, hnow⟩ := ih hpast (Nat.le_of_succ_le hk)
    have hdone : (head host pace s k).doneAt host pace = s.now + k * pace.cyclePeriod :=
      (h.doneAt_eq_steppedAt hhost hk).trans ((hpast.steppedAt_eq_now hhost hk).trans hnow)
    have hnext : (head host pace s (k + 1)).due.cycle = s.now + (k + 1) * pace.cyclePeriod := by
      rw [h.timed.cycle, Deadlines.cycle_afterCycle_of_le (by lia), hdue, Nat.succ_mul,
        Nat.add_assoc]
    refine ⟨hnext, ?_⟩
    rw [h.timed.now, Deadlines.restUntil, ← h.timed.cycle, hnext, hdone, Nat.succ_mul]
    lia

/-- Where nothing takes time, cycle `k` is stepped `k` periods after the start. -/
theorem Reaches.steppedAt_onTime (h : Reaches host pace s k) (hhost : host.TakesNoTime n)
    (hk : k < n) : (head host pace s k).steppedAt host = s.now + k * pace.cyclePeriod :=
  (h.steppedAt_eq_now hhost hk).trans (h.onTime hhost (Nat.le_of_lt hk)).2

/-- If a frame's period is no longer than a cycle's, every cycle shows a frame. -/
theorem Reaches.frames_of_le (h : Reaches host pace s k) (hhost : host.TakesNoTime n) (hk : k ≤ n)
    (hperiods : pace.framePeriod ≤ pace.cyclePeriod) :
    (head host pace s k).frames = k ∧
      (head host pace s k).due.frame ≤ s.now + k * pace.cyclePeriod := by
  induction k with
  | zero =>
    rw [Nat.zero_mul]
    exact ⟨rfl, Nat.le_refl _⟩
  | succ k ih =>
    have hpast := (reaches_succ_iff.mp h).1
    obtain ⟨hframes, hdue⟩ := ih hpast (Nat.le_of_succ_le hk)
    have hstepped := hpast.steppedAt_onTime hhost hk
    rcases h.frame_cases with ⟨-, hle, hshown, hnext⟩ | ⟨-, hearly, -, -⟩
    · have hmem := (Deadlines.frame_afterFrame_mem (p := pace) hle).2
      refine ⟨hshown.trans (congrArg (· + 1) hframes), ?_⟩
      rw [hnext, Nat.succ_mul]
      lia
    · exact absurd hearly (Nat.not_lt.mpr (hstepped ▸ hdue))

/-- How many deadlines of frames lie before the end of so many cycles, if the frames' period is the
longer one. -/
def framesOnTime (pace : Pace) : Nat → Nat
  | 0 => 0
  | k + 1 => k * pace.cyclePeriod / pace.framePeriod + 1

/-- After a cycle the next deadline of a frame lies past the cycle's own time. -/
theorem mul_lt_framesOnTime_mul (hperiods : pace.cyclePeriod < pace.framePeriod) (j : Nat) :
    j * pace.cyclePeriod < framesOnTime pace (j + 1) * pace.framePeriod :=
  (Nat.div_lt_iff_lt_mul (Nat.zero_lt_of_lt hperiods)).mp (Nat.lt_succ_self _)

/-- A cycle is never a whole period behind the next deadline of a frame. -/
theorem mul_le_framesOnTime_mul (hperiods : pace.cyclePeriod < pace.framePeriod) (k : Nat) :
    k * pace.cyclePeriod ≤ framesOnTime pace k * pace.framePeriod + pace.framePeriod := by
  cases k with
  | zero =>
    rw [Nat.zero_mul]
    exact Nat.zero_le _
  | succ j =>
    have hpast := mul_lt_framesOnTime_mul hperiods j
    rw [Nat.succ_mul]
    lia

/-- A cycle that passes a deadline passes just the next one. -/
theorem framesOnTime_succ_of_le (hperiods : pace.cyclePeriod < pace.framePeriod)
    (hpassed : framesOnTime pace k * pace.framePeriod ≤ k * pace.cyclePeriod) :
    framesOnTime pace (k + 1) = framesOnTime pace k + 1 := by
  cases k with
  | zero =>
    simp only [framesOnTime, Nat.zero_mul, Nat.zero_div]
  | succ j =>
    have hahead := mul_lt_framesOnTime_mul hperiods j
    have hnext : (j + 1) * pace.cyclePeriod <
        (framesOnTime pace (j + 1) + 1) * pace.framePeriod := by
      rw [Nat.succ_mul, Nat.succ_mul]
      lia
    exact congrArg (· + 1) (Nat.div_eq_of_lt_le hpassed hnext)

/-- A cycle before the next deadline passes none. -/
theorem framesOnTime_succ_of_lt (hahead : k * pace.cyclePeriod <
    framesOnTime pace k * pace.framePeriod) :
    framesOnTime pace (k + 1) = framesOnTime pace k := by
  cases k with
  | zero =>
    rw [framesOnTime, Nat.zero_mul, Nat.zero_mul] at hahead
    exact absurd hahead (Nat.not_lt_zero _)
  | succ j =>
    have hpast : j * pace.cyclePeriod / pace.framePeriod * pace.framePeriod ≤
        (j + 1) * pace.cyclePeriod := by
      have hle := Nat.div_mul_le_self (j * pace.cyclePeriod) pace.framePeriod
      rw [Nat.succ_mul j]
      exact Nat.le_trans hle (Nat.le_add_right ..)
    exact congrArg (· + 1) (Nat.div_eq_of_lt_le hpast hahead)

/-- If a frame's period is the longer one, the deadlines of the frames stay on their grid. -/
theorem Reaches.frames_of_lt (h : Reaches host pace s k) (hhost : host.TakesNoTime n) (hk : k ≤ n)
    (hperiods : pace.cyclePeriod < pace.framePeriod) :
    (head host pace s k).frames = framesOnTime pace k ∧
      (head host pace s k).due.frame = s.now + framesOnTime pace k * pace.framePeriod := by
  induction k with
  | zero =>
    rw [framesOnTime, Nat.zero_mul]
    exact ⟨rfl, rfl⟩
  | succ k ih =>
    have hpast := (reaches_succ_iff.mp h).1
    obtain ⟨hframes, hdue⟩ := ih hpast (Nat.le_of_succ_le hk)
    have hstepped := hpast.steppedAt_onTime hhost hk
    have hbehind := mul_le_framesOnTime_mul hperiods k
    rcases h.frame_cases with ⟨-, hle, hshown, hnext⟩ | ⟨-, hearly, hkept, hstays⟩
    · have hpassed : framesOnTime pace k * pace.framePeriod ≤ k * pace.cyclePeriod := by
        rw [hdue, hstepped] at hle
        exact Nat.le_of_add_le_add_left hle
      -- the cycle is less than a period late, so the next deadline is not set afresh
      rw [framesOnTime_succ_of_le hperiods hpassed, hshown, hframes, hnext,
        Deadlines.frame_afterFrame_of_le (by lia), hdue, Nat.succ_mul, Nat.add_assoc]
      exact ⟨rfl, rfl⟩
    · have hahead : k * pace.cyclePeriod < framesOnTime pace k * pace.framePeriod := by
        rw [hdue, hstepped] at hearly
        exact Nat.lt_of_add_lt_add_left hearly
      rw [framesOnTime_succ_of_lt hahead, hkept, hstays]
      exact ⟨hframes, hdue⟩

/-- A play that gets to its limit ends there with one more frame. -/
theorem Reaches.ended_of_limit {time : Nanos} (h : Reaches host pace s k)
    (hlimit : pace.limit = some k) (hdraw : host.draw (head host pace s k).frames = .ok time)
    (hn : k < n) :
    ∃ p, run host pace n (start s) = .ended p .enough ∧ p.cycles = k ∧
      p.frames = (head host pace s k).frames + 1 ∧
      p.session.now = (head host pace s k).session.now + time := by
  have hreached : pace.reached (head host pace s k).cycles = true :=
    Pace.reached_eq_true_iff.mpr ⟨k, hlimit, Nat.le_of_eq h.atHead.cycles.symm⟩
  obtain ⟨r, hr⟩ := draw_of_ok hdraw
  have hc : (head host pace s k).cycle host pace = .ended r .enough := by
    rw [cycle_of_reached hreached, finish, hr]
  obtain ⟨_, htime, rfl⟩ := draw_eq_ok_iff.mp hr
  cases hdraw.symm.trans htime
  exact ⟨_, run_eq_ended_iff.mpr ⟨k, hn, _, h, hc⟩, h.atHead.cycles, rfl, rfl⟩

/-- If the host lets a play of `n` cycles go on, shows its frames and takes no time over this, then
cycle `k` runs its step `k` periods after the start, and the play ends at its limit, `n` periods
after the start. If frames are due no less often than cycles, every cycle shows a frame; if they are
due less often, the cycles show as many frames as have deadlines until the last of them. One more
frame is shown at the end. -/
theorem ideal_timetable {host : Host} {n : Nat} (hhost : host.TakesNoTime n)
    (cycles frames : Nat) (s : Session) :
    let pace := Pace.ofRates cycles frames (some n)
    let cyclePeriod := Nanos.second / max cycles 1
    let framePeriod := Nanos.second / max frames 1
    (∀ k < n, RunsCycle host pace s k ∧
      (head host pace s k).steppedAt host = s.now + k * cyclePeriod) ∧
    ∀ m > n, ∃ p, run host pace m (start s) = .ended p .enough ∧ p.cycles = n ∧
      p.session.now = s.now + n * cyclePeriod ∧
      p.frames =
        if framePeriod ≤ cyclePeriod then n + 1
        else if n = 0 then 1
        else (n - 1) * cyclePeriod / framePeriod + 2 := by
  intro pace cyclePeriod framePeriod
  have hend : Reaches host pace s n :=
    reaches_of_stopsAfter ⟨hhost.stays, Or.inl rfl⟩ fun j hj => ⟨0, hhost.draw j hj⟩
  constructor
  · intro k hk
    have hreaches := hend.of_le hk
    exact ⟨hreaches.runsCycle, hreaches.runsCycle.reaches.steppedAt_onTime hhost hk⟩
  · intro m hm
    have hdraw := hhost.draw _ hend.atHead.frames_le
    obtain ⟨p, hp, hcycles, hframes, hnow⟩ := hend.ended_of_limit rfl hdraw hm
    refine ⟨p, hp, hcycles, hnow.trans (hend.onTime hhost (Nat.le_refl n)).2, ?_⟩
    rw [hframes]
    by_cases hperiods : framePeriod ≤ cyclePeriod
    · rw [if_pos hperiods, (hend.frames_of_le hhost (Nat.le_refl n) hperiods).1]
    · have hrare := (hend.frames_of_lt hhost (Nat.le_refl n) (Nat.lt_of_not_le hperiods)).1
      rw [if_neg hperiods, hrare]
      cases n with
      | zero => rfl
      | succ k => rfl

/-- A host that does nothing and takes no time over it. -/
def idleHost : Host := Script.host ⟨[], 0, 0, none⟩

theorem takesNoTime_idleHost (cycles : Nat) : idleHost.TakesNoTime cycles :=
  ⟨fun _ _ => rfl, fun _ _ => rfl, fun _ _ => rfl⟩

/-- At seven hundred cycles and sixty frames per second, thirty cycles show three frames. If the
rates are swapped, each of them shows one. -/
theorem idleHost_keeps_timetable :
    idleHost.TakesNoTime 30 ∧
    (head idleHost (Pace.ofRates 700 60 (some 30)) faultingSession 24).steppedAt idleHost =
      24 * 1428571 ∧
    (∃ p, run idleHost (Pace.ofRates 700 60 (some 30)) 31 (start faultingSession) =
      .ended p .enough ∧ p.session.now = 30 * 1428571 ∧ p.frames = 3 + 1) ∧
    ∃ p, run idleHost (Pace.ofRates 60 700 (some 30)) 31 (start faultingSession) =
      .ended p .enough ∧ p.session.now = 30 * 16666666 ∧ p.frames = 30 + 1 := by
  have hhost := takesNoTime_idleHost 30
  obtain ⟨hstepped, hended⟩ := ideal_timetable hhost 700 60 faultingSession
  obtain ⟨p, hp, -, hnow, hframes⟩ := hended 31 (by decide)
  obtain ⟨-, hended'⟩ := ideal_timetable hhost 60 700 faultingSession
  obtain ⟨q, hq, -, hnow', hframes'⟩ := hended' 31 (by decide)
  refine ⟨hhost, ?_, ⟨p, hp, ?_, ?_⟩, q, hq, ?_, ?_⟩
  · exact (hstepped 24 (by decide)).2.trans (by decide +kernel)
  · exact hnow.trans (by decide +kernel)
  · exact hframes.trans (by decide)
  · exact hnow'.trans (by decide +kernel)
  · exact hframes'.trans (by decide)

end Play

end ChipVM
