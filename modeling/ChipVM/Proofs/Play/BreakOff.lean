import ChipVM.Proofs.Play.Clock

/-!
# How a play breaks off

A play breaks off at the first thing that its host fails to do: a poll, a frame that is due in a
cycle, or the last frame. It reports that failure, and what has been done by then stays done: the
polls and steps before it, in their order, and the frames that were shown. A step that fails never
breaks a play off.
-/

namespace ChipVM

namespace Play

variable {host : Host} {pace : Pace} {s : Session} {fault : HostFault}

/-- Cycle `k` of a play is carried through: it is below the limit, and the host lets the play go on
and shows the frame if one is due. What comes of the step plays no part in this. -/
structure CarriedThrough (host : Host) (pace : Pace) (s : Session) (k : Nat) : Prop where
  unreached : pace.reached k = false
  stays : host.reply k = .ok false
  shown : (head host pace s k).showsFrame host = true →
    ∃ time, host.draw (head host pace s k).frames = .ok time

/-- A play gets past a cycle that it gets to when that cycle is carried through. -/
theorem reaches_succ_iff_carriedThrough {k : Nat} :
    Reaches host pace s (k + 1) ↔ Reaches host pace s k ∧ CarriedThrough host pace s k := by
  constructor
  · intro h
    obtain ⟨hpast, hc⟩ := reaches_succ_iff.mp h
    obtain ⟨-, -, hshown⟩ := exists_going_iff.mp ⟨_, hc⟩
    exact ⟨hpast, h.runsCycle.unreached, h.runsCycle.stays, hshown⟩
  · rintro ⟨hpast, hk⟩
    have hgoing : ∃ r, (head host pace s k).cycle host pace = .going r :=
      exists_going_iff.mpr ⟨hpast.atHead.cycles.symm ▸ hk.unreached,
        hpast.atHead.polls.symm ▸ hk.stays, hk.shown⟩
    obtain ⟨r, hc⟩ := hgoing
    exact reaches_of_going (run_succ_eq_going_iff.mpr ⟨_, hpast, hc⟩)

/-- A play gets to a cycle when all cycles before have been carried through. -/
theorem reaches_iff {k : Nat} :
    Reaches host pace s k ↔ ∀ j < k, CarriedThrough host pace s j := by
  constructor
  · intro h j hj
    exact (reaches_succ_iff_carriedThrough.mp (h.of_le hj)).2
  · intro h
    induction k with
    | zero => exact reaches_zero s
    | succ k ih =>
      have hpast := ih fun j hj => h j (Nat.lt_succ_of_lt hj)
      exact reaches_succ_iff_carriedThrough.mpr ⟨hpast, h k (Nat.lt_succ_self k)⟩

/-- How the host fails a play in cycle `k`, with how many cycles and polls the play then has behind
it and the session that is left. -/
inductive FailsIn (host : Host) (pace : Pace) (s : Session) (k : Nat) (fault : HostFault) :
    Nat → Nat → Session → Prop where
  /-- The poll fails, and no step is run. -/
  | poll (hlimit : pace.reached k = false) (hfails : host.reply k = .error fault) :
    FailsIn host pace s k fault k (k + 1) (s.beforeStep host (pauseAfter host pace s) k)
  /-- The step has been run, but the frame that is then due cannot be shown. -/
  | frame (hlimit : pace.reached k = false) (hstays : host.reply k = .ok false)
      (hdue : (head host pace s k).showsFrame host = true)
      (hfails : host.draw (head host pace s k).frames = .error fault) :
    FailsIn host pace s k fault (k + 1) (k + 1)
      (s.beforeStep host (pauseAfter host pace s) k).step
  /-- Enough cycles have been run, but the last frame cannot be shown. -/
  | lastOfEnough (hlimit : pace.reached k = true)
      (hfails : host.draw (head host pace s k).frames = .error fault) :
    FailsIn host pace s k fault k k (s.driven host (pauseAfter host pace s) k)
  /-- The host asks to stop, but cannot show the last frame. -/
  | lastOfQuit (hlimit : pace.reached k = false) (hasks : host.reply k = .ok true)
      (hfails : host.draw (head host pace s k).frames = .error fault) :
    FailsIn host pace s k fault k (k + 1) (s.beforeStep host (pauseAfter host pace s) k)

/-- If the host fails a play in a cycle that it gets to, the play ends there with that failure. -/
theorem FailsIn.ended {k cycles polls : Nat} {t : Session}
    (hf : FailsIn host pace s k fault cycles polls t) (h : Reaches host pace s k) :
    ∃ p, (head host pace s k).cycle host pace = .ended p (.failed fault) ∧
      p.cycles = cycles ∧ p.polls = polls ∧ p.session = t ∧
      p.shots = (head host pace s k).shots ∧
      p.failures.reverse = (List.range cycles).filterMap fun j =>
        (s.beforeStep host (pauseAfter host pace s) j).failure? := by
  have hcycles := h.atHead.cycles
  have hpolls := h.atHead.polls
  have hpolled := h.polled_eq
  cases hf with
  | poll hlimit hfails =>
    have hc := cycle_of_fails (hcycles.symm ▸ hlimit) (hpolls.symm ▸ hfails)
    exact ⟨_, hc, hcycles, congrArg (· + 1) hpolls, hpolled, rfl, h.atHead.failures⟩
  | frame hlimit hstays hdue hfails =>
    have hc := RunsCycle.cycle_eq ⟨h, hlimit, hstays⟩
    rcases ((head host pace s k).poll host).1.step.drawIfDue_cases host pace with
      ⟨hdark, -⟩ | ⟨-, time, htime, -⟩ | ⟨-, fault', hfails', hd⟩
    · cases hdue.symm.trans hdark
    · cases hfails.symm.trans htime
    · cases hfails.symm.trans hfails'
      rw [hd] at hc
      obtain ⟨hstep, hfailed⟩ := (head host pace s k).step_poll host
      refine ⟨_, hc, congrArg (· + 1) hcycles, congrArg (· + 1) hpolls, ?_, rfl, ?_⟩
      · rw [hstep, hpolled]
      · rw [hfailed, hpolled]
        exact reverse_toList_append h.atHead.failures
  | lastOfEnough hlimit hfails =>
    have hc := (cycle_of_reached (hcycles.symm ▸ hlimit)).trans (finish_of_error hfails .enough)
    exact ⟨_, hc, hcycles, hpolls, h.atHead.session k (Nat.le_refl k), rfl, h.atHead.failures⟩
  | lastOfQuit hlimit hasks hfails =>
    have hlast : host.draw ((head host pace s k).poll host).1.frames = .error fault := hfails
    have hc := (cycle_of_asks (hcycles.symm ▸ hlimit) (hpolls.symm ▸ hasks)).trans
      (finish_of_error hlast .quit)
    exact ⟨_, hc, hcycles, congrArg (· + 1) hpolls, hpolled, rfl, h.atHead.failures⟩

/-- A cycle that ends a play with a failure is one in which the host fails it. -/
theorem Reaches.exists_failsIn {k : Nat} {p : Play} (h : Reaches host pace s k)
    (hend : (head host pace s k).cycle host pace = .ended p (.failed fault)) :
    ∃ cycles polls t, FailsIn host pace s k fault cycles polls t := by
  have hcycles := h.atHead.cycles
  have hpolls := h.atHead.polls
  rcases (head host pace s k).cycle_cases host pace with
    ⟨hr, hc⟩ | ⟨hr, fault', hfails, hc⟩ | ⟨hr, hasks, hc⟩ | ⟨hr, hstays, hc⟩
  all_goals rw [hcycles] at hr
  · rw [hc] at hend
    rcases (head host pace s k).finish_cases host .enough with ⟨q, -, hf⟩ | ⟨fault', hd, hf⟩
    · cases hf.symm.trans hend
    · cases hf.symm.trans hend
      exact ⟨_, _, _, .lastOfEnough hr (draw_eq_error_iff.mp hd)⟩
  · cases hc.symm.trans hend
    exact ⟨_, _, _, .poll hr (hpolls ▸ hfails)⟩
  · rw [hc] at hend
    rcases ((head host pace s k).poll host).1.finish_cases host .quit with
      ⟨q, -, hf⟩ | ⟨fault', hd, hf⟩
    · cases hf.symm.trans hend
    · cases hf.symm.trans hend
      have hlast := draw_eq_error_iff.mp hd
      exact ⟨_, _, _, .lastOfQuit hr (hpolls ▸ hasks) hlast⟩
  · rw [hc] at hend
    rcases ((head host pace s k).poll host).1.step.drawIfDue_cases host pace with
      ⟨-, hd⟩ | ⟨-, time, -, hd⟩ | ⟨hdue, fault', hfails, hd⟩
    · rw [hd] at hend
      cases hend
    · rw [hd] at hend
      cases hend
    · rw [hd] at hend
      cases hend
      exact ⟨_, _, _, .frame hr (hpolls ▸ hstays) hdue hfails⟩

/-- Let cycle `k` be the first that the host does not carry through. If it fails the play there, the
play ends with that failure, however many cycles it might still run: in the session to which the
polls and steps before the failure lead, having shown the frames that were due before it and noted
the steps that failed. A play ends with a failure in no other way, and whatever its steps come to,
it goes on as long as its cycles are carried through. -/
theorem play_breaks_off (host : Host) (pace : Pace) (s : Session) (fault : HostFault) :
    (∀ k, Reaches host pace s k ↔ ∀ j < k, CarriedThrough host pace s j) ∧
    (∀ k cycles polls t, (∀ j < k, CarriedThrough host pace s j) →
      FailsIn host pace s k fault cycles polls t →
      ∀ n > k, ∃ p, run host pace n (start s) = .ended p (.failed fault) ∧
        p.cycles = cycles ∧ p.polls = polls ∧ p.session = t ∧
        p.shots.reverse = ((List.range k).filterMap fun j => (head host pace s j).shot? host) ∧
        p.entries = (List.range cycles).filterMap fun j =>
          let u := s.beforeStep host (pauseAfter host pace s) j
          u.outcome.fault.map fun fault => .stepFailed u.machine.regs.pc fault) ∧
    ∀ n p, run host pace n (start s) = .ended p (.failed fault) →
      ∃ k < n, (∀ j < k, CarriedThrough host pace s j) ∧
        FailsIn host pace s k fault p.cycles p.polls p.session := by
  refine ⟨fun _ => reaches_iff, ?_, ?_⟩
  · intro k cycles polls t hpast hfails n hn
    have h := reaches_iff.mpr hpast
    obtain ⟨p, hc, hcycles, hpolls, hsession, hshots, hfailures⟩ := hfails.ended h
    have hend := run_eq_ended_iff.mpr ⟨k, hn, _, h, hc⟩
    have hentries := (entries_eq_of_failures hfailures).2
    exact ⟨p, hend, hcycles, hpolls, hsession, hshots ▸ h.shots_eq, hentries⟩
  · intro n p hend
    obtain ⟨k, hk, q, hq, hc⟩ := run_eq_ended_iff.mp hend
    have h := reaches_of_going hq
    rw [← head_of_going hq] at hc
    -- the numbers and the session of the failure are those of the play that it leads to
    obtain ⟨_, _, _, hfails⟩ := h.exists_failsIn hc
    obtain ⟨p', hc', rfl, rfl, rfl, -⟩ := hfails.ended h
    cases hc.symm.trans hc'
    exact ⟨k, hk, reaches_iff.mp h, hfails⟩

/-- A screen that is gone. -/
def lostScreen : HostFault := ⟨.brokenPipe, "screen failed"⟩

/-- A host that is held up at the second poll and cannot show the second frame. -/
def brittleHost : Host := Script.host ⟨[(1, .wait 30000000)], 5, 7, some (1, lostScreen)⟩

/-- The second frame is due in the second cycle. The play breaks off there after two steps, of which
the first one failed. -/
theorem brittleHost_breaks_off :
    let pace := Pace.standard none
    let left := (faultingSession.beforeStep brittleHost
      (pauseAfter brittleHost pace faultingSession) 1).step
    (∀ j < 1, CarriedThrough brittleHost pace faultingSession j) ∧
    FailsIn brittleHost pace faultingSession 1 lostScreen 2 2 left ∧
    ∃ p, run brittleHost pace 5 (start faultingSession) = .ended p (.failed lostScreen) ∧
      p.cycles = 2 ∧ p.polls = 2 ∧ p.session = left ∧ left.machine.awaitingKey = true ∧
      p.shots.map Shot.time = [5] ∧
      p.entries = [.stepFailed 0x200 (.unimplemented ⟨0xE0FF⟩)] ∧
      ∃ k < 5, (∀ j < k, CarriedThrough brittleHost pace faultingSession j) ∧
        FailsIn brittleHost pace faultingSession k lostScreen p.cycles p.polls p.session := by
  intro pace left
  have hfirst : ∀ j < 1, CarriedThrough brittleHost pace faultingSession j
    | 0, _ => ⟨rfl, rfl, fun _ => ⟨7, rfl⟩⟩
  have hnumber : (head brittleHost pace faultingSession 1).frames = 1 := by decide +kernel
  have hfails : FailsIn brittleHost pace faultingSession 1 lostScreen 2 2 left :=
    .frame rfl rfl (by decide +kernel) (hnumber ▸ rfl)
  obtain ⟨-, hends, honly⟩ := play_breaks_off brittleHost pace faultingSession lostScreen
  obtain ⟨p, hp, hcycles, hpolls, hsession, hshots, hentries⟩ :=
    hends 1 2 2 left hfirst hfails 5 (by decide)
  refine ⟨hfirst, hfails, p, hp, hcycles, hpolls, hsession, by decide +kernel, ?_, ?_,
    honly 5 p hp⟩
  · rw [← List.reverse_inj, ← List.map_reverse, hshots]
    decide +kernel
  · rw [hentries]
    decide +kernel

end Play

end ChipVM
