import ChipVM.Proofs.Play.Fold

/-!
# The clock of a play

A poll and a frame take the time that the host takes over them, a step takes none, and a rest lasts
until the next cycle may start. So a cycle that the play survives is told by two readings of the
clock: one after its step, which decides whether a frame is due, and one when its work is done, from
which the deadline of the next cycle is reckoned.
-/

namespace ChipVM

/-- The time that the host takes over a poll in which it does all this. -/
def HostAction.timeTaken : List HostAction → Nanos
  | [] => 0
  | .key _ :: rest => timeTaken rest
  | .wait time :: rest => time + timeTaken rest
  | .quit :: rest => timeTaken rest
  | .fail _ :: _ => 0

/-- The time that the host takes over a poll. -/
def Host.pollTime (host : Host) (call : Nat) : Nanos := HostAction.timeTaken (host.poll call)

/-- A poll takes the time that its actions take. -/
theorem Session.now_poll (s : Session) (actions : List HostAction) :
    (s.poll actions).1.now = s.now + HostAction.timeTaken actions := by
  induction actions generalizing s with
  | nil => rfl
  | cons a rest ih =>
    cases a with
    | key change => exact ih _
    | wait time => exact (ih _).trans (Nat.add_assoc ..)
    | quit => exact ih s
    | fail fault => rfl

namespace Play

variable {host : Host} {pace : Pace}

/-- When the cycle runs its step. No time has passed when the clock is read after it. -/
def steppedAt (p : Play) (host : Host) : Nanos := (p.polled host).now

/-- When the cycle has done its work: if a frame was due, it has been shown. -/
def doneAt (p : Play) (host : Host) (pace : Pace) : Nanos :=
  match (p.poll host).1.step.drawIfDue host pace with
  | .ok q => q.session.now
  | .error _ => p.steppedAt host

/-- The frame that the cycle shows, if one is due. -/
def shot? (p : Play) (host : Host) : Option Shot :=
  if p.showsFrame host then some ⟨p.steppedAt host, (p.polled host).step.machine.display⟩ else none

/-- The machine is stepped when the poll is over. -/
theorem steppedAt_eq (p : Play) (host : Host) :
    p.steppedAt host = p.session.now + host.pollTime p.polls := p.session.now_poll _

/-- What a cycle that the play survived has done to the clock, the deadlines and the frames. -/
structure Timed (host : Host) (pace : Pace) (p r : Play) : Prop where
  steppedAt_le : p.steppedAt host ≤ p.doneAt host pace
  /-- A frame takes the time that the host takes over it; nothing else takes any after the step. -/
  doneAt_eq : p.doneAt host pace = p.steppedAt host ∨ p.showsFrame host = true ∧
    host.draw p.frames = .ok (p.doneAt host pace - p.steppedAt host)
  cycle : r.due.cycle = (p.due.afterCycle pace (p.doneAt host pace)).cycle
  frame : r.due.frame = if p.showsFrame host then
    (p.due.afterFrame pace (p.steppedAt host)).frame else p.due.frame
  now : r.session.now =
    (p.due.afterCycle pace (p.doneAt host pace)).restUntil (p.doneAt host pace)
  shots : r.shots = (p.shot? host).toList ++ p.shots

/-- A cycle that the play survives is timed. -/
theorem timed_of_going {p r : Play} (h : p.cycle host pace = .going r) : Timed host pace p r := by
  obtain ⟨-, -, q, hq, rfl⟩ := cycle_eq_going_iff.mp h
  have hdone : p.doneAt host pace = q.session.now := by rw [doneAt, hq]
  rcases (p.poll host).1.step.drawIfDue_cases host pace with
    ⟨hdue, hd⟩ | ⟨hdue, time, htime, hd⟩ | ⟨-, fault, -, hd⟩
  · have hshows : p.showsFrame host = false := hdue
    cases hq.symm.trans hd
    have hnow : p.doneAt host pace = p.steppedAt host := hdone
    refine ⟨Nat.le_of_eq hnow.symm, Or.inl hnow, ?_, ?_, ?_, ?_⟩
    · rw [hdone]
      rfl
    · rw [hshows]
      rfl
    · rw [hdone]
      rfl
    · rw [shot?, hshows]
      rfl
  · have hshows : p.showsFrame host = true := hdue
    cases hq.symm.trans hd
    have hnow : p.doneAt host pace = p.steppedAt host + time := hdone
    refine ⟨hnow ▸ Nat.le_add_right .., Or.inr ⟨hshows, ?_⟩, ?_, ?_, ?_, ?_⟩
    · rw [hnow, Nat.add_sub_cancel_left]
      exact htime
    · rw [hdone]
      rfl
    · rw [hshows]
      rfl
    · rw [hdone]
      rfl
    · rw [shot?, hshows]
      rfl
  · cases hq.symm.trans hd

/-- The play gets to cycle `k`. -/
def Reaches (host : Host) (pace : Pace) (s : Session) (k : Nat) : Prop :=
  run host pace k (start s) = .going (head host pace s k)

/-- The play runs the step of cycle `k`: it gets there below its limit, and the host lets it go
on. -/
structure RunsCycle (host : Host) (pace : Pace) (s : Session) (k : Nat) : Prop where
  reaches : Reaches host pace s k
  unreached : pace.reached k = false
  stays : host.reply k = .ok false

variable {s : Session} {k : Nat}

theorem reaches_zero (s : Session) : Reaches host pace s 0 := rfl

theorem reaches_of_going {q : Play} (h : run host pace k (start s) = .going q) :
    Reaches host pace s k := by
  rw [Reaches, head_of_going h]
  exact h

theorem Reaches.atHead (h : Reaches host pace s k) :
    AtHead host pace s k (head host pace s k) := atHead_of_going h

/-- A play that stops after `k` cycles reaches that many, if every frame can be drawn. -/
theorem reaches_of_stopsAfter (hstop : StopsAfter host pace k)
    (hdraw : ∀ j ≤ k, ∃ time, host.draw j = .ok time) : Reaches host pace s k := by
  obtain ⟨q, hq, -⟩ := going_of_stopsAfter (s := s) hstop hdraw (Nat.le_refl k)
  exact reaches_of_going hq

/-- A play gets to the cycle after one that it gets to and survives. -/
theorem reaches_succ_iff :
    Reaches host pace s (k + 1) ↔ Reaches host pace s k ∧
      (head host pace s k).cycle host pace = .going (head host pace s (k + 1)) := by
  constructor
  · intro h
    obtain ⟨q, hq, hc⟩ := run_succ_eq_going_iff.mp h
    have hreaches := reaches_of_going hq
    cases hreaches.symm.trans hq
    exact ⟨hreaches, hc⟩
  · intro ⟨h, hc⟩
    exact run_succ_eq_going_iff.mpr ⟨_, h, hc⟩

/-- With a cycle all earlier ones are reached. -/
theorem Reaches.of_le {j : Nat} (h : Reaches host pace s k) (hj : j ≤ k) :
    Reaches host pace s j := by
  induction k with
  | zero => exact Nat.le_zero.mp hj ▸ h
  | succ k ih =>
    rcases Nat.le_succ_iff.mp hj with hle | rfl
    · exact ih (reaches_succ_iff.mp h).1 hle
    · exact h

/-- A cycle before one that is reached is run. -/
theorem Reaches.runsCycle (h : Reaches host pace s (k + 1)) : RunsCycle host pace s k where
  reaches := (reaches_succ_iff.mp h).1
  unreached := h.atHead.unreached k (Nat.lt_succ_self k)
  stays := h.atHead.stays k (Nat.lt_succ_self k)

/-- A cycle that is run polls, steps, draws if a frame is due, and rests. -/
theorem RunsCycle.cycle_eq (h : RunsCycle host pace s k) :
    (head host pace s k).cycle host pace =
      match ((head host pace s k).poll host).1.step.drawIfDue host pace with
      | .error fault => .ended ((head host pace s k).poll host).1.step (.failed fault)
      | .ok r => .going (r.rest pace) :=
  cycle_of_stays (h.reaches.atHead.cycles.symm ▸ h.unreached)
    (h.reaches.atHead.polls.symm ▸ h.stays)

/-- From one head to the next there is one cycle, and it is timed. -/
theorem Reaches.timed (h : Reaches host pace s (k + 1)) :
    Timed host pace (head host pace s k) (head host pace s (k + 1)) :=
  timed_of_going (reaches_succ_iff.mp h).2

/-- The session that a cycle steps is the one driven through the pauses so far. -/
theorem Reaches.polled_eq (h : Reaches host pace s k) :
    (head host pace s k).polled host = s.beforeStep host (pauseAfter host pace s) k := by
  rw [polled, h.atHead.polls, h.atHead.session k (Nat.le_refl k)]
  rfl

/-- The frames that a play has shown are those of its cycles that found one due. -/
theorem Reaches.shots_eq (h : Reaches host pace s k) :
    (head host pace s k).shots.reverse =
      (List.range k).filterMap fun j => (head host pace s j).shot? host := by
  induction k with
  | zero => rfl
  | succ k ih =>
    rw [h.timed.shots]
    exact reverse_toList_append (g := fun j => (head host pace s j).shot? host)
      (ih (reaches_succ_iff.mp h).1)

end Play

end ChipVM
