import ChipVM.Play

/-!
# What one cycle does

A poll touches the keys and the clock and never the machine; its answer does not depend on the
session. A cycle that the play survives polls once, runs one step, and then at most shows a frame
and lets time pass. A play that ends without a failure ends before the poll or right after it, and shows
one frame more.
-/

namespace ChipVM

namespace HostAction

/-- What a host answers to a poll in which it does all this. -/
def reply : List HostAction → Except HostFault Bool
  | [] => .ok false
  | .key _ :: rest => reply rest
  | .wait _ :: rest => reply rest
  | .quit :: rest => (reply rest).map fun _ => true
  | .fail fault :: _ => .error fault

/-- The changes that it makes to the keys, in order. -/
def keyChanges : List HostAction → List KeyChange
  | [] => []
  | .key change :: rest => change :: keyChanges rest
  | .wait _ :: rest => keyChanges rest
  | .quit :: rest => keyChanges rest
  | .fail _ :: _ => []

end HostAction

/-- What the host answers to a poll. -/
def Host.reply (host : Host) (call : Nat) : Except HostFault Bool :=
  HostAction.reply (host.poll call)

/-- The changes that the host makes to the keys at a poll. -/
def Host.keyChanges (host : Host) (call : Nat) : List KeyChange :=
  HostAction.keyChanges (host.poll call)

namespace Session

/-- The reply to a poll is that of its actions. -/
theorem reply_poll (s : Session) (actions : List HostAction) :
    (s.poll actions).2 = HostAction.reply actions := by
  induction actions generalizing s with
  | nil => rfl
  | cons a rest ih =>
    cases a with
    | key change => exact ih _
    | wait time => exact ih _
    | quit => exact congrArg (Except.map fun _ => true) (ih s)
    | fail fault => rfl

@[simp] theorem machine_poll (s : Session) (actions : List HostAction) :
    (s.poll actions).1.machine = s.machine := by
  induction actions generalizing s with
  | nil => rfl
  | cons a rest ih =>
    cases a with
    | key change => exact ih _
    | wait time => exact ih _
    | quit => exact ih s
    | fail fault => rfl

/-- A poll changes the keypad by its key changes alone. -/
theorem keys_poll (s : Session) (actions : List HostAction) :
    (s.poll actions).1.keys = (HostAction.keyChanges actions).foldl Keypad.apply s.keys := by
  induction actions generalizing s with
  | nil => rfl
  | cons a rest ih =>
    cases a with
    | key change => exact ih _
    | wait time => exact ih _
    | quit => exact ih s
    | fail fault => rfl

/-- Where the next step fails and why, if it does. -/
def failure? (s : Session) : Option (UInt16 × Fault) :=
  s.outcome.fault.map fun fault => (s.machine.regs.pc, fault)

end Session

namespace Play

variable {host : Host} {pace : Pace}

/-- The session that the cycle's step runs from: the host has been polled. -/
def polled (p : Play) (host : Host) : Session := (p.session.poll (host.poll p.polls)).1

/-- The cycle shows a frame. -/
def showsFrame (p : Play) (host : Host) : Bool := p.due.frameDue (p.polled host).now

/-- A frame is drawn if the host can, and the play has one shot more and is later by the time it
took. -/
theorem draw_eq_ok_iff {p q : Play} :
    p.draw host = .ok q ↔ ∃ time, host.draw p.frames = .ok time ∧
      q = { p with
        shots := ⟨p.session.now, p.session.machine.display⟩ :: p.shots
        session.now := p.session.now + time } := by
  unfold draw
  cases host.draw p.frames with
  | ok time =>
    constructor
    · intro h
      cases h
      exact ⟨time, rfl, rfl⟩
    · rintro ⟨_, h, rfl⟩
      cases h
      rfl
  | error fault => exact ⟨nofun, nofun⟩

/-- A frame is not drawn exactly if the host cannot. -/
theorem draw_eq_error_iff {p : Play} {fault : HostFault} :
    p.draw host = .error fault ↔ host.draw p.frames = .error fault := by
  unfold draw
  cases host.draw p.frames with
  | ok time => exact ⟨nofun, nofun⟩
  | error fault' => exact ⟨fun h => by cases h; rfl, fun h => by cases h; rfl⟩

theorem draw_of_ok {p : Play} {time : Nanos} (h : host.draw p.frames = .ok time) :
    ∃ q, p.draw host = .ok q :=
  ⟨_, draw_eq_ok_iff.mpr ⟨time, h, rfl⟩⟩

/-- A frame that is due is shown or cannot be shown; one that is not due is not asked for. -/
theorem drawIfDue_cases (p : Play) (host : Host) (pace : Pace) :
    (p.due.frameDue p.session.now = false ∧ p.drawIfDue host pace = .ok p) ∨
    (p.due.frameDue p.session.now = true ∧ ∃ time, host.draw p.frames = .ok time ∧
      p.drawIfDue host pace = .ok { p with
        due := p.due.afterFrame pace p.session.now
        shots := ⟨p.session.now, p.session.machine.display⟩ :: p.shots
        session.now := p.session.now + time }) ∨
    (p.due.frameDue p.session.now = true ∧ ∃ fault, host.draw p.frames = .error fault ∧
      p.drawIfDue host pace = .error fault) := by
  unfold drawIfDue draw
  cases p.due.frameDue p.session.now with
  | false => exact Or.inl ⟨rfl, rfl⟩
  | true =>
    right
    cases host.draw p.frames with
    | ok time => exact Or.inl ⟨rfl, time, rfl, rfl⟩
    | error fault => exact Or.inr ⟨rfl, fault, rfl, rfl⟩

/-- Showing a frame if one is due takes time and leaves the rest alone. -/
theorem drawIfDue_eq_ok {p q : Play} (h : p.drawIfDue host pace = .ok q) :
    (∃ time, q.session = p.session.apply (.wait time)) ∧
      q.cycles = p.cycles ∧ q.polls = p.polls ∧ q.failures = p.failures ∧
      q.frames = p.frames + (p.due.frameDue p.session.now).toNat := by
  rcases p.drawIfDue_cases host pace with
    ⟨hdue, hd⟩ | ⟨hdue, time, -, hd⟩ | ⟨-, fault, -, hd⟩
  · cases hd.symm.trans h
    rw [hdue]
    exact ⟨⟨0, rfl⟩, rfl, rfl, rfl, rfl⟩
  · cases hd.symm.trans h
    rw [hdue]
    exact ⟨⟨time, rfl⟩, rfl, rfl, rfl, rfl⟩
  · cases hd.symm.trans h

/-- A play gets past its frames if those that are due can be drawn. -/
theorem exists_drawIfDue_eq_ok_iff {p : Play} : (∃ q, p.drawIfDue host pace = .ok q) ↔
    (p.due.frameDue p.session.now = true → ∃ time, host.draw p.frames = .ok time) := by
  rcases p.drawIfDue_cases host pace with
    ⟨hdue, hd⟩ | ⟨-, time, htime, hd⟩ | ⟨hdue, fault, hfails, hd⟩
  · exact ⟨fun _ h => (nomatch hdue.symm.trans h), fun _ => ⟨_, hd⟩⟩
  · exact ⟨fun _ _ => ⟨time, htime⟩, fun _ => ⟨_, hd⟩⟩
  · constructor
    · rintro ⟨q, hq⟩
      cases hq.symm.trans hd
    · intro h
      obtain ⟨time, htime⟩ := h hdue
      cases htime.symm.trans hfails

/-- A play that is finished shows one frame more, or fails at that. -/
theorem finish_cases (p : Play) (host : Host) (ending : Ending) :
    (∃ q, p.draw host = .ok q ∧ p.finish host ending = .ended q ending) ∨
    ∃ fault, p.draw host = .error fault ∧ p.finish host ending = .ended p (.failed fault) := by
  unfold finish
  cases p.draw host with
  | ok q => exact Or.inl ⟨q, rfl, rfl⟩
  | error fault => exact Or.inr ⟨fault, rfl, rfl⟩

theorem finish_ne_going (p r : Play) (host : Host) (ending : Ending) :
    p.finish host ending ≠ .going r := by
  rcases p.finish_cases host ending with ⟨q, -, h⟩ | ⟨fault, -, h⟩
  all_goals
    rw [h]
    exact nofun

/-- A last frame that can be drawn leaves the ending as it is. -/
theorem finish_of_ok {p : Play} {time : Nanos} (h : host.draw p.frames = .ok time)
    (ending : Ending) : ∃ q, p.finish host ending = .ended q ending := by
  obtain ⟨q, hq⟩ := draw_of_ok h
  exact ⟨q, by rw [finish, hq]⟩

/-- A last frame that cannot be drawn fails the play. -/
theorem finish_of_error {p : Play} {fault : HostFault} (h : host.draw p.frames = .error fault)
    (ending : Ending) : p.finish host ending = .ended p (.failed fault) := by
  rw [finish, draw_eq_error_iff.mpr h]

theorem poll_eq (p : Play) (host : Host) :
    p.poll host = ((p.poll host).1, host.reply p.polls) := Prod.ext rfl (p.session.reply_poll _)

/-- At its limit a play is finished before it is polled. -/
theorem cycle_of_reached {p : Play} (hr : pace.reached p.cycles = true) :
    p.cycle host pace = p.finish host .enough := by
  rw [cycle, if_pos hr]

/-- A poll that fails fails the play. -/
theorem cycle_of_fails {p : Play} {fault : HostFault} (hr : pace.reached p.cycles = false)
    (hreply : host.reply p.polls = .error fault) :
    p.cycle host pace = .ended (p.poll host).1 (.failed fault) := by
  rw [cycle, if_neg (Bool.eq_false_iff.mp hr), poll_eq, hreply]

/-- A host that asks to quit finishes the play before its step. -/
theorem cycle_of_asks {p : Play} (hr : pace.reached p.cycles = false)
    (hreply : host.reply p.polls = .ok true) :
    p.cycle host pace = (p.poll host).1.finish host .quit := by
  rw [cycle, if_neg (Bool.eq_false_iff.mp hr), poll_eq, hreply]

/-- Any other cycle steps, draws if a frame is due, and rests. -/
theorem cycle_of_stays {p : Play} (hr : pace.reached p.cycles = false)
    (hreply : host.reply p.polls = .ok false) :
    p.cycle host pace =
      match (p.poll host).1.step.drawIfDue host pace with
      | .error fault => .ended (p.poll host).1.step (.failed fault)
      | .ok r => .going (r.rest pace) := by
  obtain ⟨q, hq⟩ : ∃ q, p.poll host = (q, .ok false) := ⟨_, hreply ▸ p.poll_eq host⟩
  rw [cycle, if_neg (Bool.eq_false_iff.mp hr)]
  exact hq ▸ rfl

/-- The ways a cycle can go. -/
theorem cycle_cases (p : Play) (host : Host) (pace : Pace) :
    (pace.reached p.cycles = true ∧ p.cycle host pace = p.finish host .enough) ∨
    (pace.reached p.cycles = false ∧ ∃ fault, host.reply p.polls = .error fault ∧
      p.cycle host pace = .ended (p.poll host).1 (.failed fault)) ∨
    (pace.reached p.cycles = false ∧ host.reply p.polls = .ok true ∧
      p.cycle host pace = (p.poll host).1.finish host .quit) ∨
    (pace.reached p.cycles = false ∧ host.reply p.polls = .ok false ∧
      p.cycle host pace =
        match (p.poll host).1.step.drawIfDue host pace with
        | .error fault => .ended (p.poll host).1.step (.failed fault)
        | .ok r => .going (r.rest pace)) := by
  cases hr : pace.reached p.cycles with
  | true => exact Or.inl ⟨rfl, cycle_of_reached hr⟩
  | false =>
    right
    cases hreply : host.reply p.polls with
    | error fault => exact Or.inl ⟨rfl, fault, rfl, cycle_of_fails hr hreply⟩
    | ok quits =>
      right
      cases quits with
      | true => exact Or.inl ⟨rfl, rfl, cycle_of_asks hr hreply⟩
      | false => exact Or.inr ⟨rfl, rfl, cycle_of_stays hr hreply⟩

/-- A play goes on from a cycle if it is neither at its limit nor asked to stop and the frame, if
one is due, has been shown; then it rests. -/
theorem cycle_eq_going_iff {p r : Play} : p.cycle host pace = .going r ↔
    pace.reached p.cycles = false ∧ host.reply p.polls = .ok false ∧
      ∃ q, (p.poll host).1.step.drawIfDue host pace = .ok q ∧ r = q.rest pace := by
  constructor
  · intro h
    rcases p.cycle_cases host pace with ⟨-, hc⟩ | ⟨-, fault, -, hc⟩ | ⟨-, -, hc⟩ | ⟨hr, hreply, hc⟩
    · exact absurd (hc.symm.trans h) (p.finish_ne_going r host .enough)
    · cases hc.symm.trans h
    · exact absurd (hc.symm.trans h) (finish_ne_going _ r host .quit)
    · rw [hc] at h
      cases hd : (p.poll host).1.step.drawIfDue host pace with
      | error fault =>
        rw [hd] at h
        cases h
      | ok q =>
        rw [hd] at h
        cases h
        exact ⟨hr, hreply, q, rfl, rfl⟩
  · rintro ⟨hr, hreply, q, hd, rfl⟩
    rw [cycle_of_stays hr hreply, hd]

/-- Whether a play goes on from a cycle is up to its limit and its host, whatever the step does. -/
theorem exists_going_iff {p : Play} : (∃ r, p.cycle host pace = .going r) ↔
    pace.reached p.cycles = false ∧ host.reply p.polls = .ok false ∧
      (p.showsFrame host = true → ∃ time, host.draw p.frames = .ok time) := by
  constructor
  · rintro ⟨r, h⟩
    obtain ⟨hr, hreply, q, hd, -⟩ := cycle_eq_going_iff.mp h
    have hshown := exists_drawIfDue_eq_ok_iff.mp ⟨q, hd⟩
    exact ⟨hr, hreply, hshown⟩
  · rintro ⟨hr, hreply, hshown⟩
    have hdrawn : ∃ q, (p.poll host).1.step.drawIfDue host pace = .ok q :=
      exists_drawIfDue_eq_ok_iff.mpr hshown
    obtain ⟨q, hd⟩ := hdrawn
    exact ⟨_, cycle_eq_going_iff.mpr ⟨hr, hreply, q, hd, rfl⟩⟩

/-- A play goes on if it is neither at its limit nor asked to stop, and a frame can be shown. -/
theorem going_of_stays {p : Play} {time : Nanos} (hdraw : host.draw p.frames = .ok time)
    (hr : pace.reached p.cycles = false) (hreply : host.reply p.polls = .ok false) :
    ∃ r, p.cycle host pace = .going r :=
  exists_going_iff.mpr ⟨hr, hreply, fun _ => ⟨time, hdraw⟩⟩

/-- What a cycle has done that the play survived. -/
structure Cycled (host : Host) (pace : Pace) (p r : Play) : Prop where
  unreached : pace.reached p.cycles = false
  stays : host.reply p.polls = .ok false
  cycles : r.cycles = p.cycles + 1
  polls : r.polls = p.polls + 1
  /-- One step has been run, and then time has passed. -/
  session : ∃ time, r.session = (p.polled host).step.apply (.wait time)
  failures : r.failures = (p.polled host).failure?.toList ++ p.failures
  frames : r.frames = p.frames + (p.showsFrame host).toNat

/-- Resting takes time. -/
theorem session_rest (p : Play) (pace : Pace) :
    ∃ time, (p.rest pace).session = p.session.apply (.wait time) := by
  refine ⟨(p.rest pace).session.now - p.session.now, ?_⟩
  have hle : p.session.now ≤ (p.rest pace).session.now := Nat.le_max_left ..
  have hnow : p.session.now + ((p.rest pace).session.now - p.session.now) =
      (p.rest pace).session.now := Nat.add_sub_cancel' hle
  simp only [Session.apply, hnow]
  rfl

/-- The session, its host polled, is stepped. -/
theorem step_poll (p : Play) (host : Host) :
    (p.poll host).1.step.session = (p.polled host).step ∧
      (p.poll host).1.step.failures = (p.polled host).failure?.toList ++ p.failures := by
  refine ⟨rfl, ?_⟩
  simp only [poll, step, Session.failure?, polled]
  cases (p.session.poll (host.poll p.polls)).1.outcome.fault <;> rfl

/-- A cycle that the play survives is one poll and one step. -/
theorem cycled_of_going {p r : Play} (h : p.cycle host pace = .going r) :
    Cycled host pace p r := by
  obtain ⟨hr, hreply, q, hd, rfl⟩ := cycle_eq_going_iff.mp h
  obtain ⟨⟨shown, hshown⟩, hcycles, hpolls, hfailures, hframes⟩ := drawIfDue_eq_ok hd
  obtain ⟨rested, hrested⟩ := q.session_rest pace
  obtain ⟨hstep, hfailed⟩ := p.step_poll host
  refine ⟨hr, hreply, hcycles, hpolls, ⟨shown + rested, ?_⟩, hfailures.trans hfailed, hframes⟩
  rw [hrested, hshown, hstep]
  simp only [Session.apply, Nat.add_assoc]

/-- What the last frame leaves of a play. -/
structure Closed (p r : Play) : Prop where
  machine : r.session.machine = p.session.machine
  cycles : r.cycles = p.cycles
  failures : r.failures = p.failures
  frames : r.frames = p.frames + 1
  /-- The frame shows the display as it is. -/
  last : r.shots.head?.map Shot.picture = some r.session.machine.display

/-- What a last frame leaves of a play, with no poll more. -/
theorem closed_of_draw {p r : Play} (h : p.draw host = .ok r) :
    Closed p r ∧ r.polls = p.polls := by
  obtain ⟨time, -, rfl⟩ := draw_eq_ok_iff.mp h
  exact ⟨⟨rfl, rfl, rfl, rfl, rfl⟩, rfl⟩

/-- What a poll and a last frame leave of a play, with one poll more. -/
theorem closed_of_poll_draw {p r : Play} (h : (p.poll host).1.draw host = .ok r) :
    Closed p r ∧ r.polls = p.polls + 1 := by
  obtain ⟨hc, hpolls⟩ := closed_of_draw h
  have hmachine : (p.poll host).1.session.machine = p.session.machine := p.session.machine_poll _
  exact ⟨⟨hc.machine.trans hmachine, hc.cycles, hc.failures, hc.frames, hc.last⟩, hpolls⟩

/-- A play that a cycle ends without a failure has had enough cycles or has been asked to stop, and
has shown a last frame. -/
theorem closed_of_ended {p r : Play} {ending : Ending} (h : p.cycle host pace = .ended r ending)
    (hok : ∀ fault, ending ≠ .failed fault) :
    Closed p r ∧
      ((pace.reached p.cycles = true ∧ ending = .enough ∧ r.polls = p.polls) ∨
      (pace.reached p.cycles = false ∧ host.reply p.polls = .ok true ∧ ending = .quit ∧
        r.polls = p.polls + 1)) := by
  rcases p.cycle_cases host pace with ⟨hr, hc⟩ | ⟨-, fault, -, hc⟩ | ⟨hr, hreply, hc⟩ | ⟨-, -, hc⟩
  · rw [hc] at h
    rcases p.finish_cases host .enough with ⟨q, hd, hf⟩ | ⟨fault, -, hf⟩
    · cases hf.symm.trans h
      obtain ⟨hclosed, hpolls⟩ := closed_of_draw hd
      exact ⟨hclosed, Or.inl ⟨hr, rfl, hpolls⟩⟩
    · cases hf.symm.trans h
      exact absurd rfl (hok fault)
  · cases hc.symm.trans h
    exact absurd rfl (hok fault)
  · rw [hc] at h
    rcases (p.poll host).1.finish_cases host .quit with ⟨q, hd, hf⟩ | ⟨fault, -, hf⟩
    · cases hf.symm.trans h
      obtain ⟨hclosed, hpolls⟩ := closed_of_poll_draw hd
      exact ⟨hclosed, Or.inr ⟨hr, hreply, rfl, hpolls⟩⟩
    · cases hf.symm.trans h
      exact absurd rfl (hok fault)
  · rw [hc] at h
    cases hd : (p.poll host).1.step.drawIfDue host pace with
    | error fault =>
      rw [hd] at h
      cases h
      exact absurd rfl (hok fault)
    | ok q =>
      rw [hd] at h
      cases h

/-- A play ends without a failure if it is at its limit or asked to stop, and a frame can be
shown. -/
theorem ended_of_stops {p : Play} {time : Nanos} (hdraw : host.draw p.frames = .ok time)
    (hstop : pace.reached p.cycles = true ∨ host.reply p.polls = .ok true) :
    ∃ r ending, p.cycle host pace = .ended r ending ∧ ∀ fault, ending ≠ .failed fault := by
  cases hr : pace.reached p.cycles with
  | true =>
    obtain ⟨q, hq⟩ := finish_of_ok hdraw .enough
    exact ⟨q, _, (cycle_of_reached hr).trans hq, nofun⟩
  | false =>
    have hasks : host.reply p.polls = .ok true := hstop.resolve_left (Bool.eq_false_iff.mp hr)
    obtain ⟨q, hq⟩ := finish_of_ok (p := (p.poll host).1) hdraw .quit
    exact ⟨q, _, (cycle_of_asks hr hasks).trans hq, nofun⟩

end Play

end ChipVM
