import ChipVM.Countdown

/-!
# Pace

A machine is played at a rate of cycles and a rate of frames. For each there is a deadline: the
instant at which the next cycle may start and the instant from which the next frame is due. A
deadline moves on by its period; one that has fallen behind is set afresh from the present, a
frame's at once and a cycle's only after a lag that is not worth catching up with.
-/

namespace ChipVM

/-- How fast a machine is played and for how long. -/
structure Pace where
  /-- The time of a cycle. -/
  cyclePeriod : Nanos
  /-- The time of a frame. -/
  framePeriod : Nanos
  /-- The most cycles, if there is such a limit. -/
  limit : Option Nat
  deriving DecidableEq, Repr

namespace Pace

/-- The time between two events at a rate per second, rounded down. A rate of zero counts as one. -/
def period (rate : Nat) : Nanos := Nanos.second / max rate 1

/-- The pace of so many cycles and frames per second. -/
def ofRates (cycles frames : Nat) (limit : Option Nat) : Pace :=
  ⟨period cycles, period frames, limit⟩

/-- Seven hundred cycles and sixty frames per second. -/
def standard (limit : Option Nat) : Pace := ofRates 700 60 limit

/-- The lag up to which cycles are made up for. -/
def maxLag : Nanos := 100000000

/-- So many cycles are enough. -/
def reached (p : Pace) (cycles : Nat) : Bool :=
  match p.limit with
  | some most => most ≤ cycles
  | none => false

end Pace

/-- When the next cycle may start and from when on the next frame is due. -/
structure Deadlines where
  cycle : Nanos
  frame : Nanos
  deriving DecidableEq, Repr

namespace Deadlines

/-- A frame is due at `now`. -/
def frameDue (d : Deadlines) (now : Nanos) : Bool := d.frame ≤ now

/-- The deadlines after a frame that was begun at `now`. -/
def afterFrame (d : Deadlines) (p : Pace) (now : Nanos) : Deadlines :=
  let next := d.frame + p.framePeriod
  { d with frame := if next < now then now + p.framePeriod else next }

/-- The deadlines after a cycle that was done at `now`. -/
def afterCycle (d : Deadlines) (p : Pace) (now : Nanos) : Deadlines :=
  let next := d.cycle + p.cyclePeriod
  { d with cycle := if Pace.maxLag < now - next then now else next }

/-- The instant at which a rest from `now` until the cycle's deadline ends; there is no rest if the
deadline has passed. -/
def restUntil (d : Deadlines) (now : Nanos) : Nanos := max now d.cycle

theorem frameDue_eq_true_iff {d : Deadlines} {now : Nanos} :
    d.frameDue now = true ↔ d.frame ≤ now := decide_eq_true_iff

/-- A cycle's deadline moves on by a period or more. -/
theorem add_period_le_cycle_afterCycle (d : Deadlines) (p : Pace) (now : Nanos) :
    d.cycle + p.cyclePeriod ≤ (d.afterCycle p now).cycle := by
  simp only [afterCycle]
  split <;> lia

/-- The next cycle starts no later after its deadline than is worth catching up with. -/
theorem restUntil_afterCycle_le (d : Deadlines) (p : Pace) (now : Nanos) :
    (d.afterCycle p now).restUntil now ≤ (d.afterCycle p now).cycle + Pace.maxLag := by
  simp only [restUntil, afterCycle]
  split <;> lia

/-- As long as the lag is worth catching up with, a cycle's deadline moves on by just a period. -/
theorem cycle_afterCycle_of_le {d : Deadlines} {p : Pace} {now : Nanos}
    (h : now ≤ d.cycle + p.cyclePeriod + Pace.maxLag) :
    (d.afterCycle p now).cycle = d.cycle + p.cyclePeriod := by
  simp only [afterCycle]
  split <;> lia

/-- A frame's deadline moves on by a period or more. -/
theorem add_period_le_frame_afterFrame (d : Deadlines) (p : Pace) (now : Nanos) :
    d.frame + p.framePeriod ≤ (d.afterFrame p now).frame := by
  simp only [afterFrame]
  split <;> lia

/-- After a frame that was due, the next one is due within a period, and not in the past. -/
theorem frame_afterFrame_mem {d : Deadlines} {p : Pace} {now : Nanos} (h : d.frame ≤ now) :
    now ≤ (d.afterFrame p now).frame ∧ (d.afterFrame p now).frame ≤ now + p.framePeriod := by
  simp only [afterFrame]
  split <;> lia

/-- A frame that is less than a period late leaves the deadlines where they were meant to be. -/
theorem frame_afterFrame_of_le {d : Deadlines} {p : Pace} {now : Nanos}
    (h : now ≤ d.frame + p.framePeriod) :
    (d.afterFrame p now).frame = d.frame + p.framePeriod := by
  simp only [afterFrame]
  split <;> lia

end Deadlines

end ChipVM
