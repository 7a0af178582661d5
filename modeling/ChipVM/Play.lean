import ChipVM.Machine.Journal
import ChipVM.Play.Host
import ChipVM.Play.Pace

/-!
# Playing a machine

A play is a session that is driven in real time. Every cycle polls the host, runs one step, shows a
frame if one is due and rests until the next cycle may start. A step that fails is noted and the
play goes on. It ends when enough cycles have been run or the host asks to stop, and then shows a
last frame; it also ends, without one, when the host fails.
-/

namespace ChipVM

/-- A frame that was shown. -/
structure Shot where
  /-- When it was begun. -/
  time : Nanos
  picture : Display
  deriving DecidableEq, Repr

/-- A play under way. -/
structure Play where
  session : Session
  due : Deadlines
  /-- How often the host has been polled. -/
  polls : Nat
  /-- How many cycles have been run. -/
  cycles : Nat
  /-- The frames shown so far, the latest first. -/
  shots : List Shot
  /-- Where steps have failed and why, the latest first. -/
  failures : List (UInt16 × Fault)
  deriving DecidableEq, Repr

/-- Why a play ended. -/
inductive Play.Ending where
  /-- Enough cycles have been run. -/
  | enough
  /-- The host asked to stop. -/
  | quit
  | failed (fault : HostFault)
  deriving DecidableEq, Repr

/-- What a stretch of a play comes to. -/
inductive Play.Progress where
  | going (play : Play)
  | ended (play : Play) (ending : Play.Ending)
  deriving DecidableEq, Repr

namespace Play

/-- A play that starts now. -/
def start (s : Session) : Play where
  session := s
  due := ⟨s.now, s.now⟩
  polls := 0
  cycles := 0
  shots := []
  failures := []

/-- How many frames have been shown. -/
def frames (p : Play) : Nat := p.shots.length

/-- How many steps have failed. -/
def errors (p : Play) : Nat := p.failures.length

/-- Poll the host. -/
def poll (p : Play) (host : Host) : Play × Except HostFault Bool :=
  let (s, reply) := p.session.poll (host.poll p.polls)
  ({ p with session := s, polls := p.polls + 1 }, reply)

/-- Run one step. -/
def step (p : Play) : Play :=
  { p with
    session := p.session.step
    cycles := p.cycles + 1
    failures := match p.session.outcome.fault with
      | some fault => (p.session.machine.regs.pc, fault) :: p.failures
      | none => p.failures }

/-- Show the display as it is. -/
def draw (p : Play) (host : Host) : Except HostFault Play :=
  (host.draw p.frames).map fun time =>
    { p with
      shots := ⟨p.session.now, p.session.machine.display⟩ :: p.shots
      session.now := p.session.now + time }

/-- Show the display if a frame is due. -/
def drawIfDue (p : Play) (host : Host) (pace : Pace) : Except HostFault Play :=
  if p.due.frameDue p.session.now then
    (p.draw host).map fun q => { q with due := p.due.afterFrame pace p.session.now }
  else .ok p

/-- Set the next cycle's deadline and rest until then. -/
def rest (p : Play) (pace : Pace) : Play :=
  let due := p.due.afterCycle pace p.session.now
  { p with due, session.now := due.restUntil p.session.now }

/-- Show a last frame and end. -/
def finish (p : Play) (host : Host) (ending : Ending) : Progress :=
  match p.draw host with
  | .ok q => .ended q ending
  | .error fault => .ended p (.failed fault)

/-- One cycle, or the end. -/
def cycle (p : Play) (host : Host) (pace : Pace) : Progress :=
  if pace.reached p.cycles then p.finish host .enough
  else
    match p.poll host with
    | (q, .error fault) => .ended q (.failed fault)
    | (q, .ok true) => q.finish host .quit
    | (q, .ok false) =>
      match q.step.drawIfDue host pace with
      | .error fault => .ended q.step (.failed fault)
      | .ok r => .going (r.rest pace)

/-- At most `n` cycles; the play is still going if it has not ended by then. -/
def run (host : Host) (pace : Pace) : Nat → Play → Progress
  | 0, p => .going p
  | n + 1, p =>
    match p.cycle host pace with
    | .going q => run host pace n q
    | .ended q ending => .ended q ending

/-- What was noted about failed steps, in the order of the steps. -/
def entries (p : Play) : List JournalEntry :=
  p.failures.reverse.map fun f => .stepFailed f.1 f.2

/-- A number of cycles by which a scripted host is asked for frame `k`, if it ever is. Cycle `n`
does not start before `n` times the least time of a cycle. The next frame comes at most a period and
one cycle with its delays after the one before, and waits delay it by no more than their sum. If a
cycle takes no time at all, every cycle after the last entry shows a frame or none ever does. -/
def cyclesToFrame (script : Script) (pace : Pace) (k : Nat) : Nat :=
  let least := max pace.cyclePeriod script.pollTime
  let most := pace.framePeriod + pace.cyclePeriod + script.pollTime + script.drawTime
  ((k + 1) * most + script.waits) / least + script.lastPoll + k + 1

/-- A number of cycles by which a play with a scripted host has ended, if it ends at all. -/
def horizon (script : Script) (pace : Pace) : Nat :=
  match pace.limit, script.failingDraw with
  | some most, _ => most + 1
  | none, some (k, _) => cyclesToFrame script pace k + 2
  | none, none => script.lastPoll + 2

/-- Play a session with a scripted host to its end. -/
def perform (script : Script) (pace : Pace) (s : Session) : Progress :=
  run script.host pace (horizon script pace) (start s)

end Play

end ChipVM
