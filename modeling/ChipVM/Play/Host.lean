import ChipVM.Session

/-!
# Hosts

The host of a played machine does two things: before each cycle it is polled, when it may change
keys, ask to stop or fail, and now and then it shows a frame. Both take time of their own. A host is
what it does at each call of either, counted from zero.
-/

namespace ChipVM

/-- Something that a host does when it is polled. -/
inductive HostAction where
  | key (change : KeyChange)
  /-- Let time pass. -/
  | wait (time : Nanos)
  /-- Ask to stop. -/
  | quit
  | fail (fault : HostFault)
  deriving DecidableEq, Repr

/-- What a host does at each call. -/
structure Host where
  /-- What is done, in order, when the host is polled. -/
  poll : Nat → List HostAction
  /-- The time that showing a frame takes, or why it cannot be shown. -/
  draw : Nat → Except HostFault Nanos

/-- Do what the host does at a poll, and tell whether it asks to stop. A failure ends the poll at
once; a wish to stop is reported when the rest is done. -/
def Session.poll (s : Session) : List HostAction → Session × Except HostFault Bool
  | [] => (s, .ok false)
  | .key change :: rest => (s.apply (.key change)).poll rest
  | .wait time :: rest => (s.apply (.wait time)).poll rest
  | .quit :: rest => let (s', reply) := s.poll rest; (s', reply.map fun _ => true)
  | .fail fault :: _ => (s, .error fault)

/-- A host that goes by a script. -/
structure Script where
  /-- What is done at which poll. -/
  entries : List (Nat × HostAction)
  /-- The time that passes at the start of every poll. -/
  pollTime : Nanos
  /-- The time that showing a frame takes. -/
  drawTime : Nanos
  /-- The frame that cannot be shown, if there is one, and why. -/
  failingDraw : Option (Nat × HostFault)
  deriving Repr

namespace Script

/-- The host that follows a script. -/
def host (s : Script) : Host where
  poll call := .wait s.pollTime :: (s.entries.filter fun e => e.1 == call).map Prod.snd
  draw frame :=
    match s.failingDraw with
    | some (k, fault) => if k = frame then .error fault else .ok s.drawTime
    | none => .ok s.drawTime

/-- The latest poll that has an entry. -/
def lastPoll (s : Script) : Nat := (s.entries.map Prod.fst).foldl max 0

/-- The time that the entries let pass in all. -/
def waits (s : Script) : Nanos :=
  (s.entries.map fun e => match e.2 with
    | .wait time => time
    | _ => 0).foldr (· + ·) 0

end Script

end ChipVM
