import ChipVM.Machine.Step

/-!
# Sessions

A session is a machine with its surroundings: the keys that are held and the time. Whatever happens
to it is one of four events, so a history is a list of events.
-/

namespace ChipVM

/-- A machine, the held keys and the time. -/
structure Session where
  machine : Machine
  keys : Keypad
  now : Nanos
  deriving DecidableEq, Repr

/-- Something that happens to a session. -/
inductive Session.Event where
  | load (program : Program)
  | step
  | key (change : KeyChange)
  /-- Time passes. -/
  | wait (time : Nanos)
  deriving DecidableEq, Repr

namespace Session

/-- A new machine, switched on at `now` while the given keys are held. -/
def switchedOn (variant : Variant) (random : RandomStream) (keys : Keypad) (now : Nanos) :
    Session :=
  ⟨Machine.initial variant random now, keys, now⟩

/-- A new machine at time zero with no key held. -/
def initial (variant : Variant) (random : RandomStream) : Session :=
  switchedOn variant random Keypad.released 0

/-- What a step comes to with the session's keys at its time. -/
def outcome (s : Session) : Outcome Machine := s.machine.step s.keys s.now

/-- The session after a step. -/
def step (s : Session) : Session := { s with machine := s.outcome.state }

/-- The session after an event. -/
def apply (s : Session) : Event → Session
  | .load p => { s with machine := (s.machine.load p).state }
  | .step => s.step
  | .key change => { s with keys := s.keys.apply change }
  | .wait time => { s with now := s.now + time }

/-- The session after a history. -/
def run (s : Session) (events : List Event) : Session := events.foldl apply s

@[simp] theorem run_nil (s : Session) : s.run [] = s := rfl

@[simp] theorem run_cons (s : Session) (e : Event) (es : List Event) :
    s.run (e :: es) = (s.apply e).run es := rfl

theorem run_append (s : Session) (es fs : List Event) :
    s.run (es ++ fs) = (s.run es).run fs := List.foldl_append ..

end Session

end ChipVM
