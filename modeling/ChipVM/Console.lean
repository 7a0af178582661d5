import ChipVM.Keyboard

/-!
# Consoles

A console is a keyboard with the queue of what was typed and has not been taken yet, and the time.
Whatever happens at it is one of four events; only taking from the queue has an answer.
-/

namespace ChipVM

/-- The events not yet taken, the keyboard and the time. -/
structure Console where
  queue : List KeyEvent
  board : Keyboard
  now : Nanos
  deriving DecidableEq, Repr

/-- Something that happens at a console. -/
inductive Console.Event where
  | typed (events : List KeyEvent)
  | pump
  | wait (time : Nanos)
  /-- The keypad is changed directly. -/
  | key (change : KeyChange)
  deriving DecidableEq, Repr

namespace Console

/-- Nothing typed yet, at time zero. -/
def initial : Console := ⟨[], Keyboard.initial, 0⟩

/-- The console after an event, and the answer if it was a pump. -/
def apply (c : Console) : Event → Console × Option Bool
  | .typed events => ({ c with queue := c.queue ++ events }, none)
  | .pump =>
    let pumped := c.board.pump c.now c.queue
    ({ c with queue := pumped.queue, board := pumped.board }, some pumped.quit)
  | .wait time => ({ c with now := c.now + time }, none)
  | .key change => ({ c with board.keys := c.board.keys.apply change }, none)

end Console

end ChipVM
