import ChipVM.Countdown
import ChipVM.Keypad

/-!
# Keys from a terminal

A terminal tells when a key goes down, and again while it repeats, but never when it comes up. So a
key counts as held from its event until no event for it has come for a while. The left part of the
keyboard stands for the keypad, sixteen characters in four rows; the case of a letter does not
matter.
-/

namespace ChipVM

/-- What a terminal reports. -/
inductive KeyEvent where
  /-- A character, with or without the control key. -/
  | char (c : Char) (control : Bool)
  | escape
  /-- A key without a character. -/
  | other
  deriving DecidableEq, Repr

namespace KeyEvent

/-- The characters that stand for keys, with the keys. -/
def layout : List (Char × UInt8) := [
  ('1', 0x1), ('2', 0x2), ('3', 0x3), ('4', 0xC),
  ('q', 0x4), ('w', 0x5), ('e', 0x6), ('r', 0xD),
  ('a', 0x7), ('s', 0x8), ('d', 0x9), ('f', 0xE),
  ('z', 0xA), ('x', 0x0), ('c', 0xB), ('v', 0xF)]

/-- The event asks to stop: escape, or a small C with control. -/
def asksToQuit : KeyEvent → Bool
  | char c control => c == 'c' && control
  | escape => true
  | other => false

/-- The key that an event stands for. Only ASCII letters have a case here. -/
def key? : KeyEvent → Option UInt8
  | char c _ => layout.lookup c.toLower
  | escape | other => none

end KeyEvent

/-- The keypad behind a terminal, with the time of the latest event for each key that an event
holds. -/
structure Keyboard where
  keys : Keypad
  seen : Vector (Option Nanos) 16
  deriving DecidableEq, Repr

namespace Keyboard

/-- How long a key counts as held after its latest event. -/
def holdTime : Nanos := 150000000

/-- No key held and no event seen. -/
def initial : Keyboard := ⟨Keypad.released, Vector.replicate 16 none⟩

/-- When the latest event for a key came that has not expired. -/
def lastSeen (b : Keyboard) (key : UInt8) : Option Nanos := b.seen[key.toNat]?.join

/-- Change a key and what is known of its events. -/
def put (b : Keyboard) (key : UInt8) (down : Bool) (at? : Option Nanos) : Keyboard :=
  ⟨b.keys.set key down, b.seen.setIfInBounds key.toNat at?⟩

/-- Take note of an event. -/
def note (b : Keyboard) (now : Nanos) (e : KeyEvent) : Keyboard :=
  match e.key? with
  | some key => b.put key true (some now)
  | none => b

/-- Let a key go if its latest event is too long ago. -/
def expireKey (now : Nanos) (b : Keyboard) (key : UInt8) : Keyboard :=
  match b.lastSeen key with
  | some since => if holdTime ≤ now - since then b.put key false none else b
  | none => b

/-- Let every key go whose latest event is too long ago. -/
def expire (b : Keyboard) (now : Nanos) : Keyboard := Keypad.allKeys.foldl (expireKey now) b

/-- What taking events off a queue comes to. -/
structure Pumped where
  /-- An event asked to stop. -/
  quit : Bool
  board : Keyboard
  /-- The events still in the queue. -/
  queue : List KeyEvent
  deriving DecidableEq, Repr

/-- Take events off the queue, all at the same time, up to the first that asks to stop. If none
does, keys whose time has run out are let go. -/
def pump (b : Keyboard) (now : Nanos) : List KeyEvent → Pumped
  | [] => ⟨false, b.expire now, []⟩
  | e :: rest => if e.asksToQuit then ⟨true, b, rest⟩ else (b.note now e).pump now rest

end Keyboard

end ChipVM
