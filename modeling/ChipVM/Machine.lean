import ChipVM.Countdown
import ChipVM.Display
import ChipVM.Memory
import ChipVM.Program
import ChipVM.Random
import ChipVM.Registers
import ChipVM.Variant

/-!
# The machine

Everything that a program can see or change: memory, registers, the return stack, the display, two
countdowns and the random stream. Held keys and the time are not part of it; they are given to each
step from outside.
-/

namespace ChipVM

/-- The state of a machine. -/
structure Machine where
  variant : Variant
  memory : Memory
  regs : Registers
  /-- Return addresses, the latest first. -/
  stack : List UInt16
  display : Display
  /-- The countdown that programs can read. -/
  delay : Countdown
  /-- The countdown that sounds a tone until it has run out. -/
  sound : Countdown
  random : RandomStream
  /-- The last instruction that was carried out waits for a key. -/
  awaitingKey : Bool
  deriving DecidableEq, Repr

namespace Machine

/-- How many calls can be open at once. -/
def stackLimit : Nat := 16

/-- A machine without a program, switched on at `now`. -/
def initial (variant : Variant) (random : RandomStream) (now : Nanos) : Machine where
  variant := variant
  memory := Memory.initial
  regs := Registers.initial
  stack := []
  display := Display.dark
  delay := Countdown.expiredAt now
  sound := Countdown.expiredAt now
  random := random
  awaitingKey := false

/-- Put a program in its place and then start it from there; all else stays. -/
def load (m : Machine) (p : Program) : Outcome Machine :=
  ((m.memory.loadImage p.bytes).within fun memory => { m with memory }).andThen fun m' =>
    .done { m' with regs.pc := Memory.programStart }

/-- What the delay countdown reads at `now`. -/
def delayUnits (m : Machine) (now : Nanos) : UInt8 := m.delay.units now

/-- What the sound countdown reads at `now`. -/
def soundUnits (m : Machine) (now : Nanos) : UInt8 := m.sound.units now

/-- The tone sounds at `now`. -/
def toneSounds (m : Machine) (now : Nanos) : Bool := !m.sound.expired now

/-- How many calls are open. -/
def depth (m : Machine) : Nat := m.stack.length

/-- The same machine with its registers changed. -/
def withRegs (m : Machine) (r : Registers) : Machine := { m with regs := r }

/-- Memory has room for every program, so loading one is never refused. -/
theorem load_eq_done (m : Machine) (p : Program) :
    m.load p = .done { m with
      memory := m.memory.overwrite Memory.programStart.toNat p.bytes
      regs.pc := Memory.programStart } := by
  have h : Memory.InRange Memory.programStart p.bytes.length := by
    have hp := p.fits
    unfold Program.capacity at hp
    simp only [Memory.InRange, Memory.programStart, Memory.size, UInt16.reduceToNat]
    omega
  rw [load, Memory.loadImage, Memory.write, Memory.check_of_inRange h]
  rfl

end Machine

end ChipVM
