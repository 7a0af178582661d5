/-!
# Instructions

What the machine can be told to do. Register operands are a parameter: the machine runs
instructions over its sixteen registers, while the assembly text is defined for any numbering.
-/

namespace ChipVM

/-- The bitwise combinations of two registers. -/
inductive Logic where
  | or | and | xor
  deriving DecidableEq, Repr

/-- The directions of a one-bit shift. -/
inductive Shift where
  | right | left
  deriving DecidableEq, Repr

/-- The directions of a transfer between the first registers and memory. -/
inductive Transfer where
  | store | load
  deriving DecidableEq, Repr

/-- An instruction whose register operands are taken from `ρ`. -/
inductive Instruction (ρ : Type) where
  /-- Run machine code of the hardware underneath; there is none, so nothing happens. -/
  | machineCall (target : UInt16)
  /-- Turn every pixel off. -/
  | clear
  /-- Return from a subroutine. -/
  | ret
  | jump (target : UInt16)
  | call (target : UInt16)
  /-- Skip the next instruction if `x` holds the byte. -/
  | skipByte (x : ρ) (byte : UInt8)
  /-- Skip the next instruction unless `x` holds the byte. -/
  | skipNotByte (x : ρ) (byte : UInt8)
  /-- Skip the next instruction if `x` and `y` hold the same. -/
  | skipSame (x y : ρ)
  /-- Skip the next instruction if `x` and `y` hold different bytes. -/
  | skipDiffer (x y : ρ)
  | setByte (x : ρ) (byte : UInt8)
  /-- Add a byte without touching the flag. -/
  | addByte (x : ρ) (byte : UInt8)
  | copy (x y : ρ)
  | logic (op : Logic) (x y : ρ)
  /-- Add `y` to `x`; the flag is the carry. -/
  | add (x y : ρ)
  /-- Put `x - y` into `x`; the flag tells that nothing was borrowed. -/
  | sub (x y : ρ)
  /-- Put `y - x` into `x`; the flag tells that nothing was borrowed. -/
  | subFrom (x y : ρ)
  | shift (dir : Shift) (x y : ρ)
  | setIndex (target : UInt16)
  /-- Jump to an address plus a register, whose choice is the variant's. -/
  | jumpOffset (x : ρ) (base : UInt16)
  /-- Put a random byte under a mask into `x`. -/
  | random (x : ρ) (mask : UInt8)
  /-- Draw the `n` sprite rows at the index, at column `x` and line `y`. -/
  | draw (x y : ρ) (n : UInt8)
  /-- Skip the next instruction if the key that `x` names is held. -/
  | skipHeld (x : ρ)
  /-- Skip the next instruction unless the key that `x` names is held. -/
  | skipNotHeld (x : ρ)
  | readDelay (x : ρ)
  /-- Wait for a key and put its number into `x`. -/
  | awaitKey (x : ρ)
  | setDelay (x : ρ)
  | setSound (x : ρ)
  | addIndex (x : ρ)
  /-- Point the index at the glyph of the digit in `x`. -/
  | glyph (x : ρ)
  /-- Write the three decimal digits of `x` at the index. -/
  | decimal (x : ρ)
  /-- Copy the registers up to `x` to or from the bytes at the index. -/
  | block (dir : Transfer) (x : ρ)
  deriving DecidableEq, Repr

namespace Instruction

variable {ρ σ : Type}

/-- The same instruction with every register operand renamed. -/
def map (f : ρ → σ) : Instruction ρ → Instruction σ
  | machineCall a => machineCall a
  | clear => clear
  | ret => ret
  | jump a => jump a
  | call a => call a
  | skipByte x b => skipByte (f x) b
  | skipNotByte x b => skipNotByte (f x) b
  | skipSame x y => skipSame (f x) (f y)
  | skipDiffer x y => skipDiffer (f x) (f y)
  | setByte x b => setByte (f x) b
  | addByte x b => addByte (f x) b
  | copy x y => copy (f x) (f y)
  | logic op x y => logic op (f x) (f y)
  | add x y => add (f x) (f y)
  | sub x y => sub (f x) (f y)
  | subFrom x y => subFrom (f x) (f y)
  | shift dir x y => shift dir (f x) (f y)
  | setIndex a => setIndex a
  | jumpOffset x a => jumpOffset (f x) a
  | random x m => random (f x) m
  | draw x y n => draw (f x) (f y) n
  | skipHeld x => skipHeld (f x)
  | skipNotHeld x => skipNotHeld (f x)
  | readDelay x => readDelay (f x)
  | awaitKey x => awaitKey (f x)
  | setDelay x => setDelay (f x)
  | setSound x => setSound (f x)
  | addIndex x => addIndex (f x)
  | glyph x => glyph (f x)
  | decimal x => decimal (f x)
  | block dir x => block dir (f x)

@[simp] theorem map_map {τ : Type} (f : ρ → σ) (g : σ → τ) (i : Instruction ρ) :
    (i.map f).map g = i.map (g ∘ f) := by
  cases i <;> rfl

theorem map_id (i : Instruction ρ) : i.map id = i := by
  cases i <;> rfl

/-- A renaming that can be undone confuses no two instructions. -/
theorem eq_of_map_eq {f : ρ → σ} {g : σ → ρ} (hg : g ∘ f = id) {i j : Instruction ρ}
    (h : i.map f = j.map f) : i = j := by
  have hm := congrArg (map g) h
  rwa [map_map, map_map, hg, map_id, map_id] at hm

end Instruction

end ChipVM
