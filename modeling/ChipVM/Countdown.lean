/-!
# Countdowns

A countdown is the instant at which it was armed and the time it runs for; what remains is worked
out from the clock whenever somebody asks. All times are whole nanoseconds. Programs count in units
of a sixtieth of a second: arming rounds the time of a count down, and reading rounds what remains
up to the next unit, so that a part of a unit still counts.
-/

namespace ChipVM

/-- An instant or a length of time, in nanoseconds. -/
abbrev Nanos := Nat

/-- A second. -/
def Nanos.second : Nanos := 1000000000

/-- How many units pass in a second. -/
def unitRate : Nat := 60

/-- The time that a count of units takes, rounded down. -/
def Nanos.ofUnits (units : UInt8) : Nanos := units.toNat * Nanos.second / unitRate

/-- The count of units that a time amounts to, rounded up and at most 255. -/
def Nanos.toUnits (d : Nanos) : UInt8 :=
  UInt8.ofNat (min 255 ((d * unitRate + Nanos.second - 1) / Nanos.second))

/-- A time that runs out. -/
structure Countdown where
  /-- When it was armed. -/
  armedAt : Nanos
  /-- How long it runs. -/
  span : Nanos
  deriving DecidableEq, Repr

namespace Countdown

/-- Restart the countdown at `now`. -/
def arm (now span : Nanos) : Countdown := ⟨now, span⟩

/-- A countdown that has nothing left. -/
def expiredAt (now : Nanos) : Countdown := arm now 0

/-- Restart the countdown at `now` with a count of units. -/
def armUnits (now : Nanos) (units : UInt8) : Countdown := arm now (Nanos.ofUnits units)

/-- What is left at `now`; never less than nothing. -/
def remaining (t : Countdown) (now : Nanos) : Nanos := t.span - (now - t.armedAt)

/-- What is left at `now`, in units. -/
def units (t : Countdown) (now : Nanos) : UInt8 := (t.remaining now).toUnits

/-- Nothing is left at `now`. -/
def expired (t : Countdown) (now : Nanos) : Bool := t.remaining now == 0

@[simp] theorem remaining_arm_add (now span gone : Nanos) :
    (arm now span).remaining (now + gone) = span - gone := by
  simp [remaining, arm]

end Countdown

/-- The count of a time is its sixtieths rounded up, cut at 255. -/
theorem Nanos.toNat_toUnits (d : Nanos) :
    d.toUnits.toNat = min 255 ((d * unitRate + Nanos.second - 1) / Nanos.second) := by
  rw [toUnits, UInt8.toNat_ofNat']
  exact Nat.mod_eq_of_lt (Nat.lt_of_le_of_lt (Nat.min_le_left ..) (by decide))

end ChipVM
