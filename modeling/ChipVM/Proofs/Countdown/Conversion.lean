import ChipVM.Proofs.Countdown
import Mathlib.Data.Rat.Floor

/-!
# Units and times

Counting rounds up and timing a count rounds down, so the two are adjoint: a time amounts to at most
`u` units exactly if it is at most the time of `u` units. Only 255 stands for more than itself, since
the count is cut there. That counting is monotone, that no time but nothing counts as nothing and
that the time of a count amounts to that count all come from the adjunction.
-/

namespace ChipVM

namespace Nanos

/-- The longest time there is: whole seconds in a word of 64 bits, and a part of a second. -/
def longest : Nanos := 18446744073709551615 * second + 999999999

/-- A count is the sixtieths of a second in the time, rounded up and cut. -/
theorem toNat_toUnits_eq_ceil (d : Nanos) :
    d.toUnits.toNat = min 255 ⌈(60 * d : ℚ) / 10 ^ 9⌉₊ := by
  have hceil : ⌈(60 * d : ℚ) / 10 ^ 9⌉₊ = (d * 60 + 1000000000 - 1) / 1000000000 := by
    refine eq_of_forall_ge_iff fun u => ?_
    have hcast : (60 * d : ℚ) ≤ u * 10 ^ 9 ↔ 60 * d ≤ u * 1000000000 := by
      norm_num
      exact_mod_cast Iff.rfl
    rw [Nat.ceil_le, div_le_iff₀ (by norm_num), hcast,
      Nat.div_le_iff_le_mul_add_pred (by decide)]
    lia
  rw [toNat_toUnits, hceil]
  rfl

/-- Below the cut, a time amounts to at most `u` units exactly if `u` units last as long. -/
theorem toUnits_le_iff (d : Nanos) {u : UInt8} (hu : u < 255) :
    d.toUnits ≤ u ↔ d ≤ ofUnits u := by
  have hu' : u.toNat < 255 := UInt8.lt_iff_toNat_lt.mp hu
  have hcut (n : Nat) : min 255 n ≤ u.toNat ↔ n ≤ u.toNat := by omega
  rw [UInt8.le_iff_toNat_le, toNat_toUnits, hcut, ofUnits, unitRate, second,
    Nat.div_le_iff_le_mul_add_pred (by decide), Nat.le_div_iff_mul_le (by decide)]
  lia

/-- Each unit takes time. -/
theorem ofUnits_lt_ofUnits {u v : UInt8} (h : u < v) : ofUnits u < ofUnits v := by
  have hlt : u.toNat < v.toNat := UInt8.lt_iff_toNat_lt.mp h
  calc ofUnits u
      < u.toNat * second / unitRate + 1 := Nat.lt_add_one _
    _ = (u.toNat * second + unitRate) / unitRate := (Nat.add_div_right _ (by decide)).symm
    _ ≤ v.toNat * second / unitRate := Nat.div_le_div_right (by rw [second, unitRate]; omega)

/-- A longer time never amounts to fewer units. -/
theorem toUnits_le_toUnits {d d' : Nanos} (h : d ≤ d') : d.toUnits ≤ d'.toUnits := by
  by_cases hcut : d'.toUnits < 255
  · exact (toUnits_le_iff d hcut).mpr (h.trans ((toUnits_le_iff d' hcut).mp (UInt8.le_refl _)))
  · rw [UInt8.lt_iff_toNat_lt, Nat.not_lt] at hcut
    exact UInt8.le_iff_toNat_le.mpr (Nat.le_trans (Nat.le_of_lt_succ d.toUnits.toNat_lt) hcut)

/-- Only no time at all amounts to no unit. -/
theorem toUnits_eq_zero_iff (d : Nanos) : d.toUnits = 0 ↔ d = 0 := by
  have hzero : d.toUnits ≤ 0 ↔ d.toUnits = 0 := by
    rw [UInt8.le_iff_toNat_le, ← UInt8.toNat_inj]
    exact Nat.le_zero
  rw [← hzero, toUnits_le_iff d (by decide)]
  exact Nat.le_zero

/-- The time of a count amounts to that count. -/
theorem toUnits_ofUnits (u : UInt8) : (ofUnits u).toUnits = u := by
  have hcut {v w : UInt8} (h : v < w) : v < 255 := by
    rw [UInt8.lt_iff_toNat_lt] at h ⊢
    exact Nat.lt_of_lt_of_le h (Nat.le_of_lt_succ w.toNat_lt)
  rcases Nat.lt_trichotomy (ofUnits u).toUnits.toNat u.toNat with hlt | heq | hgt
  · have hless := UInt8.lt_iff_toNat_lt.mpr hlt
    have hle := (toUnits_le_iff _ (hcut hless)).mp (UInt8.le_refl _)
    exact absurd (ofUnits_lt_ofUnits hless) (Nat.not_lt.mpr hle)
  · exact UInt8.toNat_inj.mp heq
  · have hmore := UInt8.lt_iff_toNat_lt.mpr hgt
    have hle := (toUnits_le_iff _ (hcut hmore)).mpr (Nat.le_refl _)
    exact absurd hgt (Nat.not_lt.mpr (UInt8.le_iff_toNat_le.mp hle))

/-- The number, if it is below the limit. -/
def below? (limit n : Nat) : Option Nat := if n < limit then some n else none

theorem below?_of_lt {limit n : Nat} (h : n < limit) : below? limit n = some n := if_pos h

/-- The count of units worked out one operation at a time, if no number on the way reaches the
limit. -/
def toUnitsBelow? (limit : Nat) (d : Nanos) : Option UInt8 := do
  let time ← below? limit d
  let sixtieths ← below? limit (time * unitRate)
  let raised ← below? limit (sixtieths + second)
  let units ← below? limit ((raised - 1) / second)
  return UInt8.ofNat (min 255 units)

/-- The largest number on the way is the sum that is divided. -/
theorem toUnitsBelow?_of_lt {limit : Nat} {d : Nanos} (h : d * unitRate + second < limit) :
    toUnitsBelow? limit d = some d.toUnits := by
  have hproduct : d * unitRate < limit := Nat.lt_of_add_right_lt h
  have htime : d < limit := Nat.lt_of_le_of_lt (Nat.le_mul_of_pos_right d (by decide)) hproduct
  have hquotient : (d * unitRate + second - 1) / second < limit :=
    Nat.lt_of_le_of_lt (Nat.div_le_self ..) (Nat.lt_of_le_of_lt (Nat.sub_le ..) h)
  rw [toUnitsBelow?, below?_of_lt htime, Option.bind_eq_bind, Option.bind_some,
    below?_of_lt hproduct, Option.bind_some, below?_of_lt h, Option.bind_some,
    below?_of_lt hquotient, Option.bind_some, Option.pure_def, toUnits]

/-- The sum fits into 128 bits for every time there is. -/
theorem sum_lt_of_le_longest {d : Nanos} (h : d ≤ longest) : d * unitRate + second < 2 ^ 128 := by
  refine Nat.lt_of_le_of_lt (Nat.add_le_add_right (Nat.mul_le_mul_right unitRate h) second) ?_
  decide

example : toUnitsBelow? (2 ^ 64) longest = none := by decide

/-- The time of a count fits into 64 bits. -/
theorem ofUnits_lt_word (u : UInt8) : ofUnits u < 2 ^ 64 := by
  refine Nat.lt_of_le_of_lt (Nat.div_le_self ..) ?_
  exact Nat.lt_trans ((Nat.mul_lt_mul_right (by decide)).mpr u.toNat_lt) (by decide)

end Nanos

namespace Countdown

/-- Nothing is left exactly if nothing can be read. -/
theorem expired_iff (t : Countdown) (now : Nanos) : t.expired now = true ↔ t.units now = 0 := by
  rw [← Bool.not_eq_false, expired_eq_false_iff, Nat.not_lt, Nat.le_zero, ← UInt8.toNat_inj]
  rfl

/-- A time's count of units is its sixtieths of a second, rounded up and cut at 255, and no number
on the way to it needs more than 128 bits; the time of a count needs 64. Below the cut a count is at
most `u` exactly if the time is at most the time of `u` units. So a longer time has no smaller count,
only no time at all has the count nothing, and the time of any count has that count. A countdown from
`d` has `d - e` left after `e`, or nothing if that is less than nothing; it reads the count of what is
left, and has run out exactly when it reads nothing. -/
theorem units_adjoint_to_times :
    (∀ d : Nanos, d.toUnits.toNat = min 255 ⌈(60 * d : ℚ) / 10 ^ 9⌉₊) ∧
    (∀ d ≤ Nanos.longest, Nanos.toUnitsBelow? (2 ^ 128) d = some d.toUnits) ∧
    (∀ u : UInt8, Nanos.ofUnits u < 2 ^ 64) ∧
    (∀ (d : Nanos) (u : UInt8), u < 255 → (d.toUnits ≤ u ↔ d ≤ Nanos.ofUnits u)) ∧
    (∀ d d' : Nanos, d ≤ d' → d.toUnits ≤ d'.toUnits) ∧
    (∀ d : Nanos, d.toUnits = 0 ↔ d = 0) ∧
    (∀ u : UInt8, (Nanos.ofUnits u).toUnits = u) ∧
    ∀ armed d e : Nanos,
      let t := arm armed d
      let now := armed + e
      (t.remaining now : ℤ) = max 0 (d - e : ℤ) ∧
      t.units now = (t.remaining now).toUnits ∧
      (t.expired now = true ↔ t.units now = 0) := by
  refine ⟨Nanos.toNat_toUnits_eq_ceil, fun d hd => ?_, Nanos.ofUnits_lt_word,
    fun d u => Nanos.toUnits_le_iff d, fun d d' => Nanos.toUnits_le_toUnits,
    Nanos.toUnits_eq_zero_iff, Nanos.toUnits_ofUnits,
    fun armed d e => ⟨?_, rfl, expired_iff _ _⟩⟩
  · exact Nanos.toUnitsBelow?_of_lt (Nanos.sum_lt_of_le_longest hd)
  · rw [remaining_arm_add]
    lia

end Countdown

end ChipVM
