import ChipVM.Countdown

/-!
# What a countdown reads

A sixtieth of a second is no whole number of nanoseconds. Arming a count rounds its time down and
reading rounds what is left up; the remainder of the first rounding is what the second makes up for.
So a count just armed is read back as it is, and each later reading is the count less the whole
units that have passed, where the remainder counts as time passed.
-/

namespace ChipVM.Countdown

/-- Rounding up what is left of a whole number of units takes the whole units off that have gone. -/
theorem ceil_mul_sub {unit : Nat} (hunit : 0 < unit) (count gone : Nat) :
    (unit * count - gone + unit - 1) / unit = count - gone / unit := by
  rcases Nat.lt_or_ge (unit * count) gone with h | h
  · have hall : count ≤ gone / unit :=
      (Nat.le_div_iff_mul_le hunit).mpr (by rw [Nat.mul_comm]; omega)
    rw [Nat.sub_eq_zero_of_le (Nat.le_of_lt h), Nat.zero_add, Nat.sub_eq_zero_of_le hall]
    exact Nat.div_eq_of_lt (by omega)
  · have hsucc : unit * (count + 1) = unit * count + unit := Nat.mul_succ ..
    calc (unit * count - gone + unit - 1) / unit
        = (unit * (count + 1) - (gone + 1)) / unit := by rw [hsucc]; congr 1; omega
      _ = count + 1 - (gone / unit + 1) := Nat.mul_sub_div _ _ _ (by omega)
      _ = count - gone / unit := Nat.add_sub_add_right ..

/-- Sixtieths of what is left of a count: its seconds' worth less the time gone, in sixtieths, and
less what arming has rounded off. -/
theorem remaining_armUnits_mul (since now : Nanos) (units : UInt8) :
    (armUnits since units).remaining now * 60 =
      1000000000 * units.toNat - (60 * (now - since) + 1000000000 * units.toNat % 60) := by
  have hspan : (armUnits since units).span = units.toNat * 1000000000 / 60 := rfl
  have harmed : (armUnits since units).armedAt = since := rfl
  rw [remaining, hspan, harmed, Nat.sub_mul, Nat.mul_comm units.toNat, Nat.mul_comm (now - since),
    Nat.div_mul_self_eq_mod_sub_self, Nat.sub_sub, Nat.add_comm (_ % 60)]

/-- The reading some time after a count was armed. -/
theorem toNat_units_armUnits (since now : Nanos) (units : UInt8) :
    ((armUnits since units).units now).toNat =
      units.toNat - (60 * (now - since) + 1000000000 * units.toNat % 60) / 1000000000 := by
  have hlt := units.toNat_lt
  have hceil := ceil_mul_sub (show 0 < 1000000000 by decide) units.toNat
    (60 * (now - since) + 1000000000 * units.toNat % 60)
  rw [← remaining_armUnits_mul since now] at hceil
  rw [Countdown.units, Nanos.toNat_toUnits, unitRate, Nanos.second, hceil]
  omega

/-- A reading never grows while time passes. -/
theorem toNat_units_le_of_le (t : Countdown) {now later : Nanos} (h : now ≤ later) :
    (t.units later).toNat ≤ (t.units now).toNat := by
  have hleft : t.remaining later ≤ t.remaining now :=
    Nat.sub_le_sub_left (Nat.sub_le_sub_right h _) _
  have hunits : (t.remaining later * unitRate + Nanos.second - 1) / Nanos.second ≤
      (t.remaining now * unitRate + Nanos.second - 1) / Nanos.second :=
    Nat.div_le_div_right
      (Nat.sub_le_sub_right (Nat.add_le_add_right (Nat.mul_le_mul_right _ hleft) _) 1)
  rw [units, units, Nanos.toNat_toUnits, Nanos.toNat_toUnits]
  exact Nat.le_min.mpr ⟨Nat.min_le_left .., Nat.le_trans (Nat.min_le_right ..) hunits⟩

/-- Something is left exactly as long as something can be read. -/
theorem expired_eq_false_iff (t : Countdown) (now : Nanos) :
    t.expired now = false ↔ 0 < (t.units now).toNat := by
  have hunits (left : Nat) :
      left ≠ 0 ↔ 0 < min 255 ((left * 60 + 1000000000 - 1) / 1000000000) := by
    omega
  rw [units, Nanos.toNat_toUnits, expired, beq_eq_false_iff_ne]
  exact hunits (t.remaining now)

@[simp] theorem units_expiredAt (since now : Nanos) : (expiredAt since).units now = 0 := by
  rw [units, remaining, expiredAt, arm, Nat.zero_sub]
  rfl

end ChipVM.Countdown
