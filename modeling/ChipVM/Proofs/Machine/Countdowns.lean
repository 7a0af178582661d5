import ChipVM.Proofs.Machine.Step

/-!
# Who looks at a countdown

Two instructions set a countdown and one reads it; no other looks at the countdowns or at the time.
So machines that differ in their countdowns alone go on differing in them alone, whatever the time is
at either of them, until the delay is read.
-/

namespace ChipVM

namespace Machine

/-- The same machine with other countdowns. -/
def withCountdowns (m : Machine) (delay sound : Countdown) : Machine := { m with delay, sound }

/-- The machines differ in their countdowns at most. -/
def SameButCountdowns (a b : Machine) : Prop := ∃ delay sound, b = a.withCountdowns delay sound

theorem SameButCountdowns.refl (m : Machine) : m.SameButCountdowns m := ⟨m.delay, m.sound, rfl⟩

/-- Drawing does not ask for the countdowns. -/
theorem drawSprite_withCountdowns (m : Machine) (delay sound : Countdown) (x y : Reg) (n : UInt8) :
    (m.withCountdowns delay sound).drawSprite x y n =
      (m.drawSprite x y n).within (·.withCountdowns delay sound) := by
  unfold drawSprite withCountdowns
  cases m.memory.read m.regs.i n.toNat <;> rfl

/-- The wait for a key does not ask for the countdowns. -/
theorem takeKey_withCountdowns (m : Machine) (delay sound : Countdown) (keys : Keypad) (x : Reg) :
    (m.withCountdowns delay sound).takeKey keys x =
      (m.takeKey keys x).withCountdowns delay sound := by
  unfold takeKey
  cases keys.first? <;> rfl

/-- An instruction that does not read the delay does the same whatever the countdowns and the time
are, and at most sets the countdowns to something else. -/
theorem execute_sameButCountdowns {a b : Machine} (h : a.SameButCountdowns b) (keys : Keypad)
    (now now' : Nanos) {i : Instruction Reg} (hi : ∀ x, i ≠ .readDelay x) :
    (a.execute keys now i).Related SameButCountdowns (b.execute keys now' i) := by
  obtain ⟨delay, sound, rfl⟩ := h
  cases i with
  | readDelay x => exact absurd rfl (hi x)
  | setDelay x => exact ⟨rfl, Countdown.armUnits now' (a.regs.get x), sound, rfl⟩
  | setSound x => exact ⟨rfl, delay, Countdown.armUnits now' (a.regs.get x), rfl⟩
  | ret =>
    cases hs : a.stack <;>
      exact ⟨by simp [execute, withCountdowns, hs], delay, sound,
        by simp [execute, withCountdowns, hs]⟩
  | call target =>
    by_cases hfull : stackLimit ≤ a.stack.length <;>
      exact ⟨by simp [execute, withCountdowns, hfull], delay, sound,
        by simp [execute, withCountdowns, hfull]⟩
  | draw x y n =>
    simp only [execute, drawSprite_withCountdowns]
    exact ⟨rfl, delay, sound, rfl⟩
  | awaitKey x =>
    simp only [execute, takeKey_withCountdowns]
    exact ⟨rfl, delay, sound, rfl⟩
  | _ => exact ⟨rfl, delay, sound, rfl⟩

/-- A step that does not read the delay keeps the difference to the countdowns. -/
theorem step_sameButCountdowns {a b : Machine} (h : a.SameButCountdowns b) (keys : Keypad)
    (now now' : Nanos) (hread : ∀ x, ¬ a.Runs (.readDelay x)) :
    (a.step keys now).Related SameButCountdowns (b.step keys now') := by
  obtain ⟨delay, sound, rfl⟩ := h
  refine step_related keys keys now now' rfl rfl ⟨delay, sound, rfl⟩ ⟨delay, sound, rfl⟩
    fun i hi => ?_
  refine execute_sameButCountdowns ⟨delay, sound, rfl⟩ keys now now' fun x hx => ?_
  exact hread x (hx ▸ hi)

end Machine

end ChipVM
