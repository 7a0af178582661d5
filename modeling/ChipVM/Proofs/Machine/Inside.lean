import ChipVM.Proofs.Machine.Step

/-!
# What a machine keeps to itself

Five families of instructions look at the held keys, at the time or at the random stream. The others
work on the memory, the registers, the stack and the display alone. So two machines that are the
same in these stay the same in them, and report the same, whatever keys are held, whatever the time
is and whatever is left of their countdowns and random streams, until one of the five is carried
out.
-/

namespace ChipVM

/-- The instruction looks at the held keys, at the time or at the random stream. -/
def Instruction.looksOutside {ρ : Type} : Instruction ρ → Bool
  | .skipHeld _ | .skipNotHeld _ | .awaitKey _ | .readDelay _ | .random .. => true
  | _ => false

namespace Machine

/-- The machines are of one variant and the same in all that their programs work on. The countdowns,
the random stream and the wait for a key may differ. -/
structure SameInside (a b : Machine) : Prop where
  variant : b.variant = a.variant
  memory : b.memory = a.memory
  /-- The data registers, the index and the program counter. -/
  regs : b.regs = a.regs
  stack : b.stack = a.stack
  display : b.display = a.display

/-- The next step carries out an instruction that looks outside. -/
def LooksOutside (m : Machine) : Prop := ∃ i, m.Runs i ∧ i.looksOutside = true

/-- Countdowns, random bytes and the wait for a key are not inside. -/
theorem sameInside_with (m : Machine) (delay sound : Countdown) (random : RandomStream)
    (awaitingKey : Bool) : m.SameInside { m with delay, sound, random, awaitingKey } :=
  ⟨rfl, rfl, rfl, rfl, rfl⟩

/-- Conversely, a machine that is the same inside is the same machine with other countdowns, another
random stream and another word on the wait for a key. -/
theorem SameInside.exists_eq {a b : Machine} (h : a.SameInside b) :
    ∃ delay sound random awaitingKey, b = { a with delay, sound, random, awaitingKey } := by
  obtain ⟨hvariant, hmemory, hregs, hstack, hdisplay⟩ := h
  cases b
  subst hvariant hmemory hregs hstack hdisplay
  exact ⟨_, _, _, _, rfl⟩

/-- An instruction that does not look outside does the same inside, whatever is outside. -/
theorem execute_sameInside {a b : Machine} (h : a.SameInside b) (keys keys' : Keypad)
    (now now' : Nanos) {i : Instruction Reg} (hi : i.looksOutside = false) :
    (a.execute keys now i).Related SameInside (b.execute keys' now' i) := by
  obtain ⟨delay, sound, random, awaitingKey, rfl⟩ := h.exists_eq
  cases i with
  | skipHeld | skipNotHeld | awaitKey | readDelay | random => cases hi
  | ret =>
    cases hs : a.stack with
    | nil =>
      simp only [execute, hs]
      exact ⟨rfl, rfl, rfl, rfl, hs.symm, rfl⟩
    | cons back rest =>
      simp only [execute, hs]
      exact ⟨rfl, sameInside_with ..⟩
  | call target =>
    simp only [execute]
    split
    · exact ⟨rfl, sameInside_with ..⟩
    · exact ⟨rfl, sameInside_with ..⟩
  | draw x y n =>
    simp only [execute, drawSprite]
    cases a.memory.read a.regs.i n.toNat with
    | ok sprite => exact ⟨rfl, sameInside_with ..⟩
    | error f => exact ⟨rfl, sameInside_with ..⟩
  | _ => exact ⟨rfl, sameInside_with ..⟩

/-- A step that does not look outside comes to the same inside, whatever is outside. -/
theorem step_sameInside {a b : Machine} (h : a.SameInside b) (keys keys' : Keypad)
    (now now' : Nanos) (hi : ¬ a.LooksOutside) :
    (a.step keys now).Related SameInside (b.step keys' now') := by
  have hregs : b.regs.pc = a.regs.pc := congrArg Registers.pc h.regs
  have hskip : b.regs.skip = a.regs.skip := congrArg Registers.skip h.regs
  have hadvance : a.advance.SameInside b.advance :=
    ⟨h.variant, h.memory, hskip, h.stack, h.display⟩
  have hready : a.ready.SameInside b.ready :=
    ⟨h.variant, h.memory, hskip, h.stack, h.display⟩
  refine step_related keys keys' now now' h.memory hregs h hadvance fun i hrun => ?_
  have hclosed : i.looksOutside = false := Bool.eq_false_iff.mpr fun hout => hi ⟨i, hrun, hout⟩
  exact execute_sameInside hready keys keys' now now' hclosed

/-- Loading a program does the same inside. -/
theorem load_sameInside {a b : Machine} (h : a.SameInside b) (p : Program) :
    (a.load p).state.SameInside (b.load p).state := by
  rw [a.load_eq_done p, b.load_eq_done p]
  have hmemory := congrArg (·.overwrite Memory.programStart.toNat p.bytes) h.memory
  have hregs := congrArg (fun r => { r with pc := Memory.programStart }) h.regs
  exact ⟨h.variant, hmemory, hregs, h.stack, h.display⟩

end Machine

end ChipVM
