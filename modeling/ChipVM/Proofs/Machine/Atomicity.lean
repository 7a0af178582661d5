import ChipVM.Proofs.Machine.Step

/-!
# Failed steps are atomic

Every instruction that can meet a fault meets it before it has changed anything. So a step that
fails has moved the program counter past the word it fetched, if it fetched one, may have ended the
wait for a key, and has done nothing else.
-/

namespace ChipVM

/-- A write that is refused changes nothing. -/
theorem Memory.atomic_write (m : Memory) (addr : UInt16) (data : List UInt8) :
    (m.write addr data).Atomic m :=
  Outcome.atomic_ask _ fun _ => Outcome.atomic_done _ _

/-- A block that is refused changes neither registers nor memory. -/
theorem atomic_copyBlock (r : Registers) (m : Memory) (x : Reg) (dir : Transfer) :
    (copyBlock r m x dir).Atomic (r, m) := by
  cases dir with
  | store => exact (m.atomic_write r.i (r.upTo x)).within rfl
  | load => exact Outcome.atomic_ask _ fun _ => Outcome.atomic_done _ _

/-- Under either variant a transfer that is refused has touched neither registers nor memory. -/
theorem Rules.atomic_transfer (rules : Rules) (r : Registers) (m : Memory) (x : Reg)
    (dir : Transfer) : (rules.transfer r m x dir).Atomic (r, m) :=
  (atomic_copyBlock r m x dir).andThen_done _

namespace Machine

/-- A sprite that cannot be read is not drawn at all. -/
theorem atomic_drawSprite (m : Machine) (x y : Reg) (n : UInt8) :
    (m.drawSprite x y n).Atomic m :=
  Outcome.atomic_ask _ fun _ => Outcome.atomic_done _ _

/-- An instruction that meets a fault leaves the machine as it found it. -/
theorem atomic_execute (m : Machine) (keys : Keypad) (now : Nanos) (i : Instruction Reg) :
    (m.execute keys now i).Atomic m := by
  cases i with
  | ret =>
    rw [execute]
    split
    · exact Outcome.atomic_failed _ _
    · exact Outcome.atomic_done _ _
  | call target =>
    rw [execute]
    split
    · exact Outcome.atomic_failed _ _
    · exact Outcome.atomic_done _ _
  | draw x y n => exact m.atomic_drawSprite x y n
  | decimal x => exact (m.memory.atomic_write _ _).within rfl
  | block dir x => exact (m.variant.rules.atomic_transfer _ _ _ _).within rfl
  | _ => exact Outcome.atomic_done _ _

/-- A failed step leaves everything as it was but the program counter and the wait for a key. The
counter stays exactly if no word could be fetched, and is moved by two otherwise. -/
theorem state_of_failed_step {m : Machine} {keys : Keypad} {now : Nanos} {f : Fault}
    (h : (m.step keys now).fault = some f) :
    ∃ pc waiting,
      (m.step keys now).state = { m with regs.pc := pc, awaitingKey := waiting } ∧
      ((∃ e, m.fetch = .error e) ↔ 0xFFE < m.regs.pc.toNat) ∧
      pc.toNat = if 0xFFE < m.regs.pc.toNat then m.regs.pc.toNat else m.regs.pc.toNat + 2 := by
  rcases m.step_cases keys now with ⟨hpc, hs⟩ | ⟨hpc, -, hs⟩ | ⟨i, hpc, -, hs⟩
  · refine ⟨m.regs.pc, m.awaitingKey, by rw [hs]; rfl, ?_, by rw [if_pos hpc]⟩
    exact iff_of_true ⟨_, fetch_of_lt hpc⟩ hpc
  all_goals
    have hn : ¬ 0xFFE < m.regs.pc.toNat := by omega
    have hf : ¬ ∃ e, m.fetch = .error e := by
      rw [fetch_of_le hpc]
      exact nofun
    have hadv := toNat_pc_advance (m := m) (by omega)
  · exact ⟨m.advance.regs.pc, m.awaitingKey, by rw [hs]; rfl, iff_of_false hf hn,
      by rw [if_neg hn, hadv]⟩
  · rw [hs] at h ⊢
    have hm := m.ready.atomic_execute keys now i (by simp [h])
    exact ⟨m.advance.regs.pc, false, by rw [hm]; rfl, iff_of_false hf hn,
      by rw [if_neg hn, hadv]⟩

/-- A machine about to store two registers at the last address, where only the first has room. -/
def storingPastEnd : Machine :=
  let start := (initial .legacy (RandomStream.ofSeed 8) 0).load ⟨[0xAF, 0xFF, 0xF1, 0x55], by decide⟩
  (start.state.step .released 0).state

/-- A block that runs off the end of memory leaves no byte and no register changed. -/
theorem refused_store_is_atomic :
    (storingPastEnd.step .released 0).fault = some (.outOfBounds 0x1000) ∧
      ∃ pc waiting,
        (storingPastEnd.step .released 0).state =
          { storingPastEnd with regs.pc := pc, awaitingKey := waiting } ∧
        ((∃ e, storingPastEnd.fetch = .error e) ↔ 0xFFE < storingPastEnd.regs.pc.toNat) ∧
        pc.toNat = if 0xFFE < storingPastEnd.regs.pc.toNat then storingPastEnd.regs.pc.toNat
          else storingPastEnd.regs.pc.toNat + 2 := by
  have h : (storingPastEnd.step .released 0).fault = some (.outOfBounds 0x1000) := by
    decide +kernel
  exact ⟨h, state_of_failed_step h⟩

end Machine

end ChipVM
