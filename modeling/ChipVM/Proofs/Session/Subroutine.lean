import ChipVM.Proofs.Machine.Control
import ChipVM.Session

/-!
# Subroutines return to their caller

An event pushes one address, pops one or leaves the stack alone, and only a return pops. So while a
call is open nothing below its return address can change, and the event that closes it can only be a
return to just behind it.
-/

namespace ChipVM

/-- A return with a call open closes the call and goes back. -/
theorem Machine.step_of_ret {m : Machine} (keys : Keypad) (now : Nanos)
    (hpc : m.regs.pc.toNat ≤ 0xFFE) (hop : m.opcode.word = 0x00EE) {back : UInt16}
    {rest : List UInt16} (hs : m.stack = back :: rest) :
    m.step keys now = .done { m.ready with stack := rest, regs.pc := back } := by
  have hd := Instruction.decode?_of_standsFor (i := .ret) hop
  rw [step_of_decoded keys now hpc hd, execute, stack_ready, hs]

namespace Session

/-- What an event can do to the stack. A pop is a return that succeeds and goes to the address that
was popped. -/
inductive StackMove (s : Session) (e : Event) : Prop where
  | keep (h : (s.apply e).machine.stack = s.machine.stack)
  | push (back : UInt16) (h : (s.apply e).machine.stack = back :: s.machine.stack)
  | pop (he : e = .step) (hop : s.machine.fetch = .ok ⟨0x00EE⟩) (hok : s.outcome.fault = none)
    (h : s.machine.stack = (s.apply e).machine.regs.pc :: (s.apply e).machine.stack)

/-- A step moves the stack as its instruction does. -/
theorem stackMove_step (s : Session) : s.StackMove .step := by
  rcases s.machine.step_cases s.keys s.now with ⟨-, hs⟩ | ⟨-, -, hs⟩ | ⟨i, hpc, hd, hs⟩
  · exact .keep (by rw [apply, step, outcome, hs]; rfl)
  · exact .keep (by rw [apply, step, outcome, hs]; rfl)
  · have hstack : (s.apply .step).machine.stack = s.machine.ready.stackAfter i := by
      rw [apply, step, outcome, hs, Machine.stack_execute]
    cases i with
    | ret =>
      cases hback : s.machine.stack with
      | nil => exact .keep (by rw [hstack, Machine.stackAfter, Machine.stack_ready, hback]; rfl)
      | cons back rest =>
        have hop : s.machine.opcode.word = 0x00EE := Instruction.standsFor_of_decode? hd
        have hret := Machine.step_of_ret s.keys s.now hpc hop hback
        refine .pop rfl (Machine.fetch_eq_ok_iff.mpr ⟨hpc, congrArg Opcode.mk hop.symm⟩) ?_ ?_
        · rw [outcome, hret, Outcome.fault_done]
        · rw [hback, apply, step, outcome, hret]
          rfl
    | call target =>
      by_cases hfull : Machine.stackLimit ≤ s.machine.stack.length
      · exact .keep (by rw [hstack, Machine.stackAfter, Machine.stack_ready, if_pos hfull])
      · exact .push _ (by rw [hstack, Machine.stackAfter, Machine.stack_ready, if_neg hfull])
    | _ => exact .keep hstack

/-- Every event moves the stack by at most one return address. -/
theorem stackMove_apply (s : Session) (e : Event) : s.StackMove e := by
  cases e with
  | load p => exact .keep (by rw [apply, Machine.load_eq_done]; rfl)
  | step => exact s.stackMove_step
  | key change => exact .keep rfl
  | wait time => exact .keep rfl

/-- The bottom of the stack survives an event that leaves the stack at least as high. -/
theorem suffix_stack_apply {base : List UInt16} {s : Session} {e : Event}
    (hs : base <:+ s.machine.stack) (hdeep : base.length ≤ (s.apply e).machine.stack.length) :
    base <:+ (s.apply e).machine.stack := by
  rcases s.stackMove_apply e with h | ⟨back, h⟩ | ⟨-, -, -, h⟩
  · rwa [h]
  · rw [h]
    exact hs.trans (List.suffix_cons back _)
  · rw [h] at hs
    rcases List.suffix_cons_iff.mp hs with hall | hrest
    · rw [hall, List.length_cons] at hdeep
      omega
    · exact hrest

/-- The bottom of the stack survives a history that never goes below its height. -/
theorem suffix_stack_run {base : List UInt16} {s : Session} {events : List Event}
    (hs : base <:+ s.machine.stack)
    (hdeep : ∀ n ≤ events.length,
      base.length ≤ (s.run (events.take n)).machine.stack.length) :
    base <:+ (s.run events).machine.stack := by
  induction events generalizing s with
  | nil => exact hs
  | cons e es ih =>
    have hfirst := hdeep 1 (by simp)
    refine ih (suffix_stack_apply hs hfirst) fun n hn => ?_
    exact hdeep (n + 1) (by simpa using hn)

/-- A call that succeeds was fetched from memory and puts the address behind its word on top of the
stack. -/
theorem stack_step_of_call {s : Session} (hcall : s.machine.opcode.category = 0x2)
    (hok : s.outcome.fault = none) :
    s.machine.regs.pc.toNat ≤ 0xFFE ∧
      s.step.machine.stack = s.machine.advance.regs.pc :: s.machine.stack := by
  have hd := Instruction.decode?_of_standsFor (i := .call s.machine.opcode.nnn) ⟨hcall, rfl⟩
  rcases s.machine.step_cases s.keys s.now with ⟨-, hs⟩ | ⟨-, -, hs⟩ | ⟨i, hpc, hi, hs⟩
  · rw [outcome, hs] at hok
    cases hok
  · rw [outcome, hs] at hok
    cases hok
  · cases hd.symm.trans hi
    rw [outcome, hs, Machine.execute, Machine.stack_ready] at hok
    rw [step, outcome, hs, Machine.stack_execute, Machine.stackAfter, Machine.stack_ready]
    split at hok
    · cases hok
    · next hroom =>
      rw [if_neg hroom]
      exact ⟨hpc, rfl⟩

/-- Let a call succeed at address `a` with `d` calls open, and let any history follow that keeps more
than `d` calls open. Then the `d + 1` lowest entries of the stack are still the return address
`a + 2` and what was there before the call; and whatever event takes the stack back to `d` entries is
a return that goes to `a + 2` and leaves the stack as it was before the call. -/
theorem call_returns {s : Session} {events : List Event}
    (hcall : s.machine.opcode.category = 0x2) (hok : s.outcome.fault = none)
    (hopen : ∀ n ≤ events.length,
      s.machine.depth < (s.step.run (events.take n)).machine.depth) :
    ∃ back : UInt16, back.toNat = s.machine.regs.pc.toNat + 2 ∧
      back :: s.machine.stack <:+ (s.step.run events).machine.stack ∧
      ∀ e, ((s.step.run events).apply e).machine.depth ≤ s.machine.depth →
        e = .step ∧
        (s.step.run events).machine.fetch = .ok ⟨0x00EE⟩ ∧
        (s.step.run events).outcome.fault = none ∧
        ((s.step.run events).apply e).machine.regs.pc = back ∧
        ((s.step.run events).apply e).machine.stack = s.machine.stack := by
  obtain ⟨hpc, hpush⟩ := stack_step_of_call hcall hok
  have hbase : s.machine.advance.regs.pc :: s.machine.stack <:+
      (s.step.run events).machine.stack :=
    suffix_stack_run (hpush ▸ List.suffix_refl _) hopen
  refine ⟨_, Machine.toNat_pc_advance (by omega), hbase, fun e he => ?_⟩
  have hlen := hbase.length_le
  simp only [Machine.depth, List.length_cons] at he hlen
  rcases (s.step.run events).stackMove_apply e with h | ⟨back, h⟩ | ⟨hstep, hret, hgood, h⟩
  · rw [h] at he
    omega
  · rw [h, List.length_cons] at he
    omega
  · rw [h] at hbase hlen
    have heq := hbase.eq_of_length (by simp only [List.length_cons] at hlen ⊢; omega)
    rw [List.cons.injEq] at heq
    exact ⟨hstep, hret, hgood, heq.1.symm, heq.2.symm⟩

/-- A subroutine at `206` that calls another one at `20A`; a return waits behind each call. -/
def nestedCalls : Program :=
  ⟨[0x22, 0x06, 0x00, 0xEE, 0x00, 0x00, 0x22, 0x0A, 0x00, 0xEE, 0x00, 0xEE], by decide⟩

/-- The nested calls, about to make the first one. -/
def nestedCaller : Session := (initial .legacy (RandomStream.ofSeed 8)).run [.load nestedCalls]

/-- From the first call on, the program is loaded once more inside the inner subroutine and makes its
calls again, and all calls but the first return. -/
def nestedHistory : List Event :=
  [.step, .load nestedCalls, .step, .step, .key (.press 3), .step, .wait 5, .step, .step]

/-- A call with another call inside returns behind itself with the stack it found. -/
theorem nested_call_returns :
    (nestedCaller.machine.opcode.category = 0x2 ∧ nestedCaller.outcome.fault = none ∧
      ∀ n ≤ nestedHistory.length,
        nestedCaller.machine.depth <
          (nestedCaller.step.run (nestedHistory.take n)).machine.depth) ∧
      ((nestedCaller.step.run nestedHistory).apply .step).machine.depth ≤
        nestedCaller.machine.depth ∧
      ((nestedCaller.step.run nestedHistory).apply .step).machine.regs.pc.toNat =
        nestedCaller.machine.regs.pc.toNat + 2 ∧
      ((nestedCaller.step.run nestedHistory).apply .step).machine.stack =
        nestedCaller.machine.stack := by
  have hrun : (nestedCaller.machine.opcode.category = 0x2 ∧ nestedCaller.outcome.fault = none ∧
      ∀ n ≤ nestedHistory.length,
        nestedCaller.machine.depth <
          (nestedCaller.step.run (nestedHistory.take n)).machine.depth) ∧
      ((nestedCaller.step.run nestedHistory).apply .step).machine.depth ≤
        nestedCaller.machine.depth := by
    decide +kernel
  obtain ⟨⟨hcall, hok, hopen⟩, hclosed⟩ := hrun
  obtain ⟨back, hback, -, hreturn⟩ := call_returns hcall hok hopen
  obtain ⟨-, -, -, hpc, hstack⟩ := hreturn .step hclosed
  rw [← hpc] at hback
  exact ⟨⟨hcall, hok, hopen⟩, hclosed, hback, hstack⟩

end Session

end ChipVM
