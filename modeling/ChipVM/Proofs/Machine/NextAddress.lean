import ChipVM.Proofs.Session.Bounds

/-!
# Where a step goes

After a step that succeeds the counter stands where the word that was fetched says: at an address
that the word names, at the one on top of the stack, two words on if a test came out, at the same
word again while it waits for a key, and at the next word in all other cases. The ways off the
straight line are told here by the fields of the word, the registers and the keys alone.
-/

namespace ChipVM

namespace Opcode

/-- Two words put opposite tests to the same operands. -/
inductive Opposes (op op' : Opcode) : Prop where
  /-- `3xnn` and `4xnn`. -/
  | byte (hop : op.category = 0x3) (hop' : op'.category = 0x4) (hx : op'.x = op.x)
    (hnn : op'.nn = op.nn)
  /-- `5xyN` and `9xyN`, whatever their low four bits are. -/
  | registers (hop : op.category = 0x5) (hop' : op'.category = 0x9) (hx : op'.x = op.x)
    (hy : op'.y = op.y)
  /-- `Ex9E` and `ExA1`. -/
  | key (hop : op.category = 0xE) (hop' : op'.category = 0xE) (hnn : op.nn.toNat = 0x9E)
    (hnn' : op'.nn.toNat = 0xA1) (hx : op'.x = op.x)

end Opcode

namespace Machine

/-- The word has the one behind it passed over. -/
inductive Passes (m : Machine) (keys : Keypad) (op : Opcode) : Prop where
  /-- `3xnn` with `nn` in `x`. -/
  | byteSame (hop : op.category = 0x3) (h : m.regs.get op.x = op.nn)
  /-- `4xnn` with another byte in `x`. -/
  | byteDiffers (hop : op.category = 0x4) (h : m.regs.get op.x ≠ op.nn)
  /-- `5xyN` with the same byte in `x` and `y`. -/
  | registersSame (hop : op.category = 0x5) (h : m.regs.get op.x = m.regs.get op.y)
  /-- `9xyN` with different bytes in `x` and `y`. -/
  | registersDiffer (hop : op.category = 0x9) (h : m.regs.get op.x ≠ m.regs.get op.y)
  /-- `Ex9E` with the key held that the low four bits of `x` name. -/
  | keyHeld (hop : op.category = 0xE) (hnn : op.nn.toNat = 0x9E)
    (h : keys.isHeld (m.regs.get op.x &&& 0xF) = true)
  /-- `ExA1` with that key not held. -/
  | keyNotHeld (hop : op.category = 0xE) (hnn : op.nn.toNat = 0xA1)
    (h : keys.isHeld (m.regs.get op.x &&& 0xF) = false)

/-- The word, found at the counter, leads to an address other than the one of the next word. -/
inductive LeadsOff (m : Machine) (keys : Keypad) (op : Opcode) : Nat → Prop where
  /-- `1nnn`. -/
  | jump (hop : op.category = 0x1) : LeadsOff m keys op op.nnn.toNat
  /-- `2nnn`. -/
  | call (hop : op.category = 0x2) : LeadsOff m keys op op.nnn.toNat
  /-- `00EE` takes the top of the stack. -/
  | ret {back : UInt16} {rest : List UInt16} (hop : op.word = 0x00EE)
    (hstack : m.stack = back :: rest) : LeadsOff m keys op back.toNat
  /-- `Bnnn` adds the first register. -/
  | offsetFirst (hop : op.category = 0xB) (hvariant : m.variant = .legacy) :
    LeadsOff m keys op (op.nnn.toNat + (m.regs.get Reg.first).toNat)
  /-- `Bxnn` adds `x`. -/
  | offsetNamed (hop : op.category = 0xB) (hvariant : m.variant = .extended) :
    LeadsOff m keys op (op.nnn.toNat + (m.regs.get op.x).toNat)
  /-- `Fx0A` with no key held. -/
  | wait (hop : op.category = 0xF) (hnn : op.nn.toNat = 0x0A)
    (hkeys : ∀ key, keys.isHeld key = false) : LeadsOff m keys op m.regs.pc.toNat
  /-- A test that comes out. -/
  | pass (h : m.Passes keys op) : LeadsOff m keys op (m.regs.pc.toNat + 4)

/-- An instruction skips exactly if its word has the next one passed over. -/
theorem skips_eq_true_iff {m : Machine} {keys : Keypad} {op : Opcode} {i : Instruction Reg}
    (hi : op.StandsFor i) : m.skips keys i = true ↔ m.Passes keys op := by
  constructor
  · intro h
    cases i with
    | skipByte x b =>
      obtain ⟨hop, rfl, rfl⟩ := hi
      exact .byteSame hop (eq_of_beq h)
    | skipNotByte x b =>
      obtain ⟨hop, rfl, rfl⟩ := hi
      exact .byteDiffers hop (bne_iff_ne.mp h)
    | skipSame x y =>
      obtain ⟨hop, rfl, rfl⟩ := hi
      exact .registersSame hop (eq_of_beq h)
    | skipDiffer x y =>
      obtain ⟨hop, rfl, rfl⟩ := hi
      exact .registersDiffer hop (bne_iff_ne.mp h)
    | skipHeld x =>
      obtain ⟨hop, hnn, rfl⟩ := hi
      exact .keyHeld hop hnn h
    | skipNotHeld x =>
      obtain ⟨hop, hnn, rfl⟩ := hi
      exact .keyNotHeld hop hnn ((Bool.not_eq_true' _).mp h)
    | _ => cases h
  · intro h
    cases h with
    | byteSame hop h =>
      cases hi.unique (j := .skipByte op.x op.nn) ⟨hop, rfl, rfl⟩
      exact beq_iff_eq.mpr h
    | byteDiffers hop h =>
      cases hi.unique (j := .skipNotByte op.x op.nn) ⟨hop, rfl, rfl⟩
      exact bne_iff_ne.mpr h
    | registersSame hop h =>
      cases hi.unique (j := .skipSame op.x op.y) ⟨hop, rfl, rfl⟩
      exact beq_iff_eq.mpr h
    | registersDiffer hop h =>
      cases hi.unique (j := .skipDiffer op.x op.y) ⟨hop, rfl, rfl⟩
      exact bne_iff_ne.mpr h
    | keyHeld hop hnn h =>
      cases hi.unique (j := .skipHeld op.x) ⟨hop, hnn, rfl⟩
      exact h
    | keyNotHeld hop hnn h =>
      cases hi.unique (j := .skipNotHeld op.x) ⟨hop, hnn, rfl⟩
      exact (Bool.not_eq_true' _).mpr h

/-- Whether an instruction skips depends on the registers and the keypad alone. -/
theorem skips_congr {m m' : Machine} (h : m'.regs = m.regs) (keys : Keypad) (i : Instruction Reg) :
    m'.skips keys i = m.skips keys i := by
  unfold skips
  rw [h]

/-- Opposite words stand for tests that always get done, and of which one comes out where the other
does not. -/
theorem exists_of_opposes {op op' : Opcode} (h : op.Opposes op') :
    ∃ i i', op.StandsFor i ∧ op'.StandsFor i' ∧ ∀ (m : Machine) (keys : Keypad) (now : Nanos),
      m.execute keys now i = .done (m.withRegs (m.regs.skipIf (m.skips keys i))) ∧
      m.execute keys now i' = .done (m.withRegs (m.regs.skipIf (!m.skips keys i))) := by
  cases h with
  | byte hop hop' hx hnn =>
    exact ⟨.skipByte op.x op.nn, .skipNotByte op.x op.nn, ⟨hop, rfl, rfl⟩,
      ⟨hop', hx.symm, hnn.symm⟩, fun _ _ _ => ⟨rfl, rfl⟩⟩
  | registers hop hop' hx hy =>
    exact ⟨.skipSame op.x op.y, .skipDiffer op.x op.y, ⟨hop, rfl, rfl⟩,
      ⟨hop', hx.symm, hy.symm⟩, fun _ _ _ => ⟨rfl, rfl⟩⟩
  | key hop hop' hnn hnn' hx =>
    exact ⟨.skipHeld op.x, .skipNotHeld op.x, ⟨hop, hnn, rfl⟩, ⟨hop', hnn', hx.symm⟩,
      fun _ _ _ => ⟨rfl, rfl⟩⟩

/-- A test that comes out lands behind the next word. -/
theorem landing_of_skips {m : Machine} {keys : Keypad} {i : Instruction Reg}
    (h : m.skips keys i = true) : m.landing keys i = m.regs.pc + 2 := by
  cases i with
  | skipByte | skipNotByte | skipSame | skipDiffer | skipHeld | skipNotHeld => exact if_pos h
  | _ => cases h

/-- An instruction whose word leads nowhere else lands on the next word. -/
theorem landing_of_not_leadsOff {m : Machine} {keys : Keypad} {op : Opcode} {i : Instruction Reg}
    (hi : op.StandsFor i) (h : ∀ a, ¬ m.LeadsOff keys op a) :
    m.ready.landing keys i = m.ready.regs.pc := by
  have hstays : ¬ m.ready.skips keys i = true := fun hs =>
    h _ (.pass ((skips_eq_true_iff (m := m) hi).mp hs))
  cases i with
  | jump target => exact absurd (.jump hi.1) (h _)
  | call target => exact absurd (.call hi.1) (h _)
  | ret =>
    cases hstack : m.stack with
    | nil => rw [landing, stack_ready, hstack, List.headD_nil]
    | cons back rest => exact absurd (.ret hi hstack) (h _)
  | jumpOffset x base =>
    cases hvariant : m.variant with
    | legacy => exact absurd (.offsetFirst hi.1 hvariant) (h _)
    | extended => exact absurd (.offsetNamed hi.1 hvariant) (h _)
  | awaitKey x =>
    by_cases hkeys : keys.first? = none
    · exact absurd (.wait hi.1 hi.2.1 (Keypad.first?_eq_none_iff.mp hkeys)) (h _)
    · exact if_neg hkeys
  | _ => simp [landing, hstays]

/-- A machine that has fetched a word is ready for the next one, and the sum does not wrap. -/
theorem toNat_pc_ready {m : Machine} {op : Opcode} (h : m.fetch = .ok op) :
    m.ready.regs.pc.toNat = m.regs.pc.toNat + 2 := by
  have hpc := (fetch_eq_ok_iff.mp h).1
  exact toNat_pc_advance (by omega)

/-- A step that succeeds goes where its word leads. -/
theorem pc_step_of_leadsOff {m : Machine} {keys : Keypad} {now : Nanos} {op : Opcode}
    (hfetch : m.fetch = .ok op) (hdone : (m.step keys now).fault = none) {a : Nat}
    (h : m.LeadsOff keys op a) : (m.step keys now).state.regs.pc.toNat = a := by
  have hready := toNat_pc_ready hfetch
  cases h with
  | jump hop =>
    have hruns : m.Runs (.jump op.nnn) := ⟨op, hfetch, hop, rfl⟩
    rw [hruns.pc_step, landing]
  | call hop =>
    have hruns : m.Runs (.call op.nnn) := ⟨op, hfetch, hop, rfl⟩
    have hroom : ¬ stackLimit ≤ m.ready.stack.length := fun hfull => by
      rw [hruns.step, execute, if_pos hfull] at hdone
      cases hdone
    rw [hruns.pc_step, landing, if_neg hroom]
  | ret hop hstack =>
    have hruns : m.Runs .ret := ⟨op, hfetch, hop⟩
    rw [hruns.pc_step, landing, stack_ready, hstack, List.headD_cons]
  | offsetFirst hop hvariant | offsetNamed hop hvariant =>
    have hruns : m.Runs (.jumpOffset op.x op.nnn) := ⟨op, hfetch, hop, rfl, rfl⟩
    have hready : m.ready.variant = _ := hvariant
    rw [hruns.pc_step, landing, toNat_offset op.toNat_nnn_lt, hready]
    rfl
  | wait hop hnn hkeys =>
    have hruns : m.Runs (.awaitKey op.x) := ⟨op, hfetch, hop, hnn, rfl⟩
    rw [hruns.pc_step, landing, if_pos (Keypad.first?_eq_none_iff.mpr hkeys),
      toNat_sub_two (by omega), hready, Nat.add_sub_cancel]
  | pass h =>
    obtain ⟨i, hruns⟩ := exists_runs_of_done hdone
    have hskips : m.ready.skips keys i = true :=
      (skips_eq_true_iff (m := m) (hruns.standsFor hfetch)).mpr h
    have hpc := (fetch_eq_ok_iff.mp hfetch).1
    rw [hruns.pc_step, landing_of_skips hskips, toNat_add_two (by omega), hready]

/-- A step that succeeds and whose word leads nowhere else goes to the next word. -/
theorem pc_step_of_not_leadsOff {m : Machine} {keys : Keypad} {now : Nanos} {op : Opcode}
    (hfetch : m.fetch = .ok op) (hdone : (m.step keys now).fault = none)
    (h : ∀ a, ¬ m.LeadsOff keys op a) :
    (m.step keys now).state.regs.pc.toNat = m.regs.pc.toNat + 2 := by
  obtain ⟨i, hruns⟩ := exists_runs_of_done hdone
  rw [hruns.pc_step, landing_of_not_leadsOff (hruns.standsFor hfetch) h, toNat_pc_ready hfetch]

/-- Past a fetched word a test moves the counter to the next word or to the one behind it. -/
theorem toNat_pc_skipIf_ready {m : Machine} {op : Opcode} (h : m.fetch = .ok op) (b : Bool) :
    (m.ready.regs.skipIf b).pc.toNat = m.regs.pc.toNat + if b then 4 else 2 := by
  have hready := toNat_pc_ready h
  have hpc := (fetch_eq_ok_iff.mp h).1
  cases b with
  | true =>
    rw [Registers.pc_skipIf, if_pos rfl, toNat_add_two (by omega), hready]
    rfl
  | false => exact hready

/-- Two machines with the same registers come to opposite words. Both steps get done, and exactly
one passes the word behind over. -/
theorem pc_step_of_opposes {m m' : Machine} (hregs : m'.regs = m.regs) (keys : Keypad)
    (now now' : Nanos) {op op' : Opcode} (hopposes : op.Opposes op') (hfetch : m.fetch = .ok op)
    (hfetch' : m'.fetch = .ok op') :
    (m.step keys now).fault = none ∧ (m'.step keys now').fault = none ∧
      let a := m.regs.pc.toNat
      let next := (m.step keys now).state.regs.pc.toNat
      let next' := (m'.step keys now').state.regs.pc.toNat
      next = a + 4 ∧ next' = a + 2 ∨ next = a + 2 ∧ next' = a + 4 := by
  obtain ⟨i, i', hi, hi', hexecute⟩ := exists_of_opposes hopposes
  have hruns : m.Runs i := ⟨op, hfetch, hi⟩
  have hruns' : m'.Runs i' := ⟨op', hfetch', hi'⟩
  have hready : m'.ready.regs = m.ready.regs := congrArg Registers.skip hregs
  have hpc := toNat_pc_skipIf_ready hfetch
  rw [hruns.step, hruns'.step, (hexecute m.ready keys now).1, (hexecute m'.ready keys now').2,
    skips_congr hready]
  refine ⟨rfl, rfl, ?_⟩
  dsimp only [Outcome.state_done, withRegs]
  rw [hready]
  cases m.ready.skips keys i with
  | true => exact Or.inl ⟨hpc true, hpc false⟩
  | false => exact Or.inr ⟨hpc false, hpc true⟩

/-- A step that fetches a word and succeeds goes where the word leads: to `nnn` after `1nnn` and
`2nnn`, to the top of the stack after `00EE`, to `nnn` and an offset after `Bxnn`, back to the same
word after `Fx0A` with no key held, behind the next word after a test that came out, and to the next
word after anything else. Of two opposite words, in states with the same registers and with the same
keys held, exactly one has the word behind it passed over. -/
theorem step_goes_where_word_leads {m : Machine} {op : Opcode} (hfetch : m.fetch = .ok op)
    (keys : Keypad) (now : Nanos) :
    let a := m.regs.pc.toNat
    let next := (m.step keys now).state.regs.pc.toNat
    ((m.step keys now).fault = none →
      (∀ target, m.LeadsOff keys op target → next = target) ∧
      ((¬ ∃ target, m.LeadsOff keys op target) → next = a + 2)) ∧
    ∀ (m' : Machine) (op' : Opcode) (now' : Nanos), m'.regs = m.regs → m'.fetch = .ok op' →
      op.Opposes op' →
        let next' := (m'.step keys now').state.regs.pc.toNat
        (m.step keys now).fault = none ∧ (m'.step keys now').fault = none ∧
          (next = a + 4 ∧ next' = a + 2 ∨ next = a + 2 ∧ next' = a + 4) := by
  intro a next
  refine ⟨fun hdone => ⟨fun target h => pc_step_of_leadsOff hfetch hdone h, fun h => ?_⟩,
    fun m' op' now' hregs hfetch' hopposes => ?_⟩
  · exact pc_step_of_not_leadsOff hfetch hdone (not_exists.mp h)
  · exact pc_step_of_opposes hregs keys now now' hopposes hfetch hfetch'

/-- A machine with a word in the last two bytes of memory and its counter there. -/
def atTheEnd (high low : UInt8) : Machine :=
  let start := initial .extended (RandomStream.ofSeed 8) 0
  { start with memory := start.memory.overwrite 0xFFE [high, low], regs.pc := 0xFFE }

/-- Of two opposite tests at the end of memory exactly one skips, past the last address. -/
theorem tests_at_the_end :
    (atTheEnd 0x50 0x17).fetch = .ok ⟨0x5017⟩ ∧ (atTheEnd 0x90 0x1C).fetch = .ok ⟨0x901C⟩ ∧
    ((atTheEnd 0x50 0x17).step .released 0).fault = none ∧
    ((atTheEnd 0x90 0x1C).step .released 0).fault = none ∧
    (⟨0x5017⟩ : Opcode).Opposes ⟨0x901C⟩ ∧
    (atTheEnd 0x50 0x17).LeadsOff .released ⟨0x5017⟩ 0x1002 ∧
    (¬ ∃ target, (atTheEnd 0x90 0x1C).LeadsOff .released ⟨0x901C⟩ target) ∧
    ((atTheEnd 0x50 0x17).step .released 0).state.regs.pc.toNat = 0x1002 ∧
    ((atTheEnd 0x90 0x1C).step .released 0).state.regs.pc.toNat = 0x1000 ∧
    (((atTheEnd 0x50 0x17).step .released 0).state.regs.pc.toNat = 0x1002 ∧
      ((atTheEnd 0x90 0x1C).step .released 0).state.regs.pc.toNat = 0x1000 ∨
    ((atTheEnd 0x50 0x17).step .released 0).state.regs.pc.toNat = 0x1000 ∧
      ((atTheEnd 0x90 0x1C).step .released 0).state.regs.pc.toNat = 0x1002) := by
  have hfetch : (atTheEnd 0x50 0x17).fetch = .ok ⟨0x5017⟩ :=
    fetch_of_overwrite 0x50 0x17 (Nat.le_of_ble_eq_true rfl) rfl
  have hfetch' : (atTheEnd 0x90 0x1C).fetch = .ok ⟨0x901C⟩ :=
    fetch_of_overwrite 0x90 0x1C (Nat.le_of_ble_eq_true rfl) rfl
  have hopposes : (⟨0x5017⟩ : Opcode).Opposes ⟨0x901C⟩ :=
    .registers (by decide) (by decide) (by decide) (by decide)
  have hleads : (atTheEnd 0x50 0x17).LeadsOff .released ⟨0x5017⟩ 0x1002 :=
    .pass (.registersSame (by decide) (by decide +kernel))
  have hstraight : ¬ ∃ target, (atTheEnd 0x90 0x1C).LeadsOff .released ⟨0x901C⟩ target := by
    rintro ⟨target, h⟩
    cases h with
    | jump hop | call hop | ret hop | offsetFirst hop | offsetNamed hop | wait hop =>
      exact absurd hop (by decide)
    | pass h =>
      cases h with
      | registersDiffer _ h => exact h (by decide +kernel)
      | byteSame hop | byteDiffers hop | registersSame hop | keyHeld hop | keyNotHeld hop =>
        exact absurd hop (by decide)
  obtain ⟨hgoes, hpair⟩ := step_goes_where_word_leads hfetch .released 0
  obtain ⟨hgoes', -⟩ := step_goes_where_word_leads hfetch' .released 0
  obtain ⟨hdone, hdone', hone⟩ := hpair (atTheEnd 0x90 0x1C) ⟨0x901C⟩ 0 rfl hfetch' hopposes
  exact ⟨hfetch, hfetch', hdone, hdone', hopposes, hleads, hstraight, (hgoes hdone).1 _ hleads,
    (hgoes' hdone').2 hstraight, hone⟩

end Machine

end ChipVM
