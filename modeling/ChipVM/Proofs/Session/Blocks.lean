import ChipVM.Proofs.Machine.Blocks
import ChipVM.Proofs.Session.Trace

/-!
# Blocks stored one after another

Let a history store block after block and otherwise leave the index alone. In a legacy machine each
block begins where the one before it ends, so that they stand in memory as one long block. In an
extended machine they all begin at the same address, so that each place holds what the last block has
put there that was long enough.
-/

namespace ChipVM.Session

open Memory (Block)

/-- The event replaces the program. -/
def Event.isLoad : Event → Bool
  | .load _ => true
  | _ => false

/-- The block that a store of the registers up to `x` puts into memory. -/
def block (s : Session) (x : Reg) : Block :=
  ⟨s.machine.regs.i.toNat, s.machine.regs.upTo x⟩

/-- The event changes neither the index nor a byte of the blocks. In a legacy machine nothing need be
asked about the bytes but of a new program: the blocks lie below the index, where no step writes. -/
structure Spares (s : Session) (bs : List Block) (e : Event) : Prop where
  index : (s.apply e).machine.regs.i = s.machine.regs.i
  bytes : s.machine.variant = .extended ∨ e.isLoad = true → ∀ b ∈ bs,
    (s.apply e).machine.memory.bytesFrom b.start b.bytes.length =
      s.machine.memory.bytesFrom b.start b.bytes.length

/-- The history stores the blocks, one after another, and whatever else happens spares the index and
the blocks that have been stored by then. -/
inductive Fills (s : Session) : List Event → List Block → Prop
  | nil : s.Fills [] []
  | store {events : List Event} {bs : List Block} {x : Reg} : s.Fills events bs →
      (s.run events).machine.Runs (.block .store x) → (s.run events).outcome.fault = none →
      s.Fills (events ++ [.step]) (bs ++ [(s.run events).block x])
  | other {events : List Event} {bs : List Block} {e : Event} : s.Fills events bs →
      (s.run events).Spares bs e → s.Fills (events ++ [e]) bs

theorem run_snoc (s : Session) (events : List Event) (e : Event) :
    s.run (events ++ [e]) = (s.run events).apply e := s.run_append events [e]

/-- What holds at the start and is kept by each store and by all that spares the blocks holds of the
blocks that a history stores. -/
theorem Fills.kept {P : Session → List Block → Prop} {s : Session} {events : List Event}
    {bs : List Block} (h : s.Fills events bs) (hnil : P s [])
    (hstore : ∀ {t : Session} {bs : List Block} {x : Reg}, P t bs →
      t.machine.Runs (.block .store x) → t.outcome.fault = none →
      P (t.apply .step) (bs ++ [t.block x]))
    (hspared : ∀ {t : Session} {bs : List Block} {e : Event}, P t bs → t.Spares bs e →
      P (t.apply e) bs) : P (s.run events) bs := by
  induction h with
  | nil => exact hnil
  | store _ hruns hdone ih =>
    rw [run_snoc]
    exact hstore ih hruns hdone
  | other _ he ih =>
    rw [run_snoc]
    exact hspared ih he

/-- No event changes what the machine is. -/
theorem variant_apply (s : Session) (e : Event) :
    (s.apply e).machine.variant = s.machine.variant := by
  have hpart := part_apply Machine.variant (fun m _ _ => m.variant)
    (fun m p => by rw [m.load_eq_done p]; rfl) (fun _ => rfl)
    (fun m keys now i => m.ready.variant_execute keys now i) s e
  rw [hpart]
  cases s.performs? e <;> rfl

section Store

variable {s : Session} {x : Reg}

/-- A store without a fault has its range inside memory. -/
theorem add_le_of_store_done (hruns : s.machine.Runs (.block .store x))
    (hdone : s.outcome.fault = none) : s.machine.regs.i.toNat + x.val + 1 ≤ 0x1000 := by
  rw [outcome, hruns.step] at hdone
  exact Machine.inRange_of_block (m := s.machine.ready) hdone

/-- A store without a fault leaves the stored block. -/
theorem machine_apply_of_store (hruns : s.machine.Runs (.block .store x))
    (hdone : s.outcome.fault = none) : (s.apply .step).machine = s.machine.stored x := by
  rw [apply, step, outcome, hruns.step_store (add_le_of_store_done hruns hdone)]
  rfl

theorem stop_block (s : Session) (x : Reg) :
    (s.block x).stop = s.machine.regs.i.toNat + x.val + 1 := by
  rw [Block.stop, block, Registers.length_upTo, Nat.add_assoc]

/-- A block lies in memory once it has been stored. -/
theorem liesIn_of_store (hruns : s.machine.Runs (.block .store x))
    (hdone : s.outcome.fault = none) : (s.block x).LiesIn (s.apply .step).machine.memory := by
  have hrange : s.machine.regs.i.toNat + (s.machine.regs.upTo x).length ≤ Memory.size := by
    rw [Registers.length_upTo]
    exact add_le_of_store_done hruns hdone
  rw [machine_apply_of_store hruns hdone]
  exact s.machine.memory.bytesFrom_overwrite hrange

end Store

/-- The blocks tile memory from `lo` up to the index of a legacy machine, and lie there. -/
structure LinesUp (s : Session) (lo : Nat) (bs : List Block) : Prop where
  legacy : s.machine.variant = .legacy
  tiles : Block.Tiles lo bs s.machine.regs.i.toNat
  lie : ∀ b ∈ bs, b.LiesIn s.machine.memory

/-- No step changes a block below the index. -/
theorem liesIn_apply_step {s : Session} {b : Block} (h : b.LiesIn s.machine.memory)
    (hbelow : b.stop ≤ s.machine.regs.i.toNat) : b.LiesIn (s.apply .step).machine.memory := by
  refine (Memory.bytesFrom_congr fun k hk => ?_).trans h
  rw [Block.stop] at hbelow
  exact s.machine.byteAt_step_of_lt_index s.keys s.now (by omega)

/-- A store lines its block up with those before it. -/
theorem LinesUp.store {s : Session} {lo : Nat} {bs : List Block} {x : Reg} (h : s.LinesUp lo bs)
    (hruns : s.machine.Runs (.block .store x)) (hdone : s.outcome.fault = none) :
    (s.apply .step).LinesUp lo (bs ++ [s.block x]) := by
  have hindex := (Machine.leavesIndex_of_block hruns (add_le_of_store_done hruns hdone)
    s.keys s.now).legacy h.legacy
  refine ⟨(s.variant_apply .step).trans h.legacy, ?_, fun b hb => ?_⟩
  · have htiles := h.tiles.snoc (b := s.block x) rfl
    rw [stop_block, ← hindex] at htiles
    exact htiles
  · rcases List.mem_append.mp hb with hb | hb
    · exact liesIn_apply_step (h.lie b hb) (h.tiles.bounds hb).2
    · rw [List.mem_singleton.mp hb]
      exact liesIn_of_store hruns hdone

/-- Blocks that an event spares stay lined up. -/
theorem LinesUp.spared {s : Session} {lo : Nat} {bs : List Block} {e : Event}
    (h : s.LinesUp lo bs) (he : s.Spares bs e) : (s.apply e).LinesUp lo bs := by
  refine ⟨(s.variant_apply e).trans h.legacy, ?_, fun b hb => ?_⟩
  · rw [he.index]
    exact h.tiles
  · cases e with
    | load p => exact (he.bytes (Or.inr rfl) b hb).trans (h.lie b hb)
    | step => exact liesIn_apply_step (h.lie b hb) (h.tiles.bounds hb).2
    | key | wait => exact h.lie b hb

/-- In the legacy variant a whole history of stores lines its blocks up. -/
theorem Fills.linesUp {s : Session} {events : List Event} {bs : List Block}
    (h : s.Fills events bs) (hlegacy : s.machine.variant = .legacy) :
    (s.run events).LinesUp s.machine.regs.i.toNat bs := by
  have hnone : s.LinesUp s.machine.regs.i.toNat [] :=
    ⟨hlegacy, rfl, fun _ hb => absurd hb List.not_mem_nil⟩
  exact h.kept hnone LinesUp.store LinesUp.spared

/-- The blocks begin at the index of an extended machine, which is `lo`, and a place behind it holds
what the last block has there that is long enough. -/
structure Overlays (s : Session) (lo : Nat) (bs : List Block) : Prop where
  extended : s.machine.variant = .extended
  index : s.machine.regs.i.toNat = lo
  starts : ∀ b ∈ bs, b.start = lo
  last : ∀ k v, (bs.filterMap (·.bytes[k]?)).getLast? = some v →
    s.machine.memory.byteAt (lo + k) = v

/-- A store lays its block over those before it. -/
theorem Overlays.store {s : Session} {lo : Nat} {bs : List Block} {x : Reg} (h : s.Overlays lo bs)
    (hruns : s.machine.Runs (.block .store x)) (hdone : s.outcome.fault = none) :
    (s.apply .step).Overlays lo (bs ++ [s.block x]) := by
  have hrange := add_le_of_store_done hruns hdone
  have hindex := (Machine.leavesIndex_of_block hruns hrange s.keys s.now).extended h.extended
  refine ⟨(s.variant_apply .step).trans h.extended, ?_, fun b hb => ?_, fun k v hv => ?_⟩
  · rw [← h.index]
    exact congrArg UInt16.toNat hindex
  · rcases List.mem_append.mp hb with hb | hb
    · exact h.starts b hb
    · rw [List.mem_singleton.mp hb]
      exact h.index
  · rw [List.filterMap_append, List.getLast?_append] at hv
    cases hnew : (s.block x).bytes[k]? with
    | some w =>
      have hlast : w = v := by simpa [hnew] using hv
      rw [← hlast, ← h.index]
      exact (liesIn_of_store hruns hdone).byteAt hnew
    | none =>
      have hbehind := List.getElem?_eq_none_iff.mp hnew
      rw [block, Registers.length_upTo] at hbehind
      have hkept := s.machine.byteAt_stored_of_not_covered (x := x) (a := lo + k)
        (Or.inr (by rw [h.index]; omega))
      rw [machine_apply_of_store hruns hdone, hkept]
      exact h.last k v (by simpa [hnew] using hv)

/-- Blocks that an event spares stay laid over each other. -/
theorem Overlays.spared {s : Session} {lo : Nat} {bs : List Block} {e : Event}
    (h : s.Overlays lo bs) (he : s.Spares bs e) : (s.apply e).Overlays lo bs := by
  refine ⟨(s.variant_apply e).trans h.extended, ?_, h.starts, fun k v hv => ?_⟩
  · rw [he.index]
    exact h.index
  · obtain ⟨b, hb, hbk⟩ := List.mem_filterMap.mp (List.mem_of_getLast? hv)
    have hk : k < b.bytes.length := (List.getElem?_eq_some_iff.mp hbk).1
    have hkept := Memory.byteAt_of_bytesFrom_eq (he.bytes (Or.inl h.extended) b hb) hk
    rw [h.starts b hb] at hkept
    exact hkept.trans (h.last k v hv)

/-- In the extended variant a whole history of stores lays its blocks over each other. -/
theorem Fills.overlays {s : Session} {events : List Event} {bs : List Block}
    (h : s.Fills events bs) (hextended : s.machine.variant = .extended) :
    (s.run events).Overlays s.machine.regs.i.toNat bs := by
  have hnone : s.Overlays s.machine.regs.i.toNat [] :=
    ⟨hextended, rfl, fun _ hb => absurd hb List.not_mem_nil, nofun⟩
  exact h.kept hnone Overlays.store Overlays.spared

/-- A store of the registers up to `x` that finds its `x + 1` bytes puts them there and changes nothing
else, and a load takes them from there; a legacy machine then has its index behind the block, an
extended one where it was. After a store, whatever becomes of the registers and of memory outside the
block, a load from the same index restores the registers up to `x` and no others; and after a load a
store of the same registers to the same index changes no byte. Now let a history store block after
block and do nothing else to the index. In a legacy machine the blocks lie in memory one behind the
other, without overlap, and together hold what has been stored, in order; the index has moved on by
their length. In an extended one they all begin at the index, and each place behind it holds what
the last block has put there that reached it. -/
theorem blocks_come_back_and_line_up {m : Machine} {x : Reg}
    (hrange : m.regs.i.toNat + x.val + 1 ≤ 0x1000) (keys : Keypad) (now : Nanos)
    {s : Session} {events : List Event} {bs : List Block} (hfills : s.Fills events bs) :
    let o := m.step keys now
    let start := m.regs.i.toNat
    let lo := s.machine.regs.i.toNat
    let t := s.run events
    (m.Runs (.block .store x) → m.StoresBlock x o ∧ m.LeavesIndex x o ∧
      ∀ (m' : Machine) (keys' : Keypad) (now' : Nanos), m'.Runs (.block .load x) →
        m'.regs.i = m.regs.i →
        (∀ a, start ≤ a → a ≤ start + x.val → m'.memory.byteAt a = o.state.memory.byteAt a) →
        (m'.step keys' now').fault = none ∧ ∀ z, (m'.step keys' now').state.regs.get z =
          if z ≤ x then m.regs.get z else m'.regs.get z) ∧
    (m.Runs (.block .load x) → m.LoadsBlock x o ∧ m.LeavesIndex x o ∧
      ∀ (m' : Machine) (keys' : Keypad) (now' : Nanos), m'.Runs (.block .store x) →
        m'.regs.i = m.regs.i → (∀ z ≤ x, m'.regs.get z = o.state.regs.get z) →
        (∀ a, start ≤ a → a ≤ start + x.val → m'.memory.byteAt a = o.state.memory.byteAt a) →
        (m'.step keys' now').fault = none ∧ (m'.step keys' now').state.memory = m'.memory) ∧
    (s.machine.variant = .legacy →
      t.machine.regs.i.toNat = lo + (Block.joined bs).length ∧
      Block.Tiles lo bs t.machine.regs.i.toNat ∧ bs.Pairwise (fun b c => b.stop ≤ c.start) ∧
      t.machine.memory.bytesFrom lo (Block.joined bs).length = Block.joined bs) ∧
    (s.machine.variant = .extended →
      t.machine.regs.i.toNat = lo ∧ (∀ b ∈ bs, b.start = lo) ∧
      ∀ k v, (bs.filterMap (·.bytes[k]?)).getLast? = some v →
        t.machine.memory.byteAt (lo + k) = v) := by
  intro o start lo t
  have hin : ∀ z ≤ x, start ≤ start + z.val ∧ start + z.val ≤ start + x.val := fun z hz =>
    ⟨Nat.le_add_right .., Nat.add_le_add_left (Fin.le_def.mp hz) start⟩
  refine ⟨fun hruns => ?_, fun hruns => ?_, fun hlegacy => ?_, fun hextended => ?_⟩
  · have hstores := hruns.storesBlock hrange keys now
    refine ⟨hstores, Machine.leavesIndex_of_block hruns hrange keys now, ?_⟩
    intro m' keys' now' hruns' hindex hkept
    exact Machine.load_after_store hstores hrange hruns' hindex
      (fun z hz => hkept _ (hin z hz).1 (hin z hz).2) keys' now'
  · have hloads := hruns.loadsBlock hrange keys now
    refine ⟨hloads, Machine.leavesIndex_of_block hruns hrange keys now, ?_⟩
    intro m' keys' now' hruns' hindex hheld hkept
    exact Machine.store_after_load hloads hrange hruns' hindex hheld
      (fun z hz => hkept _ (hin z hz).1 (hin z hz).2) keys' now'
  · have h := hfills.linesUp hlegacy
    exact ⟨h.tiles.eq_add_length, h.tiles, h.tiles.pairwise, h.tiles.bytesFrom_eq_joined h.lie⟩
  · have h := hfills.overlays hextended
    exact ⟨h.index, h.starts, h.last⟩

/-- A program that stores two registers at `0x220`, changes the first of them, stores that one alone
and loads both. -/
def keepingTwo : Program :=
  ⟨[0x60, 0x01, 0x61, 0x02, 0xA2, 0x20, 0xF1, 0x55, 0x60, 0x09, 0xF0, 0x55, 0xF1, 0x65], by decide⟩

/-- The program about to store for the first time. -/
def keeper (variant : Variant) : Session :=
  (switchedOn variant (RandomStream.ofSeed 8) Keypad.released 0).run
    [.load keepingTwo, .step, .step, .step]

/-- The two stores, and what comes between them. -/
def twoStores : List Event := [.step, .step, .step]

/-- Both of the keeper's stores run and go through, and the step between them spares the first
block. -/
theorem keeper_stores (variant : Variant) :
    let s := keeper variant
    let t := s.run [.step, .step]
    (s.machine.Runs (.block .store 1) ∧ s.outcome.fault = none ∧ s.block 1 = ⟨0x220, [1, 2]⟩ ∧
      s.machine.regs.i = 0x220 ∧ s.machine.variant = variant) ∧
    (t.machine.regs.i = (s.run [.step]).machine.regs.i ∧
      t.machine.memory.bytesFrom 0x220 2 = (s.run [.step]).machine.memory.bytesFrom 0x220 2) ∧
    (t.machine.Runs (.block .store 0) ∧ t.outcome.fault = none ∧
      t.block 0 = ⟨if variant = .legacy then 0x222 else 0x220, [9]⟩) ∧
    (s.run twoStores).machine.Runs (.block .load 1) := by
  cases variant <;> decide +kernel

/-- The keeper's history stores two blocks, adjoining or overlaid. -/
theorem fills_keeper (variant : Variant) :
    (keeper variant).Fills twoStores
      [⟨0x220, [1, 2]⟩, ⟨if variant = .legacy then 0x222 else 0x220, [9]⟩] := by
  obtain ⟨⟨hruns, hdone, hblock, -⟩, ⟨hindex, hbytes⟩, ⟨hruns', hdone', hblock'⟩, -⟩ :=
    keeper_stores variant
  -- The facts are all that is needed, and nothing below may look into the machine again.
  generalize keeper variant = s at *
  have hfirst := Fills.store .nil hruns hdone
  rw [run_nil, hblock] at hfirst
  have hbetween : s.Fills [.step, .step] [⟨0x220, [1, 2]⟩] := by
    refine hfirst.other ⟨hindex, fun _ b hb => ?_⟩
    rw [List.mem_singleton.mp hb]
    exact hbytes
  have hsecond := hbetween.store hruns' hdone'
  rw [hblock'] at hsecond
  exact hsecond

/-- The machine after the two stores, with its index set back to where it was. -/
def goneBack (s : Session) : Machine :=
  { (s.run twoStores).machine with regs.i := s.machine.regs.i }

theorem runs_goneBack {s : Session} {i : Instruction Reg} (h : (s.run twoStores).machine.Runs i) :
    s.goneBack.Runs i := by
  rw [goneBack]
  generalize (s.run twoStores).machine = m at h ⊢
  exact h

theorem memory_goneBack (s : Session) : s.goneBack.memory = (s.run twoStores).machine.memory := by
  rw [goneBack]

/-- The keeper loads what it has stored, and its blocks line up or overlay each other as its variant
says. -/
theorem keeper_gets_back_what_it_stored :
    let s := keeper .legacy
    let t := keeper .extended
    s.machine.regs.i.toNat + 1 + 1 ≤ 0x1000 ∧ s.machine.Runs (.block .store 1) ∧
    s.Fills twoStores [⟨0x220, [1, 2]⟩, ⟨0x222, [9]⟩] ∧
    t.Fills twoStores [⟨0x220, [1, 2]⟩, ⟨0x220, [9]⟩] ∧
    (s.run twoStores).machine.memory.bytesFrom 0x220 3 = [1, 2, 9] ∧
    (t.run twoStores).machine.memory.byteAt 0x220 = 9 ∧
    (t.run twoStores).machine.memory.byteAt 0x221 = 2 ∧
    s.goneBack.Runs (.block .load 1) ∧
    (s.goneBack.step .released 0).state.regs.get Reg.first = s.machine.regs.get Reg.first := by
  obtain ⟨⟨hruns, hdone, hblock, hindex, hvariant⟩, -, -, hback⟩ := keeper_stores .legacy
  obtain ⟨⟨-, -, -, hindex', hvariant'⟩, -⟩ := keeper_stores .extended
  have hfills := fills_keeper .legacy
  have hfills' := fills_keeper .extended
  generalize keeper .legacy = s at *
  generalize keeper .extended = t at *
  have hstart : s.machine.regs.i.toNat = 0x220 := congrArg UInt16.toNat hindex
  have hstart' : t.machine.regs.i.toNat = 0x220 := congrArg UInt16.toNat hindex'
  have hrange := add_le_of_store_done hruns hdone
  have hback' := runs_goneBack hback
  obtain ⟨hstore, -, hlegacy, -⟩ := blocks_come_back_and_line_up hrange s.keys s.now hfills
  obtain ⟨-, -, -, hextended⟩ := blocks_come_back_and_line_up hrange s.keys s.now hfills'
  obtain ⟨-, -, -, hbytes⟩ := hlegacy hvariant
  obtain ⟨-, -, hlast⟩ := hextended hvariant'
  rw [hstart] at hbytes
  rw [hstart'] at hlast
  obtain ⟨-, -, hload⟩ := hstore hruns
  have hkept : ∀ a, s.machine.regs.i.toNat ≤ a → a ≤ s.machine.regs.i.toNat + 1 →
      s.goneBack.memory.byteAt a = (s.apply .step).machine.memory.byteAt a := by
    intro a hle hlt
    obtain ⟨k, rfl⟩ := Nat.exists_eq_add_of_le hle
    have hlies := (hfills.linesUp hvariant).lie _ List.mem_cons_self
    have hlies' := liesIn_of_store hruns hdone
    rw [hblock] at hlies'
    rw [hstart, memory_goneBack]
    exact Memory.byteAt_of_bytesFrom_eq (hlies.trans hlies'.symm) (by omega : k < 2)
  have hrestored := (hload s.goneBack .released 0 hback' rfl hkept).2 Reg.first
  exact ⟨hrange, hruns, hfills, hfills', hbytes, hlast 0 9 rfl, hlast 1 2 rfl, hback', hrestored⟩

end ChipVM.Session
