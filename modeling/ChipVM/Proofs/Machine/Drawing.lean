import ChipVM.Proofs.Machine.Footprint

/-!
# Drawing what is in memory

A drawing instruction turns over the pixels that the bytes at the index have bits for, from the
place on that two registers name, and what would lie beyond an edge is not drawn. The flag tells
whether a pixel went out. Carried out twice it has changed nothing, unless the flag register is one
of the two that name the place.
-/

namespace ChipVM

namespace Display

/-- A sprite hits something exactly if it turns a lit pixel off. -/
theorem hit_drawSprite_iff_turns_off (d : Display) (s : Sprite) :
    (d.drawSprite s).2 = true ↔ ∃ px < width, ∃ py < height,
      d.pixel px py = true ∧ (d.drawSprite s).1.pixel px py = false := by
  rw [hit_drawSprite_iff]
  constructor
  · rintro ⟨px, hx, py, hy, hs, hlit⟩
    refine ⟨px, hx, py, hy, hlit, ?_⟩
    rw [pixel_drawSprite d s hx hy, hs, hlit]
    rfl
  · rintro ⟨px, hx, py, hy, hlit, hoff⟩
    have hne : (d.drawSprite s).1.pixel px py ≠ d.pixel px py := by
      rw [hlit, hoff]
      exact Bool.false_ne_true
    exact ⟨px, hx, py, hy, sets_of_pixel_ne hne, hlit⟩

end Display

namespace Machine

/-- Bit `7 - c` of the byte `r` places behind the index. -/
def bitAtIndex (m : Machine) (c r : Nat) : Bool :=
  (m.memory.byteAt (m.regs.i.toNat + r)).toNat.testBit (7 - c)

section Sprite

variable {m : Machine} {x y : Reg} {n : UInt8}

/-- A row of the sprite holds the bits that lie in memory. -/
theorem any_row_sprite {r : Nat} (hr : r < n.toNat) (c : Nat) :
    ((m.sprite x y n).rows[r]?.any fun row => row.toNat.testBit (7 - c)) = m.bitAtIndex c r := by
  simp [sprite, Memory.bytesFrom, hr, bitAtIndex]

/-- Counted from its corner, the sprite sets the bits that memory holds at the index. -/
theorem sets_sprite {c r : Nat} (hc : c < 8) (hr : r < n.toNat) :
    (m.sprite x y n).sets ((m.regs.get x).toNat % 64 + c) ((m.regs.get y).toNat % 32 + r) =
      m.bitAtIndex c r := by
  refine (Sprite.sets_corner_add (m.sprite x y n) c r).trans ?_
  rw [any_row_sprite hr, decide_eq_true hc, Bool.true_and]

/-- The sprite sets those places and no others. -/
theorem sets_sprite_iff {px py : Nat} :
    (m.sprite x y n).sets px py = true ↔ ∃ c < 8, ∃ r < n.toNat,
      px = (m.regs.get x).toNat % 64 + c ∧ py = (m.regs.get y).toNat % 32 + r ∧
        m.bitAtIndex c r = true := by
  have hrows : (m.sprite x y n).rows.length = n.toNat := by simp [sprite, Memory.bytesFrom]
  rw [Sprite.sets_iff, hrows]
  constructor
  · rintro ⟨c, hc, r, hr, hpx, hpy, hbit⟩
    exact ⟨c, hc, r, hr, hpx, hpy, (any_row_sprite hr c).symm.trans hbit⟩
  · rintro ⟨c, hc, r, hr, hpx, hpy, hbit⟩
    exact ⟨c, hc, r, hr, hpx, hpy, (any_row_sprite hr c).trans hbit⟩

/-- The sprite of a drawing instruction hangs on two registers, the index and memory. -/
theorem sprite_congr {m' : Machine} (hx : m'.regs.get x = m.regs.get x)
    (hy : m'.regs.get y = m.regs.get y) (hi : m'.regs.i = m.regs.i)
    (hmemory : m'.memory = m.memory) : m'.sprite x y n = m.sprite x y n := by
  unfold sprite
  rw [hx, hy, hi, hmemory]

/-- A second drawing hits what the first one lit. -/
theorem hit_second_iff :
    (((m.display.drawSprite (m.sprite x y n)).1.drawSprite (m.sprite x y n)).2 = true) ↔
      ∃ c < 8, ∃ r < n.toNat,
        (m.regs.get x).toNat % 64 + c < 64 ∧ (m.regs.get y).toNat % 32 + r < 32 ∧
          m.bitAtIndex c r = true ∧
          m.display.pixel ((m.regs.get x).toNat % 64 + c) ((m.regs.get y).toNat % 32 + r) =
            false := by
  rw [Display.hit_drawSprite_drawSprite_iff]
  constructor
  · rintro ⟨px, hpx, py, hpy, hs, hdark⟩
    obtain ⟨c, hc, r, hr, rfl, rfl, hbit⟩ := sets_sprite_iff.mp hs
    exact ⟨c, hc, r, hr, hpx, hpy, hbit, hdark⟩
  · rintro ⟨c, hc, r, hr, hpx, hpy, hbit, hdark⟩
    exact ⟨_, hpx, _, hpy, (sets_sprite hc hr).trans hbit, hdark⟩

end Sprite

/-- The machine after a drawing instruction that finds its bytes. -/
def drawn (m : Machine) (x y : Reg) (n : UInt8) : Machine :=
  { m.ready with
    display := (m.display.drawSprite (m.sprite x y n)).1
    regs := m.ready.regs.setFlag (m.display.drawSprite (m.sprite x y n)).2 }

/-- A sprite whose bytes exist is drawn by the step. -/
theorem Runs.step_draw {m : Machine} {x y : Reg} {n : UInt8} (hruns : m.Runs (.draw x y n))
    (hrange : m.regs.i.toNat + n.toNat ≤ 0x1000) (keys : Keypad) (now : Nanos) :
    m.step keys now = .done (m.drawn x y n) :=
  (hruns.step keys now).trans (drawSprite_of_inRange (m := m.ready) hrange x y)

/-- Of the registers drawing changes the flag alone. -/
theorem get_drawn_of_ne (m : Machine) (x y : Reg) (n : UInt8) {z : Reg} (hz : z ≠ Reg.flag) :
    (m.drawn x y n).regs.get z = m.regs.get z :=
  (Registers.get_setFlag _ _ z).trans (if_neg (Ne.symm hz))

/-- The same instruction carried out on what the first one left draws the same sprite. -/
theorem sprite_drawn {m : Machine} {x y : Reg} (hx : x ≠ Reg.flag) (hy : y ≠ Reg.flag) (n : UInt8)
    (pc : UInt16) : { m.drawn x y n with regs.pc := pc : Machine }.sprite x y n = m.sprite x y n :=
  sprite_congr (m.get_drawn_of_ne x y n hx) (m.get_drawn_of_ne x y n hy) rfl rfl

/-- `Dxyn` turns over the pixels of the grid that the `n` bytes at the index have bits for, in rows
of eight from the place on that `x` and `y` name, taken onto the grid; no other pixel changes. The
flag tells whether a lit pixel went dark, and nothing else that a program can see has changed. With
neither `x` nor `y` the flag register, the same instruction carried out next brings the display
back, and flags exactly if the first one turned a dark pixel on. -/
theorem drawing_is_exact {m : Machine} {x y : Reg} {n : UInt8} (hruns : m.Runs (.draw x y n))
    (hrange : m.regs.i.toNat + n.toNat ≤ 0x1000) (keys : Keypad) (now : Nanos) :
    let o := m.step keys now
    let m' := o.state
    let column := (m.regs.get x).toNat % 64
    let line := (m.regs.get y).toNat % 32
    o.fault = none ∧
    (∀ c < 8, ∀ r < n.toNat, column + c < 64 → line + r < 32 →
      m'.display.pixel (column + c) (line + r) =
        (m.display.pixel (column + c) (line + r) ^^ m.bitAtIndex c r)) ∧
    (∀ px py, (¬ ∃ c < 8, ∃ r < n.toNat, px = column + c ∧ py = line + r) →
      m'.display.pixel px py = m.display.pixel px py) ∧
    m'.regs.FlagTells
      (∃ px < 64, ∃ py < 32, m.display.pixel px py = true ∧ m'.display.pixel px py = false) ∧
    (∀ z, z ≠ Reg.flag → m'.regs.get z = m.regs.get z) ∧ m'.regs.i = m.regs.i ∧
    m'.memory = m.memory ∧ m'.stack = m.stack ∧
    (x ≠ Reg.flag → y ≠ Reg.flag → ∀ (pc : UInt16) (keys' : Keypad) (now' : Nanos),
      let again : Machine := { m' with regs.pc := pc }
      again.Runs (.draw x y n) →
        let o' := again.step keys' now'
        o'.fault = none ∧ o'.state.display = m.display ∧
        o'.state.regs.FlagTells (∃ c < 8, ∃ r < n.toNat, column + c < 64 ∧ line + r < 32 ∧
          m.bitAtIndex c r = true ∧ m.display.pixel (column + c) (line + r) = false)) := by
  rw [hruns.step_draw hrange keys now]
  intro o m' column line
  have hflag := m.display.hit_drawSprite_iff_turns_off (m.sprite x y n)
  refine ⟨rfl, fun c hc r hr hx hy => ?_, fun px py hoff => ?_,
    Registers.flagTells_setFlag _ hflag, fun z hz => m.get_drawn_of_ne x y n hz, rfl, rfl, rfl,
    fun hx hy pc keys' now' => ?_⟩
  · rw [← sets_sprite (m := m) (x := x) (y := y) hc hr]
    exact Display.pixel_drawSprite _ _ hx hy
  · refine Classical.byContradiction fun hne => hoff ?_
    obtain ⟨c, hc, r, hr, hpx, hpy, -⟩ := sets_sprite_iff.mp (Display.sets_of_pixel_ne hne)
    exact ⟨c, hc, r, hr, hpx, hpy⟩
  · intro again hruns'
    have hsprite : again.sprite x y n = m.sprite x y n := sprite_drawn hx hy n pc
    have hdrawn : again.display = (m.display.drawSprite (m.sprite x y n)).1 := rfl
    rw [hruns'.step_draw hrange keys' now']
    refine ⟨rfl, ?_, Registers.flagTells_setFlag _ ?_⟩
    · dsimp only [Outcome.state_done, drawn]
      rw [hsprite, hdrawn, Display.drawSprite_drawSprite]
    · rw [hsprite, hdrawn, hit_second_iff]

/-- A machine about to draw the last two bytes of memory twice into the lower right corner. -/
def painter : Machine :=
  let start := initial .legacy (RandomStream.ofSeed 8) 0
  { start with
    memory := (start.memory.overwrite 0xFFE [0xFF, 0x81]).overwrite 0x200 [0xD0, 0x02, 0xD0, 0x02]
    regs := { start.regs.set Reg.first 63 with i := 0xFFE } }

theorem bitAtIndex_painter : painter.bitAtIndex 0 0 = true := by
  rw [bitAtIndex, painter, Memory.byteAt_overwrite, Memory.byteAt_overwrite]
  rfl

/-- The painter's sprite is cut off at the corner, and drawing it again takes it away. -/
theorem painter_draws_twice :
    painter.Runs (.draw Reg.first Reg.first 2) ∧ painter.regs.i.toNat + 2 ≤ 0x1000 ∧
    let m' := (painter.step .released 0).state
    m'.display.pixel 63 31 = true ∧ m'.display.pixel 0 31 = false ∧
    ({ m' with regs.pc := 0x202 } : Machine).Runs (.draw Reg.first Reg.first 2) ∧
    let o' := ({ m' with regs.pc := 0x202 } : Machine).step .released 0
    o'.fault = none ∧ o'.state.display = Display.dark ∧ (o'.state.regs.get Reg.flag).toNat = 1 := by
  have hruns : painter.Runs (.draw Reg.first Reg.first 2) :=
    ⟨⟨0xD002⟩, fetch_of_overwrite 0xD0 0x02 (Nat.le_of_ble_eq_true rfl) rfl, by decide,
      by decide, by decide, by decide⟩
  have hrange : painter.regs.i.toNat + (2 : UInt8).toNat ≤ 0x1000 := by decide
  have hdark : painter.display = Display.dark := rfl
  have hplace : (painter.regs.get Reg.first).toNat = 63 := rfl
  obtain ⟨-, hinside, hoff, -, -, -, hmemory, -, hagain⟩ :=
    drawing_is_exact hruns hrange .released 0
  rw [hplace] at hinside hoff hagain
  -- What the first step leaves is known by now, and nothing below may look into the step again.
  generalize (painter.step .released 0).state = m' at *
  have hruns' : ({ m' with regs.pc := 0x202 } : Machine).Runs (.draw Reg.first Reg.first 2) :=
    ⟨⟨0xD002⟩, fetch_of_overwrite 0xD0 0x02 (Nat.le_of_ble_eq_true rfl) hmemory, by decide,
      by decide, by decide, by decide⟩
  obtain ⟨hdone, hrestored, hflag⟩ := hagain (by decide) (by decide) 0x202 .released 0 hruns'
  refine ⟨hruns, hrange, ?_, ?_, hruns', hdone, hrestored.trans hdark, ?_⟩
  · refine (hinside 0 (by decide) 0 (by decide) (by decide) (by decide)).trans ?_
    rw [bitAtIndex_painter]
    rfl
  · refine (hoff 0 31 ?_).trans rfl
    rintro ⟨c, -, r, -, hpx, -⟩
    omega
  · refine hflag.elim And.left fun h => absurd ⟨0, by decide, 0, by decide, ?_⟩ h.2
    exact ⟨by decide, by decide, bitAtIndex_painter, rfl⟩

end Machine

end ChipVM
