import ChipVM.Instruction.Decode

/-!
# The instruction table read backwards

For every instruction, the words that stand for it, told by their fields. Decoding a word gives an
instruction exactly if the word is one of these, so a fact about an instruction that was run is a
fact about the word in memory. An instruction has one word, save that the low four bits of a word that
compares registers mean nothing.
-/

namespace ChipVM

namespace Opcode

/-- The word stands for the instruction. -/
def StandsFor (op : Opcode) : Instruction Reg → Prop
  | .machineCall a => op.category = 0x0 ∧ op.word ≠ 0x00E0 ∧ op.word ≠ 0x00EE ∧ a = op.nnn
  | .clear => op.word = 0x00E0
  | .ret => op.word = 0x00EE
  | .jump a => op.category = 0x1 ∧ a = op.nnn
  | .call a => op.category = 0x2 ∧ a = op.nnn
  | .skipByte x b => op.category = 0x3 ∧ x = op.x ∧ b = op.nn
  | .skipNotByte x b => op.category = 0x4 ∧ x = op.x ∧ b = op.nn
  | .skipSame x y => op.category = 0x5 ∧ x = op.x ∧ y = op.y
  | .setByte x b => op.category = 0x6 ∧ x = op.x ∧ b = op.nn
  | .addByte x b => op.category = 0x7 ∧ x = op.x ∧ b = op.nn
  | .copy x y => op.category = 0x8 ∧ op.n.toNat = 0x0 ∧ x = op.x ∧ y = op.y
  | .logic .or x y => op.category = 0x8 ∧ op.n.toNat = 0x1 ∧ x = op.x ∧ y = op.y
  | .logic .and x y => op.category = 0x8 ∧ op.n.toNat = 0x2 ∧ x = op.x ∧ y = op.y
  | .logic .xor x y => op.category = 0x8 ∧ op.n.toNat = 0x3 ∧ x = op.x ∧ y = op.y
  | .add x y => op.category = 0x8 ∧ op.n.toNat = 0x4 ∧ x = op.x ∧ y = op.y
  | .sub x y => op.category = 0x8 ∧ op.n.toNat = 0x5 ∧ x = op.x ∧ y = op.y
  | .shift .right x y => op.category = 0x8 ∧ op.n.toNat = 0x6 ∧ x = op.x ∧ y = op.y
  | .subFrom x y => op.category = 0x8 ∧ op.n.toNat = 0x7 ∧ x = op.x ∧ y = op.y
  | .shift .left x y => op.category = 0x8 ∧ op.n.toNat = 0xE ∧ x = op.x ∧ y = op.y
  | .skipDiffer x y => op.category = 0x9 ∧ x = op.x ∧ y = op.y
  | .setIndex a => op.category = 0xA ∧ a = op.nnn
  | .jumpOffset x a => op.category = 0xB ∧ x = op.x ∧ a = op.nnn
  | .random x mask => op.category = 0xC ∧ x = op.x ∧ mask = op.nn
  | .draw x y n => op.category = 0xD ∧ x = op.x ∧ y = op.y ∧ n = op.n
  | .skipHeld x => op.category = 0xE ∧ op.nn.toNat = 0x9E ∧ x = op.x
  | .skipNotHeld x => op.category = 0xE ∧ op.nn.toNat = 0xA1 ∧ x = op.x
  | .readDelay x => op.category = 0xF ∧ op.nn.toNat = 0x07 ∧ x = op.x
  | .awaitKey x => op.category = 0xF ∧ op.nn.toNat = 0x0A ∧ x = op.x
  | .setDelay x => op.category = 0xF ∧ op.nn.toNat = 0x15 ∧ x = op.x
  | .setSound x => op.category = 0xF ∧ op.nn.toNat = 0x18 ∧ x = op.x
  | .addIndex x => op.category = 0xF ∧ op.nn.toNat = 0x1E ∧ x = op.x
  | .glyph x => op.category = 0xF ∧ op.nn.toNat = 0x29 ∧ x = op.x
  | .decimal x => op.category = 0xF ∧ op.nn.toNat = 0x33 ∧ x = op.x
  | .block .store x => op.category = 0xF ∧ op.nn.toNat = 0x55 ∧ x = op.x
  | .block .load x => op.category = 0xF ∧ op.nn.toNat = 0x65 ∧ x = op.x

theorem category_eq_zero_of_word {op : Opcode} (h : op.word = 0x00E0 ∨ op.word = 0x00EE) :
    op.category = 0 := by
  rcases h with h | h <;> simp [category, h]

theorem toNat_nnn_lt (op : Opcode) : op.nnn.toNat < 0x1000 := by
  simp only [nnn, UInt16.toNat_ofNat']
  omega

end Opcode

namespace Instruction

/-- What is decoded as a system word stands in the table. -/
theorem standsFor_ofSystem {op : Opcode} (h : op.category = 0x0) : op.StandsFor (ofSystem op) := by
  unfold ofSystem
  split
  · assumption
  · split
    · assumption
    · exact ⟨h, by assumption, by assumption, rfl⟩

/-- What is decoded as arithmetic stands in the table. -/
theorem standsFor_of_ofArithmetic? {op : Opcode} (h : op.category = 0x8) {i : Instruction Reg}
    (hi : ofArithmetic? op.x op.y op.n.toNat = some i) : op.StandsFor i := by
  unfold ofArithmetic? at hi
  split at hi <;> cases hi <;> exact ⟨h, by assumption, rfl, rfl⟩

/-- What is decoded as a key test stands in the table. -/
theorem standsFor_of_ofKeyTest? {op : Opcode} (h : op.category = 0xE) {i : Instruction Reg}
    (hi : ofKeyTest? op.x op.nn.toNat = some i) : op.StandsFor i := by
  unfold ofKeyTest? at hi
  split at hi <;> cases hi <;> exact ⟨h, by assumption, rfl⟩

/-- What is decoded as a service stands in the table. -/
theorem standsFor_of_ofService? {op : Opcode} (h : op.category = 0xF) {i : Instruction Reg}
    (hi : ofService? op.x op.nn.toNat = some i) : op.StandsFor i := by
  unfold ofService? at hi
  split at hi <;> cases hi <;> exact ⟨h, by assumption, rfl⟩

/-- What decoding gives, the word stands for. -/
theorem standsFor_of_decode? {op : Opcode} {i : Instruction Reg} (h : decode? op = some i) :
    op.StandsFor i := by
  unfold decode? at h
  split at h
  case h_1 hc => exact Option.some.inj h ▸ standsFor_ofSystem hc
  case h_9 hc => exact standsFor_of_ofArithmetic? hc h
  case h_15 hc => exact standsFor_of_ofKeyTest? hc h
  case h_16 =>
    have hlt := op.category_lt
    have hc : op.category = 0xF := by
      simp only [imp_false] at *
      omega
    exact standsFor_of_ofService? hc h
  all_goals
    cases h
    simp only [Opcode.StandsFor, and_self, and_true]
    assumption

/-- A word that stands for an instruction is decoded to it. -/
theorem decode?_of_standsFor {op : Opcode} {i : Instruction Reg} (h : op.StandsFor i) :
    decode? op = some i := by
  cases i with
  | machineCall a =>
    obtain ⟨hc, h0, h1, rfl⟩ := h
    simp [decode?, ofSystem, hc, h0, h1]
  | clear =>
    have hc := Opcode.category_eq_zero_of_word (Or.inl h)
    simp only [Opcode.StandsFor] at h
    simp [decode?, ofSystem, hc, h]
  | ret =>
    have hc := Opcode.category_eq_zero_of_word (Or.inr h)
    simp only [Opcode.StandsFor] at h
    simp [decode?, ofSystem, hc, h]
  | logic how x y =>
    cases how <;>
      obtain ⟨hc, hn, rfl, rfl⟩ := h <;> simp [decode?, ofArithmetic?, hc, hn]
  | shift dir x y =>
    cases dir <;>
      obtain ⟨hc, hn, rfl, rfl⟩ := h <;> simp [decode?, ofArithmetic?, hc, hn]
  | block dir x =>
    cases dir <;>
      obtain ⟨hc, hn, rfl⟩ := h <;> simp [decode?, ofService?, hc, hn]
  | _ =>
    simp only [Opcode.StandsFor] at h
    simp [decode?, ofArithmetic?, ofKeyTest?, ofService?, h]

/-- Decoding gives an instruction exactly if the word stands for it. -/
theorem decode?_eq_some_iff {op : Opcode} {i : Instruction Reg} :
    decode? op = some i ↔ op.StandsFor i :=
  ⟨standsFor_of_decode?, decode?_of_standsFor⟩

end Instruction

/-- A word stands for one instruction. -/
theorem Opcode.StandsFor.unique {op : Opcode} {i j : Instruction Reg} (hi : op.StandsFor i)
    (hj : op.StandsFor j) : i = j :=
  Option.some.inj
    ((Instruction.decode?_of_standsFor hi).symm.trans (Instruction.decode?_of_standsFor hj))

namespace Opcode

variable {a b : Opcode}

theorem eq_of_toNat_eq (h : a.word.toNat = b.word.toNat) : a = b :=
  congrArg Opcode.mk (UInt16.toNat_inj.mp h)

/-- A word is known by its four digits. -/
theorem eq_of_n (hc : a.category = b.category) (hx : a.x = b.x) (hy : a.y = b.y) (hn : a.n = b.n) :
    a = b := by
  apply eq_of_toNat_eq
  rw [toNat_word_eq, toNat_word_eq, hc, hx, hy, hn]

/-- A word is known by two digits and a byte. -/
theorem eq_of_nn (hc : a.category = b.category) (hx : a.x = b.x) (hnn : a.nn = b.nn) : a = b := by
  have hnat : a.nn.toNat = b.nn.toNat := congrArg UInt8.toNat hnn
  rw [toNat_nn, toNat_nn] at hnat
  apply eq_of_toNat_eq
  rw [toNat_word_eq, toNat_word_eq, hc, hx]
  omega

/-- A word is known by a digit and an address. -/
theorem eq_of_nnn (hc : a.category = b.category) (hnnn : a.nnn = b.nnn) : a = b := by
  have hnat : a.nnn.toNat = b.nnn.toNat := congrArg UInt16.toNat hnnn
  rw [toNat_nnn, toNat_nnn] at hnat
  apply eq_of_toNat_eq
  rw [toNat_word_eq, toNat_word_eq, hc]
  omega

/-- A word of a category that the low four bits divide up is told by them and its registers. -/
theorem eq_of_selected_by_n {c k : Nat} {x y : Reg}
    (ha : a.category = c ∧ a.n.toNat = k ∧ x = a.x ∧ y = a.y)
    (hb : b.category = c ∧ b.n.toNat = k ∧ x = b.x ∧ y = b.y) : a = b := by
  obtain ⟨hca, hka, rfl, rfl⟩ := ha
  obtain ⟨hcb, hkb, hx, hy⟩ := hb
  exact eq_of_n (hca.trans hcb.symm) hx hy (UInt8.toNat_inj.mp (hka.trans hkb.symm))

/-- A word of a category that the low byte divides up is told by it and its register. -/
theorem eq_of_selected_by_nn {c k : Nat} {x : Reg}
    (ha : a.category = c ∧ a.nn.toNat = k ∧ x = a.x)
    (hb : b.category = c ∧ b.nn.toNat = k ∧ x = b.x) : a = b := by
  obtain ⟨hca, hka, rfl⟩ := ha
  obtain ⟨hcb, hkb, hx⟩ := hb
  exact eq_of_nn (hca.trans hcb.symm) hx (UInt8.toNat_inj.mp (hka.trans hkb.symm))

/-- Both words are of category 5 or both of category 9, and they name the same registers. The low four
bits of such a word mean nothing. -/
def ComparesAlike (a b : Opcode) : Prop :=
  (a.category = 0x5 ∧ b.category = 0x5 ∨ a.category = 0x9 ∧ b.category = 0x9) ∧
    a.x = b.x ∧ a.y = b.y

/-- Such words differ in the low four bits alone. -/
theorem ComparesAlike.div_eq (h : a.ComparesAlike b) :
    a.word.toNat / 0x10 = b.word.toNat / 0x10 := by
  obtain ⟨hc, hx, hy⟩ := h
  have hcategory : a.category = b.category := by omega
  have hxval := congrArg Fin.val hx
  have hyval := congrArg Fin.val hy
  simp only [category, x, y] at hcategory hxval hyval
  omega

/-- Words of one instruction are one word, unless they compare registers. -/
theorem eq_or_of_standsFor {i : Instruction Reg} (ha : a.StandsFor i) (hb : b.StandsFor i) :
    a = b ∨ a.ComparesAlike b := by
  cases i with
  | clear | ret => exact Or.inl (congrArg Opcode.mk (ha.trans hb.symm))
  | machineCall target =>
    obtain ⟨hca, _, _, rfl⟩ := ha
    obtain ⟨hcb, _, _, hnnn⟩ := hb
    exact Or.inl (eq_of_nnn (hca.trans hcb.symm) hnnn)
  | jump target | call target | setIndex target =>
    obtain ⟨hca, rfl⟩ := ha
    obtain ⟨hcb, hnnn⟩ := hb
    exact Or.inl (eq_of_nnn (hca.trans hcb.symm) hnnn)
  | jumpOffset x base =>
    obtain ⟨hca, _, rfl⟩ := ha
    obtain ⟨hcb, _, hnnn⟩ := hb
    exact Or.inl (eq_of_nnn (hca.trans hcb.symm) hnnn)
  | skipByte x byte | skipNotByte x byte | setByte x byte | addByte x byte | random x byte =>
    obtain ⟨hca, rfl, rfl⟩ := ha
    obtain ⟨hcb, hx, hnn⟩ := hb
    exact Or.inl (eq_of_nn (hca.trans hcb.symm) hx hnn)
  | skipSame x y =>
    obtain ⟨hca, rfl, rfl⟩ := ha
    obtain ⟨hcb, hx, hy⟩ := hb
    exact Or.inr ⟨Or.inl ⟨hca, hcb⟩, hx, hy⟩
  | skipDiffer x y =>
    obtain ⟨hca, rfl, rfl⟩ := ha
    obtain ⟨hcb, hx, hy⟩ := hb
    exact Or.inr ⟨Or.inr ⟨hca, hcb⟩, hx, hy⟩
  | draw x y n =>
    obtain ⟨hca, rfl, rfl, rfl⟩ := ha
    obtain ⟨hcb, hx, hy, hn⟩ := hb
    exact Or.inl (eq_of_n (hca.trans hcb.symm) hx hy hn)
  | copy | add | sub | subFrom => exact Or.inl (eq_of_selected_by_n ha hb)
  | logic op => cases op <;> exact Or.inl (eq_of_selected_by_n ha hb)
  | shift dir => cases dir <;> exact Or.inl (eq_of_selected_by_n ha hb)
  | block dir => cases dir <;> exact Or.inl (eq_of_selected_by_nn ha hb)
  | skipHeld | skipNotHeld | readDelay | awaitKey | setDelay | setSound | addIndex | glyph
  | decimal => exact Or.inl (eq_of_selected_by_nn ha hb)

end Opcode

/-- Words that compare the same registers alike stand for the same. -/
theorem Instruction.decode?_eq_of_comparesAlike {a b : Opcode} (h : a.ComparesAlike b) :
    decode? a = decode? b := by
  obtain ⟨⟨ha, hb⟩ | ⟨ha, hb⟩, hx, hy⟩ := h <;> simp only [decode?, ha, hb, hx, hy]

end ChipVM
