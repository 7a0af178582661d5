import ChipVM.Instruction.Mnemonic
import ChipVM.Proofs.Table
import ChipVM.Proofs.Text.Hex

/-!
# Assembly text read back

An instruction can be read back from its text. The blank after the name and the commas between the
operands cut the text up, since no name holds a blank and no operand a comma. An operand's text shows
what it is, but for the kind of a number: a byte, a height and an address can look alike. The name and
the operands as they are shown then leave one instruction. So words have the same text only if they
stand for the same instruction, and those are the same word, or words of category 5 or 9 that name the
same registers.
-/

namespace ChipVM

namespace Text

variable {α : Type} {c : α}

/-- Where a character stands for the first time, the text is cut in one way. -/
theorem eq_of_append_cons_eq {x y xs ys : List α} (hx : c ∉ x) (hy : c ∉ y)
    (h : x ++ c :: xs = y ++ c :: ys) : x = y ∧ xs = ys := by
  induction x generalizing y with
  | nil =>
    cases y with
    | nil => exact ⟨rfl, List.tail_eq_of_cons_eq h⟩
    | cons b y => exact absurd (List.head_eq_of_cons_eq h ▸ List.mem_cons_self) hy
  | cons a x ih =>
    cases y with
    | nil => exact absurd (List.head_eq_of_cons_eq h ▸ List.mem_cons_self) hx
    | cons b y =>
      obtain ⟨rfl, htail⟩ := List.cons.inj h
      obtain ⟨rfl, hrest⟩ := ih (fun hc => hx (List.mem_cons_of_mem _ hc))
        (fun hc => hy (List.mem_cons_of_mem _ hc)) htail
      exact ⟨rfl, hrest⟩

/-- Texts without a character are told apart by what they make when a separator that begins with this
character is put between them. -/
theorem eq_of_intercalate_eq {s : List α} {xs ys : List (List α)} (hxs : xs ≠ []) (hys : ys ≠ [])
    (hx : ∀ x ∈ xs, c ∉ x) (hy : ∀ y ∈ ys, c ∉ y)
    (h : (c :: s).intercalate xs = (c :: s).intercalate ys) : xs = ys := by
  induction xs generalizing ys with
  | nil => exact absurd rfl hxs
  | cons x xs ih =>
    obtain ⟨y, ys, rfl⟩ := List.exists_cons_of_ne_nil hys
    obtain ⟨hcx, hxs'⟩ := List.forall_mem_cons.mp hx
    obtain ⟨hcy, hys'⟩ := List.forall_mem_cons.mp hy
    cases xs with
    | nil =>
      cases ys with
      | nil =>
        rw [List.intercalate_singleton, List.intercalate_singleton] at h
        rw [h]
      | cons y' ys =>
        rw [List.intercalate_singleton, List.intercalate_cons_cons] at h
        exact absurd (by simp [h]) hcx
    | cons x' xs =>
      cases ys with
      | nil =>
        rw [List.intercalate_singleton, List.intercalate_cons_cons] at h
        exact absurd (by simp [← h]) hcy
      | cons y' ys =>
        simp only [List.intercalate_cons_cons, List.append_assoc, List.cons_append] at h
        obtain ⟨rfl, hrest⟩ := eq_of_append_cons_eq hcx hcy h
        rw [ih (List.cons_ne_nil x' xs) (List.cons_ne_nil y' ys) hxs' hys'
          (List.append_cancel_left hrest)]

end Text

namespace Operand

/-- The operand as its text shows it: every number may be an address. -/
def shown : Operand → Operand
  | byte b => address b.toUInt16
  | height n => address n.toUInt16
  | o => o

/-- The operand that goes on so after a V. -/
def readRegister : List Char → Operand
  | '0' :: '-' :: 'V' :: cs => registersTo (Text.readHex cs)
  | '0' :: '/' :: 'V' :: cs => firstOr (Text.readHex cs)
  | cs => register (Text.readHex cs)

/-- The operand that is written so. -/
def read : List Char → Operand
  | ['I'] => index
  | ['D', 'T'] => delayTimer
  | ['S', 'T'] => soundTimer
  | ['K'] => key
  | ['F'] => font
  | ['B'] => decimal
  | ['[', 'I', ']'] => atIndex
  | 'V' :: cs => readRegister cs
  | cs => address (UInt16.ofNat (Text.readHex cs))

/-- The digits of a number are no range and no choice of registers. -/
theorem readRegister_hexUpper (x : Nat) :
    readRegister (Text.hexUpper x).toList = register x := by
  have hmem {c d : Char} {cs : List Char} (h : (Text.hexUpper x).toList = d :: c :: cs) :
      c ∈ Text.upperDigits :=
    Text.mem_upperDigits_of_mem_hexUpper (h ▸ List.mem_cons_of_mem _ List.mem_cons_self)
  unfold readRegister
  split
  · exact absurd (hmem ‹_›) (by decide)
  · exact absurd (hmem ‹_›) (by decide)
  · rw [Text.readHex_hexUpper]

/-- A number begins like no other operand. -/
theorem read_hexDigits (width n : Nat) :
    read (Text.hexDigits width n) = address (UInt16.ofNat n) := by
  have hmem {c : Char} {cs : List Char} (h : Text.hexDigits width n = c :: cs) :
      c ∈ Text.lowerDigits := Text.mem_lowerDigits_of_mem_hexDigits (h ▸ List.mem_cons_self)
  unfold read
  split
  case h_9 => rw [Text.readHex_hexDigits]
  all_goals exact absurd (hmem ‹_›) (by decide)

theorem toList_registerText (x : Nat) :
    (registerText x).toList = 'V' :: (Text.hexUpper x).toList :=
  String.toList_append

/-- An operand is read as it is shown. -/
theorem read_text (o : Operand) : read o.text.toList = o.shown := by
  cases o with
  | register x =>
    rw [text, toList_registerText]
    exact readRegister_hexUpper x
  | byte b | height b =>
    rw [text, Text.hex, String.toList_ofList, read_hexDigits, UInt16.ofNat_uInt8ToNat]
    rfl
  | address a =>
    rw [text, Text.hex, String.toList_ofList, read_hexDigits, UInt16.ofNat_toNat]
    rfl
  | registersTo x =>
    rw [text, String.toList_append, toList_registerText]
    exact congrArg registersTo (Text.readHex_hexUpper x)
  | firstOr x =>
    rw [text, String.toList_append, toList_registerText]
    exact congrArg firstOr (Text.readHex_hexUpper x)
  | index | delayTimer | soundTimer | key | font | decimal | atIndex => rfl

/-- No operand is written with a comma. -/
theorem comma_notMem_text (o : Operand) : ',' ∉ o.text.toList := by
  intro h
  have hhex {width n : Nat} (h : ',' ∈ (Text.hex width n).toList) : False := by
    rw [Text.hex, String.toList_ofList] at h
    exact absurd (Text.mem_lowerDigits_of_mem_hexDigits h) (by decide)
  have hregister {x : Nat} (h : ',' ∈ (registerText x).toList) : False := by
    rw [toList_registerText] at h
    rcases List.mem_cons.mp h with h | h
    · exact absurd h (by decide)
    · exact absurd (Text.mem_upperDigits_of_mem_hexUpper h) (by decide)
  cases o with
  | byte | height | address => exact hhex h
  | register x => exact hregister h
  | registersTo x | firstOr x =>
    rw [text, String.toList_append] at h
    rcases List.mem_append.mp h with h | h
    · exact absurd h (by decide)
    · exact hregister h
  | index | delayTimer | soundTimer | key | font | decimal | atIndex =>
    exact absurd h (by decide)

end Operand

namespace Instruction

/-- The instruction on two registers that goes by a name. -/
def ofPair? (x y : Nat) : String → Option (Instruction Nat)
  | "SE" => some (skipSame x y)
  | "SNE" => some (skipDiffer x y)
  | "LD" => some (copy x y)
  | "OR" => some (logic .or x y)
  | "AND" => some (logic .and x y)
  | "XOR" => some (logic .xor x y)
  | "ADD" => some (add x y)
  | "SUB" => some (sub x y)
  | "SUBN" => some (subFrom x y)
  | "SHR" => some (shift .right x y)
  | "SHL" => some (shift .left x y)
  | _ => none

/-- The instruction on a register and a byte that goes by a name. -/
def ofByte? (x : Nat) (b : UInt8) : String → Option (Instruction Nat)
  | "SE" => some (skipByte x b)
  | "SNE" => some (skipNotByte x b)
  | "LD" => some (setByte x b)
  | "ADD" => some (addByte x b)
  | "RND" => some (random x b)
  | _ => none

/-- The instruction on an address that goes by a name. -/
def ofAddress? (a : UInt16) : String → Option (Instruction Nat)
  | "SYS" => some (machineCall a)
  | "JP" => some (jump a)
  | "CALL" => some (call a)
  | _ => none

/-- The instruction that goes by a name and has operands that are shown so. Only where several
instructions have operands of these kinds, the name decides. -/
def ofShown? (name : String) : List Operand → Option (Instruction Nat)
  | [] => if name = "CLS" then some clear else some ret
  | [.address a] => ofAddress? a name
  | [.register x] => if name = "SKP" then some (skipHeld x) else some (skipNotHeld x)
  | [.register x, .register y] => ofPair? x y name
  | [.register x, .register y, .address n] => some (draw x y n.toUInt8)
  | [.register x, .address b] => ofByte? x b.toUInt8 name
  | [.register x, .delayTimer] => some (readDelay x)
  | [.register x, .key] => some (awaitKey x)
  | [.index, .address a] => some (setIndex a)
  | [.index, .register x] => some (addIndex x)
  | [.firstOr x, .address a] => some (jumpOffset x a)
  | [.delayTimer, .register x] => some (setDelay x)
  | [.soundTimer, .register x] => some (setSound x)
  | [.font, .register x] => some (glyph x)
  | [.decimal, .register x] => some (decimal x)
  | [.atIndex, .registersTo x] => some (block .store x)
  | [.registersTo x, .atIndex] => some (block .load x)
  | _ => none

/-- An instruction is read back from its name and its operands. -/
theorem ofShown?_name_shown (i : Instruction Nat) :
    ofShown? i.name (i.operands.map Operand.shown) = some i := by
  cases i with
  | logic op x y => cases op <;> rfl
  | shift dir x y => cases dir <;> rfl
  | block dir x => cases dir <;> rfl
  | skipByte x b | skipNotByte x b | setByte x b | addByte x b | random x b =>
    simp [name, operands, Operand.shown, ofShown?, ofByte?]
  | draw x y n => simp [operands, Operand.shown, ofShown?]
  | _ => rfl

/-- No name holds a blank. -/
theorem blank_notMem_name (i : Instruction Nat) : ' ' ∉ i.name.toList := by
  cases i with
  | logic op => cases op <;> (dsimp only [name, Logic.name]; decide)
  | shift dir => cases dir <;> (dsimp only [name, Shift.name]; decide)
  | _ => dsimp only [name]; decide

/-- Without operands there is only the name. -/
theorem mnemonic_of_operands_eq_nil {i : Instruction Nat} (h : i.operands = []) :
    i.mnemonic = i.name := by
  rw [mnemonic, h]

/-- Operands follow the name after a space, with a comma and a space between them. -/
theorem toList_mnemonic {i : Instruction Nat} (h : i.operands ≠ []) :
    i.mnemonic.toList = i.name.toList ++
      ' ' :: [',', ' '].intercalate (i.operands.map fun o => o.text.toList) := by
  unfold mnemonic
  split
  · next hnil => exact absurd hnil h
  · rw [String.toList_append, String.toList_append, String.toList_intercalate, List.map_map,
      List.append_assoc]
    rfl

/-- The text of an instruction tells its name and the texts of its operands. -/
theorem name_and_texts_of_mnemonic_eq {i j : Instruction Nat} (h : i.mnemonic = j.mnemonic) :
    i.name = j.name ∧
      (i.operands.map fun o => o.text.toList) = j.operands.map fun o => o.text.toList := by
  have hcomma (k : Instruction Nat) : ∀ t ∈ k.operands.map fun o => o.text.toList, ',' ∉ t := by
    intro t ht
    obtain ⟨o, _, rfl⟩ := List.mem_map.mp ht
    exact o.comma_notMem_text
  have hchars := congrArg String.toList h
  by_cases hi : i.operands = []
  · rw [mnemonic_of_operands_eq_nil hi] at h hchars
    by_cases hj : j.operands = []
    · rw [mnemonic_of_operands_eq_nil hj] at h
      exact ⟨h, by rw [hi, hj]⟩
    · rw [toList_mnemonic hj] at hchars
      exact absurd (by simp [hchars]) i.blank_notMem_name
  · rw [toList_mnemonic hi] at hchars
    by_cases hj : j.operands = []
    · rw [mnemonic_of_operands_eq_nil hj] at hchars
      exact absurd (by simp [← hchars]) j.blank_notMem_name
    · rw [toList_mnemonic hj] at hchars
      obtain ⟨hname, htexts⟩ :=
        Text.eq_of_append_cons_eq i.blank_notMem_name j.blank_notMem_name hchars
      exact ⟨String.toList_inj.mp hname, Text.eq_of_intercalate_eq (mt List.map_eq_nil_iff.mp hi)
        (mt List.map_eq_nil_iff.mp hj) (hcomma i) (hcomma j) htexts⟩

/-- Instructions with one text are one instruction. -/
theorem eq_of_mnemonic_eq {i j : Instruction Nat} (h : i.mnemonic = j.mnemonic) : i = j := by
  obtain ⟨hname, htexts⟩ := name_and_texts_of_mnemonic_eq h
  have hshown : i.operands.map Operand.shown = j.operands.map Operand.shown := by
    have hread := congrArg (List.map Operand.read) htexts
    simpa only [List.map_map, Function.comp_def, Operand.read_text] using hread
  apply Option.some.inj
  rw [← ofShown?_name_shown i, ← ofShown?_name_shown j, hname, hshown]

/-- Instructions of the machine with one text are one instruction. -/
theorem eq_of_text_eq {i j : Instruction Reg} (h : i.text = j.text) : i = j := by
  have hinverse : Fin.ofNat 16 ∘ (Fin.val : Reg → Nat) = id := by
    funext x
    exact Fin.ofNat_val_eq_self x
  exact eq_of_map_eq hinverse (eq_of_mnemonic_eq h)

/-- No two instructions have the same text, whatever their operands are. So two words that stand for
instructions have the same text exactly if they are the same word, or if both are of category 5 or both
of category 9 and they name the same registers in the same order; such words differ at most in the low
four bits. -/
theorem text_tells_instruction :
    (∀ i j : Instruction Nat, i.mnemonic = j.mnemonic → i = j) ∧
    (∀ (a b : Opcode) (i j : Instruction Reg), decode? a = some i → decode? b = some j →
      (i.text = j.text ↔ a = b ∨ a.ComparesAlike b)) ∧
    ∀ a b : Opcode, a.ComparesAlike b → a.word.toNat / 0x10 = b.word.toNat / 0x10 := by
  refine ⟨fun i j => eq_of_mnemonic_eq, fun a b i j ha hb => ⟨fun htext => ?_, ?_⟩,
    fun a b => Opcode.ComparesAlike.div_eq⟩
  · have hij : i = j := eq_of_text_eq htext
    exact Opcode.eq_or_of_standsFor (standsFor_of_decode? ha)
      (standsFor_of_decode? (hij ▸ hb))
  · rintro (rfl | hcompares)
    · rw [Option.some.inj (ha.symm.trans hb)]
    · have hdecode : decode? a = decode? b := decode?_eq_of_comparesAlike hcompares
      rw [Option.some.inj (ha.symm.trans (hdecode.trans hb))]

/-- The words 5AB0 and 5ABF are both written SE VA, VB, and the word 9ABF is not. -/
theorem compares_share_text :
    ∃ i j k, decode? ⟨0x5AB0⟩ = some i ∧ decode? ⟨0x5ABF⟩ = some j ∧ decode? ⟨0x9ABF⟩ = some k ∧
      i.text = j.text ∧ i.text ≠ k.text := by
  refine ⟨_, _, _, rfl, rfl, rfl, ?_, fun htext => ?_⟩
  · exact (text_tells_instruction.2.1 ⟨0x5AB0⟩ ⟨0x5ABF⟩ _ _ rfl rfl).mpr
      (Or.inr ⟨Or.inl ⟨rfl, rfl⟩, rfl, rfl⟩)
  · exact absurd ((text_tells_instruction.2.1 ⟨0x5AB0⟩ ⟨0x9ABF⟩ _ _ rfl rfl).mp htext)
      (by unfold Opcode.ComparesAlike; decide)

end Instruction

end ChipVM
