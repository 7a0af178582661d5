import ChipVM.Text.Hex

/-!
# Hexadecimal text read back

Every number has a text of its own: digits are read from left to right, in either case, and zeros in
front of them count for nothing. So neither the padding nor the case of a text hides the number.
-/

namespace ChipVM.Text

/-- The digits of base sixteen in lower case, in ascending order. -/
def lowerDigits : List Char := (List.range 16).map Nat.digitChar

/-- The digits of base sixteen in upper case, in ascending order. -/
def upperDigits : List Char := lowerDigits.map Char.toUpper

/-- The value of a digit in either case, and 16 for any other character. -/
def digitValue (c : Char) : Nat := lowerDigits.idxOf c.toLower

/-- The number that digits stand for. -/
def readHex (cs : List Char) : Nat := cs.foldl (fun n c => 16 * n + digitValue c) 0

theorem digitValue_digitChar : ∀ d < 16, digitValue (Nat.digitChar d) = d := by decide

theorem digitValue_toUpper_digitChar : ∀ d < 16, digitValue (Nat.digitChar d).toUpper = d := by
  decide

theorem readHex_concat (cs : List Char) (c : Char) :
    readHex (cs ++ [c]) = 16 * readHex cs + digitValue c := by
  rw [readHex, List.foldl_append]
  rfl

/-- Zeros in front of a number count for nothing. -/
theorem readHex_replicate_zero_append (k : Nat) (cs : List Char) :
    readHex (List.replicate k '0' ++ cs) = readHex cs := by
  induction k with
  | zero => rfl
  | succ k ih => exact ih

/-- The digits of a number are those of its sixteenth part and one more. -/
theorem toDigits_induction {P : Nat → List Char → Prop} (hlast : ∀ d < 16, P d [Nat.digitChar d])
    (hmore : ∀ n cs, P n cs → ∀ d < 16, P (16 * n + d) (cs ++ [Nat.digitChar d])) (n : Nat) :
    P n (Nat.toDigits 16 n) := by
  induction n using Nat.strongRecOn with
  | ind n ih =>
    rw [Nat.toDigits_eq_if (by decide)]
    split
    · next hlt => exact hlast n hlt
    · next hle =>
      have h := hmore (n / 16) _ (ih (n / 16) (by omega)) (n % 16) (Nat.mod_lt _ (by decide))
      rwa [Nat.div_add_mod] at h

/-- Digits may be written in any way that leaves each one its value. -/
theorem readHex_map_toDigits {f : Char → Char} (hf : ∀ d < 16, digitValue (f (Nat.digitChar d)) = d)
    (n : Nat) : readHex ((Nat.toDigits 16 n).map f) = n := by
  refine toDigits_induction (P := fun n cs => readHex (cs.map f) = n) ?_ ?_ n
  · intro d hd
    exact (Nat.zero_add _).trans (hf d hd)
  · intro n cs hcs d hd
    rw [List.map_append, List.map_singleton, readHex_concat, hcs, hf d hd]

/-- A number is read back from its padded digits. -/
theorem readHex_hexDigits (width n : Nat) : readHex (hexDigits width n) = n := by
  have hdigits := readHex_map_toDigits (f := id) digitValue_digitChar n
  rw [List.map_id] at hdigits
  rw [hexDigits, List.leftpad, readHex_replicate_zero_append, hdigits]

/-- A number is read back from its capital digits. -/
theorem readHex_hexUpper (n : Nat) : readHex (hexUpper n).toList = n := by
  rw [hexUpper, String.toList_ofList]
  exact readHex_map_toDigits digitValue_toUpper_digitChar n

/-- A number's digits are among the sixteen. -/
theorem mem_lowerDigits_of_mem_toDigits (n : Nat) : ∀ c ∈ Nat.toDigits 16 n, c ∈ lowerDigits := by
  have hdigit : ∀ d < 16, Nat.digitChar d ∈ lowerDigits :=
    fun d hd => List.mem_map_of_mem (List.mem_range.mpr hd)
  refine toDigits_induction (P := fun _ cs => ∀ c ∈ cs, c ∈ lowerDigits) ?_ ?_ n
  · intro d hd c hc
    rw [List.mem_singleton.mp hc]
    exact hdigit d hd
  · intro n cs hcs d hd c hc
    rcases List.mem_append.mp hc with hfirst | hlast
    · exact hcs c hfirst
    · rw [List.mem_singleton.mp hlast]
      exact hdigit d hd

/-- A number's padded digits are among the sixteen. -/
theorem mem_lowerDigits_of_mem_hexDigits {width n : Nat} {c : Char} (h : c ∈ hexDigits width n) :
    c ∈ lowerDigits := by
  rcases List.mem_append.mp h with hzero | hdigit
  · rw [List.eq_of_mem_replicate hzero]
    decide
  · exact mem_lowerDigits_of_mem_toDigits n c hdigit

/-- A number's capital digits are among the sixteen capitals. -/
theorem mem_upperDigits_of_mem_hexUpper {n : Nat} {c : Char} (h : c ∈ (hexUpper n).toList) :
    c ∈ upperDigits := by
  rw [hexUpper, String.toList_ofList] at h
  obtain ⟨d, hd, rfl⟩ := List.mem_map.mp h
  exact List.mem_map_of_mem (mem_lowerDigits_of_mem_toDigits n d hd)

end ChipVM.Text
