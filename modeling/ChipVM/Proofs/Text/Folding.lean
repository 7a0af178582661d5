import ChipVM.Text.WhiteSpace
import Mathlib.Data.List.Forall2

/-!
# Text up to padding and letter case

Two ways to look past the spelling of a text: the white space around it is taken away, and the ASCII
letters in it may be of either case. What is left after the first does not depend on how much white
space there was. No ASCII letter is white space, so neither gets in the other's way.
-/

namespace ChipVM.Text

/-- The same character, or the same ASCII letter in either case. -/
def LetterAlike (c d : Char) : Prop :=
  d = c ∨ c.isAlpha = true ∧ (d = c.toLower ∨ d = c.toUpper)

/-- The second text is the first with the case of some ASCII letters changed. -/
def Recased (s t : List Char) : Prop := List.Forall₂ LetterAlike s t

theorem toNat_toLower (c : Char) :
    c.toLower.toNat = if 65 ≤ c.toNat ∧ c.toNat ≤ 90 then c.toNat + 32 else c.toNat := by
  unfold Char.toLower
  split
  · next h =>
    have hupper : 65 ≤ c.toNat ∧ c.toNat ≤ 90 := h
    rw [if_pos hupper]
    have hdistance : ('a'.val - 'A'.val).toNat = 32 := by decide
    rw [← Char.toNat_val, ← Char.toNat_val, UInt32.toNat_add, hdistance, Char.toNat_val]
    omega
  · next h => exact (if_neg h).symm

theorem toNat_toUpper (c : Char) :
    c.toUpper.toNat = if 97 ≤ c.toNat ∧ c.toNat ≤ 122 then c.toNat - 32 else c.toNat := by
  unfold Char.toUpper
  split
  · next h =>
    have hlower : 97 ≤ c.toNat ∧ c.toNat ≤ 122 := h
    rw [if_pos hlower]
    have hdistance : ('A'.val - 'a'.val).toNat = 2 ^ 32 - 32 := by decide
    rw [← Char.toNat_val, ← Char.toNat_val, UInt32.toNat_add, hdistance, Char.toNat_val]
    omega
  · next h => exact (if_neg h).symm

/-- The letters are two ranges of code points. -/
theorem isAlpha_iff (c : Char) :
    c.isAlpha = true ↔ 65 ≤ c.toNat ∧ c.toNat ≤ 90 ∨ 97 ≤ c.toNat ∧ c.toNat ≤ 122 := by
  have hupper : c.isUpper = true ↔ 65 ≤ c.toNat ∧ c.toNat ≤ 90 := decide_eq_true_iff
  have hlower : c.isLower = true ↔ 97 ≤ c.toNat ∧ c.toNat ≤ 122 :=
    Bool.and_eq_true_iff.trans (and_congr decide_eq_true_iff decide_eq_true_iff)
  exact Bool.or_eq_true_iff.trans (or_congr hupper hlower)

/-- Characters are alike exactly if they are the same in lower case. -/
theorem letterAlike_iff (c d : Char) : LetterAlike c d ↔ c.toLower = d.toLower := by
  simp only [LetterAlike, ← Char.toNat_inj, isAlpha_iff, toNat_toLower, toNat_toUpper]
  grind

/-- Texts are recased exactly if they are the same in lower case. -/
theorem recased_iff (s t : List Char) : Recased s t ↔ s.map Char.toLower = t.map Char.toLower := by
  have hlower : LetterAlike = fun c d => c.toLower = d.toLower := by
    funext c d
    exact propext (letterAlike_iff c d)
  rw [← List.forall₂_eq_eq_eq, List.forall₂_map_left_iff, List.forall₂_map_right_iff, Recased,
    hlower]

/-- The text is white space throughout. -/
def Blank (cs : List Char) : Prop := ∀ c ∈ cs, isWhiteSpace c = true

/-- What is left of a text when the white space around it is taken away. -/
structure Trims (cs core : List Char) : Prop where
  /-- Only white space is taken away, and only at the ends. -/
  around : ∃ before after, Blank before ∧ Blank after ∧ cs = before ++ core ++ after
  /-- No white space is left in front. -/
  front : ∀ c ∈ core.head?, isWhiteSpace c = false
  /-- No white space is left behind. -/
  back : ∀ c ∈ core.getLast?, isWhiteSpace c = false

/-- White space is dropped up to the first character that is none. -/
theorem dropWhile_append_of_head? {before rest : List Char} (hbefore : Blank before)
    (hrest : ∀ c ∈ rest.head?, isWhiteSpace c = false) :
    (before ++ rest).dropWhile isWhiteSpace = rest := by
  rw [List.dropWhile_append_of_pos hbefore]
  cases rest with
  | nil => rfl
  | cons c rest => rw [List.dropWhile_cons_of_neg (by simp [hrest c rfl])]

/-- What is left does not begin with white space. -/
theorem isWhiteSpace_head?_dropWhile (cs : List Char) :
    ∀ c ∈ (cs.dropWhile isWhiteSpace).head?, isWhiteSpace c = false := by
  intro c hc
  have hstop := List.head?_dropWhile_not isWhiteSpace cs
  rw [Option.mem_def.mp hc] at hstop
  exact hstop

/-- What is dropped from the front is blank. -/
theorem exists_append_dropWhile (cs : List Char) :
    ∃ before, Blank before ∧ cs = before ++ cs.dropWhile isWhiteSpace :=
  ⟨cs.takeWhile isWhiteSpace, List.all_eq_true.mp List.all_takeWhile,
    List.takeWhile_append_dropWhile.symm⟩

theorem Blank.append {before after : List Char} (hbefore : Blank before) (hafter : Blank after) :
    Blank (before ++ after) :=
  List.forall_mem_append.mpr ⟨hbefore, hafter⟩

theorem Blank.reverse {cs : List Char} (h : Blank cs) : Blank cs.reverse :=
  fun c hc => h c (List.mem_reverse.mp hc)

/-- Trimming leaves the text between the blanks. -/
theorem trims_trim (cs : List Char) : Trims cs (trim cs) := by
  obtain ⟨before, hbefore, hcs⟩ := exists_append_dropWhile cs
  obtain ⟨behind, hbehind, hreverse⟩ := exists_append_dropWhile (cs.dropWhile isWhiteSpace).reverse
  have hrest : cs.dropWhile isWhiteSpace = trim cs ++ behind.reverse := by
    rw [trim, ← List.reverse_append, ← hreverse, List.reverse_reverse]
  refine ⟨⟨before, behind.reverse, hbefore, hbehind.reverse, ?_⟩, fun c hc => ?_, fun c hc => ?_⟩
  · rw [List.append_assoc, ← hrest]
    exact hcs
  · apply isWhiteSpace_head?_dropWhile cs c
    rw [hrest, List.head?_append, Option.mem_def.mp hc]
    rfl
  · rw [trim, List.getLast?_reverse] at hc
    exact isWhiteSpace_head?_dropWhile _ c hc

/-- What is left does not depend on how the text is taken apart. -/
theorem Trims.eq_trim {cs core : List Char} (h : Trims cs core) : core = trim cs := by
  obtain ⟨before, after, hbefore, hafter, rfl⟩ := h.around
  by_cases hcore : core = []
  · have hblank : Blank (before ++ core ++ after) := by
      rw [hcore, List.append_nil]
      exact hbefore.append hafter
    rw [trim, ← List.append_nil (before ++ core ++ after),
      dropWhile_append_of_head? hblank (by simp), hcore]
    rfl
  · have hfront : ∀ c ∈ (core ++ after).head?, isWhiteSpace c = false := by
      rw [List.head?_append_of_ne_nil core hcore]
      exact h.front
    have hback : ∀ c ∈ core.reverse.head?, isWhiteSpace c = false := by
      rw [List.head?_reverse]
      exact h.back
    rw [trim, List.append_assoc, dropWhile_append_of_head? hbefore hfront, List.reverse_append,
      dropWhile_append_of_head? hafter.reverse hback, List.reverse_reverse]

/-- White space that is put around a text is taken away again. -/
theorem trim_append_append {before cs after : List Char} (hbefore : Blank before)
    (hafter : Blank after) : trim (before ++ cs ++ after) = trim cs := by
  obtain ⟨⟨front, back, hfront, hback, hcs⟩, hstart, hend⟩ := trims_trim cs
  have hparts : before ++ cs ++ after = (before ++ front) ++ trim cs ++ (back ++ after) :=
    (congrArg (before ++ · ++ after) hcs).trans (by simp only [List.append_assoc])
  exact (Trims.eq_trim
    ⟨⟨_, _, hbefore.append hfront, hback.append hafter, hparts⟩, hstart, hend⟩).symm

/-- No visible ASCII character is white space. -/
theorem isWhiteSpace_of_visible {c : Char} (h : 0x21 ≤ c.toNat ∧ c.toNat ≤ 0x7E) :
    isWhiteSpace c = false := by
  refine Bool.eq_false_iff.mpr fun hspace => ?_
  obtain ⟨r, hr, hc⟩ := List.any_eq_true.mp hspace
  have hgap : ∀ r ∈ whiteSpace.ranges, r.2 < 0x21 ∨ 0x7E < r.1 := by decide
  have hin : r.1 ≤ c.toNat ∧ c.toNat ≤ r.2 := by simpa using hc
  have := hgap r hr
  omega

/-- White space has no case. -/
theorem isWhiteSpace_toLower (c : Char) : isWhiteSpace c.toLower = isWhiteSpace c := by
  have hcode := toNat_toLower c
  split at hcode
  · rw [isWhiteSpace_of_visible (by omega), isWhiteSpace_of_visible (by omega)]
  · rw [Char.toNat_inj.mp hcode]

/-- Taking white space away and changing the case of letters may change places. -/
theorem trim_map_toLower (cs : List Char) :
    trim (cs.map Char.toLower) = (trim cs).map Char.toLower := by
  have hlower : isWhiteSpace ∘ Char.toLower = isWhiteSpace := funext isWhiteSpace_toLower
  simp only [trim, List.dropWhile_map, hlower, ← List.map_reverse]

end ChipVM.Text
