import ChipVM.Proofs.Text.Folding
import ChipVM.Variant

/-!
# Names of variants

A variant goes by its names up to the white space around them and the case of their ASCII letters, and
by nothing else. So padding and case change neither the variant that a name is looked up as nor whether
the look-up warns, and a name that is found holds nothing but visible ASCII characters.
-/

namespace ChipVM.Variant

open Text

/-- Without the white space around it, the text is one of the names but for the case of ASCII
letters. -/
def IsOneOf (s : String) (names : List String) : Prop :=
  ∃ core, Trims s.toList core ∧ ∃ name ∈ names, Recased name.toList core

theorem isOneOf_append (s : String) (names others : List String) :
    IsOneOf s (names ++ others) ↔ IsOneOf s names ∨ IsOneOf s others := by
  simp only [IsOneOf, List.mem_append, or_and_right, exists_or, and_or_left]

/-- Padding and case leave the form as it is. -/
theorem normalize_append_append {s s' before after : String} (hs : Recased s.toList s'.toList)
    (hbefore : Blank before.toList) (hafter : Blank after.toList) :
    normalize (before ++ s' ++ after) = normalize s := by
  have hchars : (before ++ s' ++ after).toList = before.toList ++ s'.toList ++ after.toList := by
    rw [String.toList_append, String.toList_append]
  unfold normalize
  rw [hchars, trim_append_append hbefore hafter, ← trim_map_toLower, ← trim_map_toLower,
    (recased_iff _ _).mp hs]

/-- A text has the form of a name in lower case exactly if it is this name up to padding and case. -/
theorem normalize_eq_iff {s name : String} (hname : name.toList.map Char.toLower = name.toList) :
    normalize s = name ↔ Recased name.toList (trim s.toList) := by
  rw [recased_iff, hname, normalize, ← String.toList_inj, String.toList_ofList]
  exact eq_comm

/-- Every name is in lower case. -/
theorem map_toLower_of_mem_aliases {v : Variant} {name : String} (h : name ∈ v.aliases) :
    name.toList.map Char.toLower = name.toList := by
  have hall : ∀ name ∈ v.aliases, name.toList.map Char.toLower = name.toList := by
    cases v <;> decide
  exact hall name h

/-- A name is found among the aliases exactly if it is one of them, up to white space and case. -/
theorem normalize_mem_aliases_iff (s : String) (v : Variant) :
    normalize s ∈ v.aliases ↔ IsOneOf s v.aliases := by
  constructor
  · intro h
    exact ⟨_, trims_trim _, _, h, (normalize_eq_iff (map_toLower_of_mem_aliases h)).mp rfl⟩
  · rintro ⟨core, hcore, name, hname, hcase⟩
    rw [hcore.eq_trim] at hcase
    rwa [(normalize_eq_iff (map_toLower_of_mem_aliases hname)).mpr hcase]

/-- No name is one of both variants. -/
theorem not_mem_aliases_extended {name : String} (h : name ∈ legacy.aliases) :
    name ∉ extended.aliases := by
  have hall : ∀ name ∈ legacy.aliases, name ∉ extended.aliases := by decide
  exact hall name h

/-- A variant is found exactly by its own aliases. -/
theorem named?_eq_some_iff (s : String) (v : Variant) :
    named? s = some v ↔ IsOneOf s v.aliases := by
  rw [← normalize_mem_aliases_iff]
  unfold named?
  cases v <;> grind [not_mem_aliases_extended]

/-- Nothing is found by any other name. -/
theorem named?_eq_none_iff (s : String) :
    named? s = none ↔ ¬ IsOneOf s legacy.aliases ∧ ¬ IsOneOf s extended.aliases := by
  rw [← named?_eq_some_iff, ← named?_eq_some_iff]
  cases named? s with
  | none => simp
  | some v => cases v <;> simp

/-- The extended variant is only taken if it is named. -/
theorem named_eq_extended_iff (s : String) :
    named s = extended ↔ named? s = some extended := by
  unfold named
  cases named? s with
  | none => simp
  | some v => simp

/-- A name is unknown exactly if it is none of the aliases. -/
theorem unknownName_eq_true_iff (s : String) :
    unknownName s = true ↔ ¬ IsOneOf s (legacy.aliases ++ extended.aliases) := by
  rw [unknownName, Option.isNone_iff_eq_none, named?_eq_none_iff, isOneOf_append, not_or]

/-- A name that is found holds visible ASCII characters alone. -/
theorem visible_of_isOneOf {s : String} {v : Variant} (h : IsOneOf s v.aliases) {core : List Char}
    (hcore : Trims s.toList core) : ∀ c ∈ core, 0x21 ≤ c.toNat ∧ c.toNat ≤ 0x7E := by
  intro c hc
  obtain ⟨core', hcore', name, hname, hcase⟩ := h
  rw [← hcore.eq_trim.trans hcore'.eq_trim.symm, recased_iff] at hcase
  have hmem : c.toLower ∈ name.toList := by
    rw [← map_toLower_of_mem_aliases hname, hcase]
    exact List.mem_map_of_mem hc
  have hall : ∀ name ∈ v.aliases,
      name.toList.all (fun c => decide (0x21 ≤ c.toNat ∧ c.toNat ≤ 0x7E)) = true := by
    cases v <;> decide
  have hvisible := of_decide_eq_true (List.all_eq_true.mp (hall name hname) c.toLower hmem)
  rw [toNat_toLower] at hvisible
  split at hvisible <;> omega

/-- A name may be padded with white space, and its ASCII letters may be of either case: it is looked up
as the same variant, with a warning if and only if there was one. The look-up gives the later variant
exactly if the name is one of four, and it warns exactly if the name is none of these and none of four
others, so that what is found without a warning holds visible ASCII characters alone. The name that a
variant is shown under is found. -/
theorem named_up_to_padding_and_case (s : String) :
    (∀ s' before after : String, Recased s.toList s'.toList → Blank before.toList →
      Blank after.toList → named (before ++ s' ++ after) = named s ∧
        unknownName (before ++ s' ++ after) = unknownName s) ∧
    (named s = extended ↔ IsOneOf s ["extended", "schip", "superchip", "super-chip"]) ∧
    (unknownName s = true ↔ ¬ IsOneOf s ["legacy", "chip8", "chip-8", "vip",
      "extended", "schip", "superchip", "super-chip"]) ∧
    (unknownName s = false → ∀ core, Trims s.toList core →
      ∀ c ∈ core, 0x21 ≤ c.toNat ∧ c.toNat ≤ 0x7E) ∧
    ∀ v : Variant, named v.name = v ∧ unknownName v.name = false := by
  refine ⟨fun s' before after hs hbefore hafter => ?_, ?_, unknownName_eq_true_iff s,
    fun hknown core hcore => ?_, fun v => ?_⟩
  · have hnamed : named? (before ++ s' ++ after) = named? s := by
      rw [named?, named?, normalize_append_append hs hbefore hafter]
    rw [named, named, unknownName, unknownName, hnamed]
    exact ⟨rfl, rfl⟩
  · rw [named_eq_extended_iff, named?_eq_some_iff]
    rfl
  · cases h : named? s with
    | none =>
      rw [unknownName, h] at hknown
      cases hknown
    | some v => exact visible_of_isOneOf ((named?_eq_some_iff s v).mp h) hcore
  · cases v <;> decide

/-- An ideographic blank, a tab and a line separator around the name, and every letter in the other
case. -/
theorem superChip_found_in_disguise :
    Recased "Super-Chip".toList "sUPER-cHIP".toList ∧ Blank "\u3000\t".toList ∧
      Blank "\u2028".toList ∧ named ("\u3000\t" ++ "sUPER-cHIP" ++ "\u2028") = extended := by
  have hs : Recased "Super-Chip".toList "sUPER-cHIP".toList := (recased_iff _ _).mpr (by decide)
  have hbefore : Blank "\u3000\t".toList := List.all_eq_true.mp (by decide)
  have hafter : Blank "\u2028".toList := List.all_eq_true.mp (by decide)
  have hsame := ((named_up_to_padding_and_case "Super-Chip").1 _ _ _ hs hbefore hafter).1
  exact ⟨hs, hbefore, hafter, hsame.trans (by decide)⟩

end ChipVM.Variant
