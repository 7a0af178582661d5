import ChipVM.Keypad

/-!
# The keys that are held

The bits of a keypad stand for a set of keys: an operation puts the key it names into the set, takes
it out or empties the set, and a number on no keypad goes into no set. So a key is held exactly if
the last operation that concerns it is a press. Nothing else about the operations counts, and two of
them that name different keys may change places.
-/

namespace ChipVM.Keypad

/-- What can be done with a keypad. -/
inductive Operation where
  /-- A key event. -/
  | change (c : KeyChange)
  /-- Hold a key or let it go. -/
  | set (key : UInt8) (down : Bool)
  deriving DecidableEq, Repr

namespace Operation

/-- The key that an operation names; none if it lets all keys go. -/
def key? : Operation → Option UInt8
  | .change (.press key) | .change (.release key) | .set key _ => some key
  | .change .releaseAll => none

/-- The operation holds the key that it names. -/
def isPress : Operation → Bool
  | .change (.press _) => true
  | .change (.release _) | .change .releaseAll => false
  | .set _ down => down

/-- The operation names the key or lets all keys go. -/
def concerns (op : Operation) (k : UInt8) : Bool := op.key?.all (· == k)

end Operation

open Operation

/-- Carry out an operation. -/
def perform (p : Keypad) : Operation → Keypad
  | .change c => p.apply c
  | .set key down => p.set key down

/-- Carry out operations, one after another. -/
def performAll (p : Keypad) (ops : List Operation) : Keypad := ops.foldl perform p

/-- The key is on the keypad and the last operation that concerns it is a press. -/
def LastPressed (ops : List Operation) (k : UInt8) : Prop :=
  k.toNat < 16 ∧ ∃ op, (ops.filter (·.concerns k)).getLast? = some op ∧ op.isPress = true

/-- An operation that names a key sets it. -/
theorem perform_of_key? (p : Keypad) {op : Operation} {k : UInt8} (h : op.key? = some k) :
    p.perform op = p.set k op.isPress := by
  cases op with
  | set key down =>
    cases Option.some.inj h
    rfl
  | change c =>
    cases c with
    | press | release =>
      cases Option.some.inj h
      rfl
    | releaseAll => cases h

/-- An operation that names no key lets all go. -/
theorem perform_of_key?_eq_none (p : Keypad) {op : Operation} (h : op.key? = none) :
    p.perform op = released ∧ op.isPress = false := by
  cases op with
  | set => cases h
  | change c =>
    cases c with
    | press | release => cases h
    | releaseAll => exact ⟨rfl, rfl⟩

/-- An operation decides about the keys that it concerns, and no others. -/
theorem isHeld_perform (p : Keypad) (op : Operation) {k : UInt8} (hk : k.toNat < 16) :
    (p.perform op).isHeld k = if op.concerns k then op.isPress else p.isHeld k := by
  cases h : op.key? with
  | none =>
    obtain ⟨hreleased, hpress⟩ := p.perform_of_key?_eq_none h
    rw [hreleased, isHeld_released, concerns, h, hpress]
    rfl
  | some key =>
    rw [p.perform_of_key? h, isHeld_set, concerns, h, Option.all_some]
    by_cases heq : key = k
    · rw [if_pos ⟨heq, heq ▸ hk⟩, if_pos (beq_iff_eq.mpr heq)]
    · rw [if_neg fun hc => heq hc.1, if_neg fun hc => heq (beq_iff_eq.mp hc)]

/-- A number on no keypad sets nothing. -/
theorem perform_of_le (p : Keypad) {op : Operation} {k : UInt8} (h : op.key? = some k)
    (hk : 16 ≤ k.toNat) : p.perform op = p := by
  rw [p.perform_of_key? h]
  ext j
  rw [isHeld_set, if_neg fun hc => Nat.not_lt.mpr hk hc.2]

/-- Operations that name different keys may change places. -/
theorem perform_perform (p : Keypad) {a b : Operation} {i j : UInt8} (ha : a.key? = some i)
    (hb : b.key? = some j) (hij : i ≠ j) :
    (p.perform a).perform b = (p.perform b).perform a := by
  ext k
  simp only [perform_of_key? _ ha, perform_of_key? _ hb, isHeld_set]
  by_cases hi : i = k
  · have hj : j ≠ k := fun h => hij (hi.trans h.symm)
    simp only [hj, false_and, if_false]
  · simp only [hi, false_and, if_false]

theorem performAll_append (p : Keypad) (before after : List Operation) :
    p.performAll (before ++ after) = (p.performAll before).performAll after := List.foldl_append

/-- A key is held after a number of operations if the last one that concerns it is a press, or if
none concerns it and it was held before. -/
theorem isHeld_performAll (p : Keypad) (ops : List Operation) {k : UInt8} (hk : k.toNat < 16) :
    (p.performAll ops).isHeld k =
      ((ops.filter (·.concerns k)).getLast?.map isPress).getD (p.isHeld k) := by
  induction ops generalizing p with
  | nil => rfl
  | cons op rest ih =>
    have hrest : (p.performAll (op :: rest)).isHeld k =
        ((rest.filter (·.concerns k)).getLast?.map isPress).getD ((p.perform op).isHeld k) := ih _
    rw [hrest, p.isHeld_perform op hk, List.filter_cons]
    split
    · rw [List.getLast?_cons, Option.map_some, Option.getD_some]
      cases (rest.filter (·.concerns k)).getLast? <;> rfl
    · rfl

/-- From a new keypad on, a key is held exactly if the last operation on it was a press. -/
theorem isHeld_performAll_released_iff (ops : List Operation) (k : UInt8) :
    (released.performAll ops).isHeld k = true ↔ LastPressed ops k := by
  by_cases hk : k.toNat < 16
  · rw [isHeld_performAll _ _ hk, isHeld_released, LastPressed]
    cases (ops.filter (·.concerns k)).getLast? with
    | none => simp
    | some op => simp [hk]
  · rw [isHeld_of_le _ (Nat.not_lt.mp hk)]
    exact iff_of_false Bool.false_ne_true fun h => hk h.1

/-- Let any operations have been carried out on a keypad on which no key was held. Then the keys held
are those of the keypad for which the last operation that names them, or lets all go, is a press; and
the one found first is the least of them, if there is any. To name a number on no keypad changes
nothing. And where operations next to each other name different keys, the keypad would be the same if
they had changed places. -/
theorem keys_held_by_last_press (ops : List Operation) :
    let p := released.performAll ops
    (∀ k, p.isHeld k = true ↔ LastPressed ops k) ∧
    (∀ k, p.first? = some k ↔ LastPressed ops k ∧ ∀ j < k, ¬ LastPressed ops j) ∧
    (p.first? = none ↔ ∀ k, ¬ LastPressed ops k) ∧
    (∀ op k, op.key? = some k → 16 ≤ k.toNat → p.perform op = p) ∧
    ∀ before a b after i j, ops = before ++ a :: b :: after → a.key? = some i →
      b.key? = some j → i ≠ j → p = released.performAll (before ++ b :: a :: after) := by
  intro p
  have hheld (k : UInt8) : p.isHeld k = true ↔ LastPressed ops k :=
    isHeld_performAll_released_iff ops k
  have hfree (k : UInt8) : p.isHeld k = false ↔ ¬ LastPressed ops k := by
    rw [← hheld, Bool.not_eq_true]
  refine ⟨hheld, fun k => ?_, ?_, fun op k => p.perform_of_le, ?_⟩
  · rw [first?_eq_some_iff, hheld]
    simp only [hfree]
  · rw [first?_eq_none_iff]
    simp only [hfree]
  · intro before a b after i j hops ha hb hij
    have hswap := (released.performAll before).perform_perform ha hb hij
    calc p = released.performAll (before ++ a :: b :: after) := congrArg _ hops
      _ = (((released.performAll before).perform a).perform b).performAll after :=
        performAll_append ..
      _ = (((released.performAll before).perform b).perform a).performAll after := by rw [hswap]
      _ = released.performAll (before ++ b :: a :: after) :=
        (performAll_append released before (b :: a :: after)).symm

end ChipVM.Keypad
