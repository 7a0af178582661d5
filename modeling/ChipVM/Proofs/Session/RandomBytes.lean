import ChipVM.Proofs.Machine.Footprint
import ChipVM.Proofs.Session.Trace

/-!
# Random bytes in order

The random stream moves on by one word with each `Cxnn` that is carried out and with nothing else.
So how many of them a history has carried out is the place in the stream where the next one finds
its byte, whatever else the history consists of.
-/

namespace ChipVM.Session

/-- How many random bytes a history draws. -/
def drawCount (s : Session) (events : List Event) : Nat :=
  (s.performed events).countP fun r => r.2.isRandom

/-- An event moves the random stream on if it draws a byte. -/
theorem random_apply (s : Session) (e : Event) :
    (s.apply e).machine.random =
      ((s.performs? e).map s.machine.randomAfter).getD s.machine.random :=
  part_apply Machine.random (fun m _ => m.randomAfter)
    (fun m p => by rw [m.load_eq_done p]; rfl) (fun _ => rfl)
    (fun m keys now i => m.ready.random_execute keys now i) s e

/-- Only a step that asks for a random byte takes one. -/
theorem random_apply_of_not_random {s : Session} {e : Event}
    (h : ∀ x mask, s.performs? e ≠ some (.random x mask)) :
    (s.apply e).machine.random = s.machine.random := by
  rw [random_apply]
  cases hi : s.performs? e with
  | none => rfl
  | some i =>
    cases i with
    | random x mask => exact absurd hi (h x mask)
    | _ => rfl

/-- A history moves the random stream on by as many words as it draws bytes. -/
theorem random_run (s : Session) (events : List Event) :
    (s.run events).machine.random =
      { s.machine.random with drawn := s.machine.random.drawn + s.drawCount events } := by
  induction events generalizing s with
  | nil => rfl
  | cons e es ih =>
    rw [run_cons, ih (s.apply e), random_apply, drawCount, drawCount, performed, List.countP_append]
    cases s.performs? e with
    | none => simp
    | some i =>
      cases hr : i.isRandom with
      | false => simp [Machine.randomAfter, hr]
      | true =>
        simp only [Option.map_some, Option.getD_some, Option.toList_some, List.countP_singleton,
          Machine.randomAfter, RandomStream.advance, hr, if_true, Nat.add_assoc]

/-- Switch a machine on with a seed and let any history pass, in the course of which `k` random
bytes have been drawn. Then the stream stands at its word `k`; a `Cxnn` that is carried out next
puts the low byte of that word, masked, into its register and moves the stream on by one word; and
no other event moves the stream. Word `k` is word `k % 16` of the block numbered `k / 16`. -/
theorem random_bytes_in_order (variant : Variant) (seed : UInt64) (keys : Keypad) (now : Nanos)
    (events : List Event) :
    let start := switchedOn variant (RandomStream.ofSeed seed) keys now
    let s := start.run events
    let k := start.drawCount events
    let key := (RandomStream.ofSeed seed).key
    let word := (ChaCha.block key (k / 16)).get ⟨k % 16, Nat.mod_lt k (by decide)⟩
    s.machine.random = ⟨key, k⟩ ∧
    (∀ x mask, s.machine.Runs (.random x mask) →
      s.outcome = .done { s.machine.ready with
        regs := s.machine.ready.regs.set x (word.toUInt8 &&& mask)
        random := ⟨key, k + 1⟩ }) ∧
    ∀ e, (∀ x mask, s.performs? e ≠ some (.random x mask)) →
      (s.apply e).machine.random = s.machine.random := by
  intro start s k key word
  have hrandom : s.machine.random = ⟨key, k⟩ := by
    have h := start.random_run events
    rw [show start.machine.random.drawn = 0 from rfl, Nat.zero_add] at h
    exact h
  refine ⟨hrandom, fun x mask hrun => ?_, fun e => random_apply_of_not_random⟩
  rw [outcome, hrun.step, Machine.execute]
  have hready : s.machine.ready.random = ⟨key, k⟩ := hrandom
  rw [hready]
  rfl

/-- A program that draws a byte and drops it, meets a word without a meaning, and draws again. -/
def dice : Program := ⟨[0xC1, 0x00, 0xE0, 0xFF, 0xC2, 0x0F], by decide⟩

/-- The dice rolled, the undefined word passed, and all of it once more from the beginning. -/
def diceHistory : List Event :=
  [.load dice, .step, .wait 5, .step, .load dice, .key (.press 3), .step, .step]

/-- The third throw of the dice is the third byte of the stream, masked. -/
theorem third_byte_of_dice :
    let start := switchedOn .extended (RandomStream.ofSeed 8) Keypad.released 0
    let s := start.run diceHistory
    let k := start.drawCount diceHistory
    let key := (RandomStream.ofSeed 8).key
    let word := (ChaCha.block key (k / 16)).get ⟨k % 16, Nat.mod_lt k (by decide)⟩
    k = 2 ∧ s.machine.Runs (.random 2 0x0F) ∧
    s.outcome = .done { s.machine.ready with
      regs := s.machine.ready.regs.set 2 (word.toUInt8 &&& 0x0F)
      random := ⟨key, k + 1⟩ } := by
  intro start s k key word
  have hrun : s.machine.Runs (.random 2 0x0F) := by decide +kernel
  have hbytes := random_bytes_in_order .extended 8 Keypad.released 0 diceHistory
  exact ⟨by decide +kernel, hrun, hbytes.2.1 2 0x0F hrun⟩

end ChipVM.Session
