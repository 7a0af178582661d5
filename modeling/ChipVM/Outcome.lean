import ChipVM.Fault

/-!
# Outcomes

Work on a state either gets done or is cut short by a fault, and there is a state afterwards in both
cases: what was changed before the fault stays changed. Work is atomic if a fault finds the state as
it was at the start; the combinators below tell when larger work inherits that from its parts.
-/

namespace ChipVM

/-- What a piece of work comes to. -/
structure Outcome (σ : Type) where
  /-- The state that the work leaves. -/
  state : σ
  /-- The fault that cut the work short, if one did. -/
  fault : Option Fault
  deriving DecidableEq, Repr

namespace Outcome

variable {σ τ α : Type}

/-- Everything is done and this is the state. -/
def done (s : σ) : Outcome σ := ⟨s, none⟩

/-- A fault found the state like this. -/
def failed (s : σ) (f : Fault) : Outcome σ := ⟨s, some f⟩

/-- Go on with the answer to a question; a fault instead of an answer cuts the work short. -/
def ask (s : σ) (answer : Except Fault α) (k : α → Outcome σ) : Outcome σ :=
  match answer with
  | .ok a => k a
  | .error f => failed s f

/-- Go on from the state that was left, unless a fault cut the work short. -/
def andThen (o : Outcome σ) (k : σ → Outcome σ) : Outcome σ :=
  match o.fault with
  | none => k o.state
  | some _ => o

/-- The work on a part as work on the whole that the part is put into. -/
def within (o : Outcome τ) (put : τ → σ) : Outcome σ := ⟨put o.state, o.fault⟩

@[simp] theorem state_done (s : σ) : (done s).state = s := rfl
@[simp] theorem fault_done (s : σ) : (done s).fault = none := rfl
@[simp] theorem state_failed (s : σ) (f : Fault) : (failed s f).state = s := rfl
@[simp] theorem fault_failed (s : σ) (f : Fault) : (failed s f).fault = some f := rfl

@[simp] theorem ask_ok (s : σ) (a : α) (k : α → Outcome σ) : ask s (.ok a) k = k a := rfl

@[simp] theorem ask_error (s : σ) (f : Fault) (k : α → Outcome σ) :
    ask s (.error f) k = failed s f := rfl

@[simp] theorem andThen_done (s : σ) (k : σ → Outcome σ) : (done s).andThen k = k s := rfl

@[simp] theorem andThen_failed (s : σ) (f : Fault) (k : σ → Outcome σ) :
    (failed s f).andThen k = failed s f := rfl

@[simp] theorem within_done (s : τ) (put : τ → σ) : (done s).within put = done (put s) := rfl

@[simp] theorem within_failed (s : τ) (f : Fault) (put : τ → σ) :
    (failed s f).within put = failed (put s) f := rfl

/-- If a fault cuts the work short, the state is still `s`. -/
def Atomic (s : σ) (o : Outcome σ) : Prop := o.fault ≠ none → o.state = s

/-- Work that is done is atomic, whatever it has changed. -/
theorem atomic_done (s t : σ) : (done t).Atomic s := fun h => absurd rfl h

/-- Work that fails in the state it began in is atomic. -/
theorem atomic_failed (s : σ) (f : Fault) : (failed s f).Atomic s := fun _ => rfl

/-- Asking changes nothing. -/
theorem atomic_ask {s : σ} (answer : Except Fault α) {k : α → Outcome σ}
    (hk : ∀ a, (k a).Atomic s) : (ask s answer k).Atomic s := by
  cases answer with
  | ok a => exact hk a
  | error f => exact atomic_failed s f

/-- Atomic work followed by work that cannot fail. -/
theorem Atomic.andThen_done {s : σ} {o : Outcome σ} (ho : o.Atomic s) (g : σ → σ) :
    (o.andThen fun t => done (g t)).Atomic s := by
  intro h
  unfold andThen at h ⊢
  cases hf : o.fault with
  | none => simp [hf] at h
  | some f => exact ho (by simp [hf])

/-- Atomic work on a part leaves the whole alone, if putting the old part back does. -/
theorem Atomic.within {s : σ} {p : τ} {o : Outcome τ} (ho : o.Atomic p) {put : τ → σ}
    (hput : put p = s) : (o.within put).Atomic s := fun h => (congrArg put (ho h)).trans hput

end Outcome

end ChipVM
