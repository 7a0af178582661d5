import ChipVM.Program.Source

/-!
# Readers

A reader is anything that answers requests for bytes, in whatever pieces, as long as it is not
interrupted for ever. It delivers certain bytes if every request is answered by an interruption or by
some of those that are still to come, and if it comes to its end or to a failure when none are left.
What is read from such a reader depends on the bytes and on what comes after them, and on nothing
else.
-/

namespace ChipVM

/-- Something that goes from state to state as it answers requests for so many bytes. -/
structure Reader (σ : Type) where
  request : σ → Nat → Source.Reply × σ
  /-- A bound on how often a request is interrupted if it is repeated. -/
  patience : σ → Nat → Nat
  patience_lt : ∀ {s s' : σ} {want : Nat},
    request s want = (.interrupted, s') → patience s' want < patience s want

namespace Source.Reply

/-- The reply to a request for `want` bytes is right for a reader that has `data` to give, and
after that ends or fails. -/
def Fits (want : Nat) (data : List UInt8) (failure : Option HostFault) : Reply → Prop
  | bytes [] => data = [] ∧ failure = none
  | bytes piece => piece.length ≤ want ∧ piece <+: data
  | interrupted => True
  | failed fault => data = [] ∧ failure = some fault

/-- The bytes that come with a reply. -/
def given : Reply → List UInt8
  | bytes piece => piece
  | interrupted | failed _ => []

/-- There is more to ask for after the reply. -/
def GoesOn : Reply → Prop
  | bytes piece => piece ≠ []
  | interrupted => True
  | failed _ => False

/-- Bytes are the right reply if they come next, and if none come only at the end. -/
theorem fits_bytes {want : Nat} {data piece : List UInt8} {failure : Option HostFault}
    (hle : piece.length ≤ want) (hbegins : piece <+: data)
    (hend : piece = [] → data = [] ∧ failure = none) : (bytes piece).Fits want data failure := by
  cases piece with
  | nil => exact hend rfl
  | cons b rest => exact ⟨hle, hbegins⟩

end Source.Reply

namespace Reader

variable {σ : Type}

/-- From the state on, requests of any sizes are answered with just these bytes, in pieces and with
interruptions between them. Then comes the failure, or the end if there is none. -/
inductive Delivers (r : Reader σ) (failure : Option HostFault) : σ → List UInt8 → Prop where
  | intro {s : σ} {data : List UInt8}
    (fits : ∀ want, 0 < want → (r.request s want).1.Fits want data failure)
    (goesOn : ∀ want, 0 < want → (r.request s want).1.GoesOn →
      Delivers r failure (r.request s want).2 (data.drop (r.request s want).1.given.length)) :
    Delivers r failure s data

/-- Ask until `want` bytes have come, or the end, or a failure, as `Source.drain` does. -/
def drain (r : Reader σ) (s : σ) (want : Nat) (taken : List UInt8) :
    List UInt8 × Option HostFault × σ :=
  if want = 0 then (taken, none, s)
  else
    match _h : r.request s want with
    | (.failed fault, s') => (taken, some fault, s')
    | (.interrupted, s') => drain r s' want taken
    | (.bytes [], s') => (taken, none, s')
    | (.bytes (b :: rest), s') => drain r s' (want - (b :: rest).length) (taken ++ b :: rest)
termination_by (want, r.patience s want)
decreasing_by
  · exact Prod.Lex.right want (r.patience_lt _h)
  · refine Prod.Lex.left _ _ ?_
    rw [List.length_cons]
    omega

/-- The first `want` bytes come of a reader that delivers so many. Of any other come all its bytes
and then the failure, if it has one. -/
theorem drain_of_delivers {r : Reader σ} {failure : Option HostFault} {s : σ} {data : List UInt8}
    (h : r.Delivers failure s data) (want : Nat) (taken : List UInt8) :
    ∃ s', r.drain s want taken =
      (taken ++ data.take want, if want ≤ data.length then none else failure, s') := by
  -- Each request that goes on leaves less to deliver, which is what the induction is on.
  induction h generalizing want taken with
  | @intro s data hfits _ ih =>
    rw [drain]
    by_cases hzero : want = 0
    · subst hzero
      exact ⟨s, by simp⟩
    have hpos : 0 < want := Nat.pos_of_ne_zero hzero
    have hfits := hfits want hpos
    have ih := ih want hpos
    rw [if_neg hzero]
    split
    · next fault s' hr =>
      rw [hr] at hfits
      obtain ⟨rfl, rfl⟩ := hfits
      exact ⟨s', by simp [hzero]⟩
    · next s' hr =>
      rw [hr] at ih
      exact ih trivial want taken
    · next s' hr =>
      rw [hr] at hfits
      obtain ⟨rfl, rfl⟩ := hfits
      exact ⟨s', by simp⟩
    · next b rest s' hr =>
      rw [hr] at hfits ih
      obtain ⟨hle, later, rfl⟩ := hfits
      have hlater : (b :: rest ++ later).drop (b :: rest).length = later := List.drop_left
      have htake : (b :: rest ++ later).take want =
          b :: rest ++ later.take (want - (b :: rest).length) := by
        rw [List.take_append, List.take_of_length_le hle]
      have hlength : want - (b :: rest).length ≤ later.length ↔
          want ≤ (b :: rest ++ later).length := by
        rw [List.length_append]
        omega
      obtain ⟨s'', hs''⟩ := ih (List.cons_ne_nil b rest) (want - (b :: rest).length)
        (taken ++ b :: rest)
      refine ⟨s'', hs''.trans ?_⟩
      rw [Source.Reply.given, hlater, htake, List.append_assoc]
      simp only [hlength]

end Reader

namespace Source

/-- A source as a reader. -/
def reader : Reader Source where
  request := request
  patience s _ := s.interruptions
  patience_lt := interruptions_of_request

@[simp] theorem request_reader (s : Source) (want : Nat) :
    reader.request s want = s.request want := rfl

/-- A source is drained as any other reader is. -/
theorem drain_reader (s : Source) (want : Nat) (taken : List UInt8) :
    reader.drain s want taken = s.drain want taken := by
  fun_induction Source.drain s want taken with
  | case1 s taken => rw [Reader.drain, if_pos rfl]
  | case2 s want taken hwant fault s' hr => rw [Reader.drain, if_neg hwant, request_reader, hr]
  | case3 s want taken hwant s' hr _ ih =>
    rw [Reader.drain, if_neg hwant, request_reader, hr]
    exact ih
  | case4 s want taken hwant s' hr => rw [Reader.drain, if_neg hwant, request_reader, hr]
  | case5 s want taken hwant b rest s' hr _ ih =>
    rw [Reader.drain, if_neg hwant, request_reader, hr]
    exact ih

/-- The bytes that a source has to give: up to the point where it fails, if it is to fail. -/
def reach (s : Source) : List UInt8 :=
  match s.failure with
  | none => s.bytes
  | some (n, _) => s.bytes.take n

/-- A source reaches as far as its bytes or its failure. -/
theorem length_reach (s : Source) :
    s.reach.length = min s.bytes.length ((s.failure.map Prod.fst).getD s.bytes.length) := by
  cases h : s.failure with
  | none => simp [reach, h]
  | some f => simp [reach, h, Nat.min_comm]

/-- The failure of a source, if it strikes before the end of its bytes. -/
def breakdown (s : Source) : Option HostFault :=
  match s.failure with
  | none => none
  | some (n, fault) => if n ≤ s.bytes.length then some fault else none

/-- The source after handing out its next `k` bytes. -/
def handOut (s : Source) (k : Nat) : Source :=
  { s with
    bytes := s.bytes.drop k
    failure := s.failure.map fun f => (f.1 - (s.bytes.take k).length, f.2) }

/-- A request is interrupted, or meets the failure, or is answered with the next bytes. -/
theorem request_cases (s : Source) (want : Nat) :
    (∃ n, s.interruptions = n + 1 ∧
      s.request want = (.interrupted, { s with interruptions := n })) ∨
    (∃ fault, s.failure = some (0, fault) ∧ s.request want = (.failed fault, s)) ∨
    ((∀ fault, s.failure ≠ some (0, fault)) ∧
      s.request want = (.bytes (s.bytes.take (s.share want)), s.handOut (s.share want))) := by
  unfold request
  split
  · next n hn => exact Or.inl ⟨n, hn, rfl⟩
  · next fault _ hfailure => exact Or.inr (Or.inl ⟨fault, hfailure, rfl⟩)
  · next hfailure => exact Or.inr (Or.inr ⟨hfailure, rfl⟩)

/-- A source keeps the bytes that it has not handed out. -/
theorem given_append_bytes_request (s : Source) (want : Nat) :
    (s.request want).1.given ++ (s.request want).2.bytes = s.bytes := by
  rcases s.request_cases want with ⟨n, -, hr⟩ | ⟨fault, -, hr⟩ | ⟨-, hr⟩
  · rw [hr]
    rfl
  · rw [hr]
    rfl
  · rw [hr]
    exact List.take_append_drop (s.share want) s.bytes

/-- Nothing is handed out past the point of failure. -/
theorem share_le_of_failure {s : Source} {n : Nat} {fault : HostFault}
    (h : s.failure = some (n, fault)) (want : Nat) : s.share want ≤ n := by
  simp only [share, h, Option.map_some, Option.getD_some]
  omega

/-- A request for some bytes gets some, unless the pieces are empty or the failure is due. -/
theorem share_pos {s : Source} (hpiece : s.piece ≠ some 0)
    (hfailure : ∀ fault, s.failure ≠ some (0, fault)) {want : Nat} (hwant : 0 < want) :
    0 < s.share want := by
  have hp : 0 < s.piece.getD want := by
    cases h : s.piece with
    | none => exact hwant
    | some k => exact Nat.pos_of_ne_zero fun hk => hpiece (hk ▸ h)
  have hf : 0 < (s.failure.map Prod.fst).getD want := by
    cases h : s.failure with
    | none => exact hwant
    | some f => exact Nat.pos_of_ne_zero fun hn => hfailure f.2 (hn ▸ h)
  unfold share
  omega

/-- Handing out bytes takes them off what there is to give, and leaves the failure due at the same
place. -/
theorem reach_handOut (s : Source) (k : Nat) :
    (s.handOut k).reach = s.reach.drop (s.bytes.take k).length := by
  have hdrop : s.bytes.drop k = s.bytes.drop (s.bytes.take k).length := by
    rw [List.length_take, List.drop_eq_drop_min]
  cases h : s.failure with
  | none => simp only [reach, handOut, h, Option.map_none, hdrop]
  | some f =>
    simp only [reach, handOut, h, Option.map_some, hdrop, List.drop_take]

/-- What is handed out before the failure leaves the failure in place. -/
theorem breakdown_handOut {s : Source} {k : Nat}
    (hk : ∀ n fault, s.failure = some (n, fault) → k ≤ n) :
    (s.handOut k).breakdown = s.breakdown := by
  cases h : s.failure with
  | none => simp only [breakdown, handOut, h, Option.map_none]
  | some f =>
    have hle := hk f.1 f.2 h
    have hsame : f.1 - (s.bytes.take k).length ≤ (s.bytes.drop k).length ↔
        f.1 ≤ s.bytes.length := by
      rw [List.length_take, List.length_drop]
      omega
    simp only [breakdown, handOut, h, Option.map_some, hsame]

/-- A source that hands out something has less left. -/
theorem length_handOut_lt {s : Source} {k : Nat} (hk : 0 < k) (h : s.bytes ≠ []) :
    (s.handOut k).bytes.length < s.bytes.length := by
  have hpos := List.length_pos_iff.mpr h
  rw [handOut, List.length_drop]
  omega

/-- What a request hands out is the beginning of what the source has to give. -/
theorem take_prefix_reach {s : Source} {k : Nat}
    (hk : ∀ n fault, s.failure = some (n, fault) → k ≤ n) : s.bytes.take k <+: s.reach := by
  cases h : s.failure with
  | none =>
    simp only [reach, h]
    exact List.take_prefix k s.bytes
  | some f =>
    simp only [reach, h]
    exact List.take_prefix_take_left (hk f.1 f.2 h)

/-- A source that has nothing left and is not to fail now has come to its end. -/
theorem ends_of_bytes_eq_nil {s : Source} (hbytes : s.bytes = [])
    (hfailure : ∀ fault, s.failure ≠ some (0, fault)) : s.reach = [] ∧ s.breakdown = none := by
  cases h : s.failure with
  | none =>
    simp only [reach, breakdown, h]
    exact ⟨hbytes, trivial⟩
  | some f =>
    have hlater : ¬ f.1 ≤ 0 := fun hn => hfailure f.2 (Nat.le_zero.mp hn ▸ h)
    simp only [reach, breakdown, h, hbytes, List.take_nil, List.length_nil, if_neg hlater]
    exact ⟨trivial, trivial⟩

/-- A source with pieces of any size but zero delivers what it has to give. -/
theorem delivers {s : Source} (hpiece : s.piece ≠ some 0) :
    reader.Delivers s.breakdown s s.reach := by
  -- A request that goes on takes a byte or an interruption off the source.
  induction hsize : s.bytes.length + s.interruptions using Nat.strongRecOn generalizing s with
  | ind size ih =>
    subst hsize
    constructor
    · intro want hwant
      rcases s.request_cases want with ⟨n, -, hr⟩ | ⟨fault, hfailure, hr⟩ | ⟨hfailure, hr⟩
      · rw [request_reader, hr]
        trivial
      · rw [request_reader, hr]
        simp [Reply.Fits, reach, breakdown, hfailure]
      · rw [request_reader, hr]
        have hshare : s.share want ≤ want := Nat.min_le_left ..
        refine Reply.fits_bytes ?_ (take_prefix_reach fun n fault h => share_le_of_failure h want) ?_
        · exact Nat.le_trans (List.length_take_le ..) hshare
        · intro hnil
          rcases List.take_eq_nil_iff.mp hnil with hzero | hbytes
          · have hpos := share_pos hpiece hfailure hwant
            omega
          · exact ends_of_bytes_eq_nil hbytes hfailure
    · intro want hwant hmore
      rcases s.request_cases want with ⟨n, hn, hr⟩ | ⟨fault, -, hr⟩ | ⟨hfailure, hr⟩
      · rw [request_reader, hr]
        exact ih (s.bytes.length + n) (by omega) (s := { s with interruptions := n }) hpiece rfl
      · rw [request_reader, hr] at hmore
        cases hmore
      · rw [request_reader, hr] at hmore ⊢
        have hbytes : s.bytes ≠ [] := by
          intro hnil
          exact hmore (by rw [hnil, List.take_nil])
        have hless := length_handOut_lt (share_pos hpiece hfailure hwant) hbytes
        have hsame := breakdown_handOut fun n fault h => share_le_of_failure (s := s) h want
        have hrest := ih _ (Nat.add_lt_add_right hless s.interruptions)
          (s := s.handOut (s.share want)) hpiece rfl
        rw [hsame, reach_handOut] at hrest
        exact hrest

end Source

end ChipVM
