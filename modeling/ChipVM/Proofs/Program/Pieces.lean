import ChipVM.Proofs.Program.Reader

/-!
# Reading a program to its end

No more is taken from a source than one byte past the limit. What is read follows from the bytes that
come, and from the failure if one strikes before that: the pieces in which the bytes come and the
interruptions between them make no difference.
-/

namespace ChipVM

namespace Source

/-- What reading a program leaves of a source. -/
def afterRead (s : Source) : Source := (s.drain (Program.capacity + 1) []).2.2

/-- No byte gets lost between what is taken and what is left. -/
theorem taken_append_bytes_drain (s : Source) (want : Nat) (taken : List UInt8) :
    (s.drain want taken).1 ++ (s.drain want taken).2.2.bytes = taken ++ s.bytes := by
  fun_induction Source.drain s want taken with
  | case1 s taken => rfl
  | case2 s want taken hwant fault s' hr =>
    have hkept := s.given_append_bytes_request want
    rw [hr] at hkept
    exact congrArg (taken ++ ·) hkept
  | case3 s want taken hwant s' hr _ ih =>
    have hkept := s.given_append_bytes_request want
    rw [hr] at hkept
    exact ih.trans (congrArg (taken ++ ·) hkept)
  | case4 s want taken hwant s' hr =>
    have hkept := s.given_append_bytes_request want
    rw [hr] at hkept
    exact congrArg (taken ++ ·) hkept
  | case5 s want taken hwant b rest s' hr _ ih =>
    have hkept := s.given_append_bytes_request want
    rw [hr] at hkept
    rw [ih, List.append_assoc]
    exact congrArg (taken ++ ·) hkept

variable {s : Source} (hfailure : ∀ n fault, s.failure = some (n, fault) → n ≤ s.bytes.length)
include hfailure

/-- A failure within the bytes of a source strikes when as many bytes have come as it says. -/
theorem length_reach_le_and_breakdown_iff {limit : Nat} {fault : HostFault} :
    s.reach.length ≤ limit ∧ s.breakdown = some fault ↔
      ∃ n ≤ limit, s.failure = some (n, fault) := by
  cases h : s.failure with
  | none => simp [breakdown, h]
  | some f =>
    have hn := hfailure f.1 f.2 h
    rw [reach, breakdown, h]
    simp only [List.length_take, Nat.min_eq_left hn, if_pos hn, Option.some.injEq]
    constructor
    · rintro ⟨hle, hfault⟩
      exact ⟨f.1, hle, Prod.ext rfl hfault⟩
    · rintro ⟨n, hle, rfl⟩
      exact ⟨hle, rfl⟩

/-- A failure past the limit does not come to light, since there are more bytes than the limit
before it. -/
theorem reach_of_late_failure {limit : Nat}
    (hlate : ¬ ∃ n ≤ limit, ∃ fault, s.failure = some (n, fault)) :
    (limit < s.reach.length ↔ limit < s.bytes.length) ∧
      (s.bytes.length ≤ limit → s.reach = s.bytes ∧ s.breakdown = none) := by
  cases h : s.failure with
  | none => simp [reach, breakdown, h]
  | some f =>
    have hn := hfailure f.1 f.2 h
    have hpast : ¬ f.1 ≤ limit := fun hle => hlate ⟨f.1, hle, f.2, h⟩
    refine ⟨?_, fun hle => absurd (Nat.le_trans hn hle) hpast⟩
    rw [reach, h, List.length_take]
    omega

end Source

namespace Program

/-- The reading that comes of some bytes and the failure after them, if there was one. -/
def Reading.of (taken : List UInt8) : Option HostFault → Reading
  | some fault => ⟨.error (.unreadable fault), taken.length⟩
  | none => ⟨ofBytes taken, taken.length⟩

/-- The reading of a reader that delivers these bytes and then fails, if it does. -/
def Reading.ofDelivery (data : List UInt8) (failure : Option HostFault) : Reading :=
  if capacity < data.length then ⟨.error (.tooLarge (capacity + 1) capacity), capacity + 1⟩
  else Reading.of data failure

/-- Read a program from a reader. -/
def readFrom {σ : Type} (r : Reader σ) (s : σ) : Reading :=
  let drained := r.drain s (capacity + 1) []
  Reading.of drained.1 drained.2.1

/-- Reading a program from a source is reading it from a reader. -/
theorem readFrom_reader (s : Source) : readFrom Source.reader s = read s := by
  rw [readFrom, Source.drain_reader, read]
  split
  · next taken fault s' h => rw [h, Reading.of]
  · next taken s' h => rw [h, Reading.of]

/-- What is read follows from what is delivered. -/
theorem readFrom_of_delivers {σ : Type} {r : Reader σ} {failure : Option HostFault} {s : σ}
    {data : List UInt8} (h : r.Delivers failure s data) :
    readFrom r s = Reading.ofDelivery data failure := by
  obtain ⟨s', hdrain⟩ := Reader.drain_of_delivers h (capacity + 1) []
  rw [readFrom, hdrain, Reading.ofDelivery, List.nil_append]
  by_cases hlong : capacity < data.length
  · have htaken : (data.take (capacity + 1)).length = capacity + 1 := List.length_take_of_le hlong
    have hlarge : ofBytes (data.take (capacity + 1)) =
        .error (.tooLarge (data.take (capacity + 1)).length capacity) := ofBytes_of_lt (by omega)
    rw [if_pos hlong, if_pos (Nat.succ_le_of_lt hlong), Reading.of, hlarge, htaken]
  · rw [if_neg hlong, if_neg (by omega), List.take_of_length_le (by omega)]

/-- A reading is known from how far the source reaches and how it breaks down. -/
theorem read_eq_ofDelivery {s : Source} (hpiece : s.piece ≠ some 0) :
    read s = Reading.ofDelivery s.reach s.breakdown := by
  rw [← readFrom_reader]
  exact readFrom_of_delivers (Source.delivers hpiece)

namespace Reading

variable {data : List UInt8} {failure : Option HostFault}

theorem taken_of (data : List UInt8) (failure : Option HostFault) :
    (Reading.of data failure).taken = data.length := by
  cases failure <;> rfl

/-- A byte past the limit is taken, and no more. -/
theorem taken_ofDelivery (data : List UInt8) (failure : Option HostFault) :
    (ofDelivery data failure).taken = min data.length (capacity + 1) := by
  rw [ofDelivery]
  split
  · next h => exact (Nat.min_eq_right h).symm
  · next h => rw [taken_of, Nat.min_eq_left (by omega)]

/-- A failure is reported exactly if it strikes before more bytes have come than fit. -/
theorem outcome_eq_unreadable_iff {fault : HostFault} :
    (ofDelivery data failure).outcome = .error (.unreadable fault) ↔
      data.length ≤ capacity ∧ failure = some fault := by
  rw [ofDelivery]
  split
  · next h => exact iff_of_false nofun fun hfits => Nat.not_lt.mpr hfits.1 h
  · next h =>
    have hfits : data.length ≤ capacity := Nat.not_lt.mp h
    cases failure with
    | none =>
      rw [Reading.of, ofBytes, dif_pos hfits]
      exact iff_of_false nofun nofun
    | some f => simp [Reading.of, hfits]

/-- More bytes than fit are reported exactly if more have come. -/
theorem outcome_eq_tooLarge_iff :
    (ofDelivery data failure).outcome = .error (.tooLarge (capacity + 1) capacity) ↔
      capacity < data.length := by
  rw [ofDelivery]
  split
  · next h => exact iff_of_true rfl h
  · next h =>
    refine iff_of_false ?_ h
    cases failure with
    | none =>
      rw [Reading.of, ofBytes, dif_pos (Nat.not_lt.mp h)]
      exact nofun
    | some f => exact nofun

/-- Bytes that fit and come without a failure are the program. -/
theorem outcome_of_fits (h : data.length ≤ capacity) :
    (ofDelivery data none).outcome = .ok ⟨data, h⟩ := by
  rw [ofDelivery, if_neg (Nat.not_lt.mpr h), Reading.of, ofBytes, dif_pos h]

end Reading

/-- What is left of a source are the bytes that were not taken. -/
theorem bytes_afterRead (s : Source) : s.afterRead.bytes = s.bytes.drop (read s).taken := by
  have hkept := s.taken_append_bytes_drain (capacity + 1) []
  have htaken : (read s).taken = (s.drain (capacity + 1) []).1.length := by
    rw [← readFrom_reader, readFrom, Source.drain_reader, Reading.taken_of]
  rw [htaken, ← List.nil_append s.bytes, ← hkept, List.drop_left]
  rfl

/-- Let a source hand out its bytes in pieces of any size but zero, after any number of
interruptions, and let it fail at most where its bytes end. Then just the bytes up to the failure
are taken from it, one more than fit if there are so many. The failure is reported exactly if it
strikes after at most as many bytes as fit. Otherwise more bytes than fit are reported, with one more
than fit for the size, exactly if there are more, and a program with just the bytes comes of them if
they fit. Other pieces and interruptions come to the same, and so does any reader that delivers these
bytes and fails alike. -/
theorem reading_of_pieces {s : Source} (hpiece : s.piece ≠ some 0)
    (hfailure : ∀ n fault, s.failure = some (n, fault) → n ≤ s.bytes.length) :
    let reading := read s
    reading.taken =
      min (min s.bytes.length ((s.failure.map Prod.fst).getD s.bytes.length)) 3585 ∧
    s.afterRead.bytes = s.bytes.drop reading.taken ∧
    (∀ fault, reading.outcome = .error (.unreadable fault) ↔
      ∃ n ≤ 3584, s.failure = some (n, fault)) ∧
    ((¬ ∃ n ≤ 3584, ∃ fault, s.failure = some (n, fault)) →
      (reading.outcome = .error (.tooLarge 3585 3584) ↔ 3584 < s.bytes.length) ∧
      (s.bytes.length ≤ 3584 → ∃ p, reading.outcome = .ok p ∧ p.bytes = s.bytes)) ∧
    (∀ piece interruptions, piece ≠ some 0 → read { s with piece, interruptions } = reading) ∧
    ∀ {σ : Type} (r : Reader σ) (t : σ), r.Delivers s.breakdown t s.reach →
      readFrom r t = reading := by
  intro reading
  have hread : reading = Reading.ofDelivery s.reach s.breakdown := read_eq_ofDelivery hpiece
  refine ⟨?_, bytes_afterRead s, fun fault => ?_, fun hlate => ⟨?_, fun hfits => ?_⟩,
    fun piece interruptions hp => ?_, fun r t hr => ?_⟩
  · rw [hread, Reading.taken_ofDelivery, s.length_reach, capacity]
  · rw [hread, ← s.length_reach_le_and_breakdown_iff hfailure]
    exact Reading.outcome_eq_unreadable_iff
  · rw [hread, ← (s.reach_of_late_failure hfailure hlate).1]
    exact Reading.outcome_eq_tooLarge_iff
  · obtain ⟨hreach, hbreakdown⟩ := (s.reach_of_late_failure hfailure hlate).2 hfits
    rw [hread, hreach, hbreakdown]
    exact ⟨_, Reading.outcome_of_fits hfits, rfl⟩
  · exact (read_eq_ofDelivery hp).trans hread.symm
  · exact (readFrom_of_delivers hr).trans hread.symm

/-- More bytes than fit, in pieces of a hundred after an interruption, and a failure after so many. -/
def failingAfter (count : Nat) : Source where
  bytes := List.replicate 3600 7
  piece := some 100
  failure := some (count, ⟨.timedOut, "source failed"⟩)
  interruptions := 1

/-- A source that fails at the limit is reported, and one that fails a byte later is found too large
instead. -/
theorem failingAfter_reported_up_to_limit :
    (failingAfter 3584).piece ≠ some 0 ∧ (failingAfter 3585).piece ≠ some 0 ∧
    (¬ ∃ n ≤ 3584, ∃ fault, (failingAfter 3585).failure = some (n, fault)) ∧
    (read (failingAfter 3584)).taken = 3584 ∧
    (read (failingAfter 3584)).outcome = .error (.unreadable ⟨.timedOut, "source failed"⟩) ∧
    (read (failingAfter 3585)).taken = 3585 ∧
    (read (failingAfter 3585)).outcome = .error (.tooLarge 3585 3584) ∧
    readFrom Source.reader (failingAfter 3585) = read (failingAfter 3585) := by
  have hpiece : ∀ count, (failingAfter count).piece ≠ some 0 := fun _ => nofun
  have hlength : ∀ count, (failingAfter count).bytes.length = 3600 := fun _ =>
    List.length_replicate
  have hcount : ∀ {count n fault}, (failingAfter count).failure = some (n, fault) → n = count :=
    fun h => (congrArg Prod.fst (Option.some.inj h)).symm
  have hwithin : ∀ count ≤ 3600, ∀ n fault, (failingAfter count).failure = some (n, fault) →
      n ≤ (failingAfter count).bytes.length := by
    intro count hle n fault h
    have hn := hcount h
    have hl := hlength count
    omega
  have hlate : ¬ ∃ n ≤ 3584, ∃ fault, (failingAfter 3585).failure = some (n, fault) := by
    rintro ⟨n, hle, fault, h⟩
    have hn := hcount h
    omega
  obtain ⟨htaken, -, hunreadable, -⟩ := reading_of_pieces (hpiece 3584) (hwithin 3584 (by decide))
  obtain ⟨htaken', -, -, hrest, -, hreader⟩ :=
    reading_of_pieces (hpiece 3585) (hwithin 3585 (by decide))
  refine ⟨hpiece _, hpiece _, hlate, ?_, (hunreadable _).mpr ⟨3584, Nat.le_refl _, rfl⟩, ?_,
    (hrest hlate).1.mpr ?_, hreader _ _ (Source.delivers (hpiece _))⟩
  · rw [htaken, hlength]
    rfl
  · rw [htaken', hlength]
    rfl
  · rw [hlength]
    decide

end Program

end ChipVM
