import ChipVM.Program

/-!
# Reading a program piecewise

A source hands its bytes out in pieces of its own choosing, may ask for a request to be repeated,
and may fail at some point. A program is read by asking until the source is at its end, has failed,
or has given one byte more than fits, which is enough to know that the image is too large.
-/

namespace ChipVM

/-- Something that bytes are requested from. -/
structure Source where
  /-- The bytes not handed out yet. -/
  bytes : List UInt8
  /-- The most bytes that one request gets, if there is such a limit. -/
  piece : Option Nat := none
  /-- The failure that strikes after so many more bytes. -/
  failure : Option (Nat × HostFault) := none
  /-- How many requests are yet to be interrupted; an interrupted request can be repeated. -/
  interruptions : Nat := 0
  deriving Repr

namespace Source

/-- The answer to a request. -/
inductive Reply where
  /-- Some bytes; none at the end. -/
  | bytes (piece : List UInt8)
  | interrupted
  | failed (fault : HostFault)
  deriving Repr

/-- The most bytes that a request for `want` of them gets. -/
def share (s : Source) (want : Nat) : Nat :=
  min want (min (s.piece.getD want) ((s.failure.map Prod.fst).getD want))

/-- Ask for at most `want` bytes. -/
def request (s : Source) (want : Nat) : Reply × Source :=
  match s.interruptions, s.failure with
  | n + 1, _ => (.interrupted, { s with interruptions := n })
  | 0, some (0, fault) => (.failed fault, s)
  | 0, failure =>
    let given := s.bytes.take (s.share want)
    (.bytes given,
      { s with
        bytes := s.bytes.drop (s.share want)
        failure := failure.map fun f => (f.1 - given.length, f.2) })

/-- A request is never answered with more bytes than it asked for. -/
theorem length_le_of_request {s s' : Source} {want : Nat} {piece : List UInt8}
    (h : s.request want = (.bytes piece, s')) :
    piece.length ≤ want ∧ s'.interruptions = s.interruptions := by
  unfold request at h
  split at h
  · injection h with h1 _
    injection h1
  · injection h with h1 _
    injection h1
  · next h0 _ =>
    injection h with h1 h2
    injection h1 with h1
    subst h1 h2
    refine ⟨?_, rfl⟩
    simp only [List.length_take, share]
    omega

/-- Whoever repeats an interrupted request has one interruption less to expect. -/
theorem interruptions_of_request {s s' : Source} {want : Nat}
    (h : s.request want = (.interrupted, s')) : s'.interruptions < s.interruptions := by
  unfold request at h
  split at h
  · next n hn =>
    injection h with _ h2
    rw [← h2, hn]
    exact Nat.lt_succ_self n
  · injection h with h1 _
    injection h1
  · injection h with h1 _
    injection h1

/-- Ask until `want` bytes have come, or the end, or a failure. The answer holds the bytes after
those in `taken`, the failure if there was one, and what is left of the source. -/
def drain (s : Source) (want : Nat) (taken : List UInt8) : List UInt8 × Option HostFault × Source :=
  if want = 0 then (taken, none, s)
  else
    match h : s.request want with
    | (.failed fault, s') => (taken, some fault, s')
    | (.interrupted, s') =>
      have := interruptions_of_request h
      drain s' want taken
    | (.bytes [], s') => (taken, none, s')
    | (.bytes (b :: rest), s') =>
      have := length_le_of_request h
      drain s' (want - (b :: rest).length) (taken ++ b :: rest)
termination_by want + s.interruptions
decreasing_by
  · omega
  · simp only [List.length_cons] at *
    omega

end Source

namespace Program

/-- What reading a program comes to: the program or the reason why there is none, and how many bytes
were taken from the source. -/
structure Reading where
  outcome : Except LoadFault Program
  taken : Nat

/-- Read a program from a source. -/
def read (s : Source) : Reading :=
  match s.drain (capacity + 1) [] with
  | (taken, some fault, _) => ⟨.error (.unreadable fault), taken.length⟩
  | (taken, none, _) => ⟨ofBytes taken, taken.length⟩

end Program

end ChipVM
