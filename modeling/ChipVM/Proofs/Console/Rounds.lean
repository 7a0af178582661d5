import ChipVM.Console
import ChipVM.Proofs.Keyboard

/-!
# What the rounds of a console take

Every pump of a history is a round: it takes events off the queue, up to the first that asks to quit.
What the rounds have taken, one after another, and what is still in the queue is all that was ever
typed, in order. A round without an event that asks to quit can be split in two at any place, if
both take place at the same time.
-/

namespace ChipVM.Console

/-- The console after an event. -/
def after (c : Console) (e : Event) : Console := (c.apply e).1

/-- The console after a history. -/
def run (c : Console) (events : List Event) : Console := events.foldl after c

/-- A pump: when it began, what it answered, and the events that are gone from the queue. -/
structure Round where
  time : Nanos
  /-- The answer: an event asked to quit. -/
  quit : Bool
  taken : List KeyEvent
  deriving DecidableEq, Repr

/-- Some event of the round presses the key. -/
def Round.presses (r : Round) (key : UInt8) : Bool := r.taken.any (·.presses key)

/-- The round that a pump of the console is. -/
def round (c : Console) : Round :=
  let pumped := c.board.pump c.now c.queue
  ⟨c.now, pumped.quit, c.queue.take (c.queue.length - pumped.queue.length)⟩

/-- The round that an event is, if it is a pump. -/
def round? (c : Console) : Event → Option Round
  | .pump => some c.round
  | _ => none

/-- The rounds of a history, in order. -/
def rounds (c : Console) : List Event → List Round
  | [] => []
  | e :: es => (c.round? e).toList ++ (c.after e).rounds es

/-- What an event puts into the queue. -/
def Event.keysTyped : Event → List KeyEvent
  | .typed keys => keys
  | .pump | .wait _ | .key _ => []

theorem after_typed (c : Console) (keys : List KeyEvent) :
    c.after (.typed keys) = { c with queue := c.queue ++ keys } := rfl

@[simp] theorem run_nil (c : Console) : c.run [] = c := rfl

@[simp] theorem run_cons (c : Console) (e : Event) (es : List Event) :
    c.run (e :: es) = (c.after e).run es := rfl

theorem rounds_append (c : Console) (es fs : List Event) :
    c.rounds (es ++ fs) = c.rounds es ++ (c.run es).rounds fs := by
  induction es generalizing c with
  | nil => rfl
  | cons e es ih => rw [List.cons_append, rounds, rounds, ih, run_cons, List.append_assoc]

/-- A round takes the whole queue and lets time run out, or it takes the events up to the first that
asks to quit and notes those ahead of it. -/
theorem round_cases (c : Console) :
    ((∀ e ∈ c.queue, e.asksToQuit = false) ∧ c.round = ⟨c.now, false, c.queue⟩ ∧
      c.after .pump = ⟨[], (c.board.noteAll c.now c.queue).expire c.now, c.now⟩) ∨
    ∃ ahead stop rest, c.queue = ahead ++ stop :: rest ∧
      (∀ e ∈ ahead, e.asksToQuit = false) ∧ stop.asksToQuit = true ∧
      c.round = ⟨c.now, true, ahead ++ [stop]⟩ ∧
      c.after .pump = ⟨rest, c.board.noteAll c.now ahead, c.now⟩ := by
  rcases c.board.pump_cases c.now c.queue with ⟨hnone, hp⟩ | ⟨ahead, stop, rest, hq, hnone, hstop, hp⟩
  · refine Or.inl ⟨hnone, ?_, ?_⟩
    · simp only [round, hp, List.length_nil, Nat.sub_zero, List.take_length]
    · simp only [after, apply, hp]
  · refine Or.inr ⟨ahead, stop, rest, hq, hnone, hstop, ?_, ?_⟩
    · have htaken : c.queue.take (c.queue.length - rest.length) = ahead ++ [stop] := by
        have hsplit : c.queue = (ahead ++ [stop]) ++ rest := by simp [hq]
        rw [hsplit, List.length_append, Nat.add_sub_cancel, List.take_left]
      simp only [round, hp, htaken]
    · simp only [after, apply, hp]

/-- An event that asks to quit presses no key. -/
theorem any_presses_append_stop {ahead : List KeyEvent} {stop : KeyEvent}
    (h : stop.asksToQuit = true) (key : UInt8) :
    (ahead ++ [stop]).any (·.presses key) = ahead.any (·.presses key) := by
  simp [KeyEvent.presses, h]

/-- What a round makes of a key: it is pressed if an event of the round presses it, and let go if
its time has run out and the round does not answer that the user quits. -/
def Round.change (r : Round) (key : UInt8) (s : KeyState) : KeyState :=
  let noted := if r.presses key then .pressed r.time else s
  if r.quit then noted else noted.expire r.time

/-- A pump changes each key as its round says. -/
theorem state_after_pump (c : Console) (key : UInt8) :
    (c.after .pump).board.state key = c.round.change key (c.board.state key) := by
  rcases c.round_cases with ⟨hnone, hr, hp⟩ | ⟨ahead, stop, rest, -, hnone, hstop, hr, hp⟩
  · rw [hr, hp, Keyboard.state_expire, Keyboard.state_noteAll _ _ hnone]
    rfl
  · rw [hr, hp, Keyboard.state_noteAll _ _ hnone, ← any_presses_append_stop hstop]
    rfl

/-- What a round takes and what it leaves was in the queue; other events leave the queue as it is
but for what they put behind it. -/
theorem taken_append_queue_after (c : Console) (e : Event) :
    (c.round? e).toList.flatMap Round.taken ++ (c.after e).queue = c.queue ++ e.keysTyped := by
  cases e with
  | pump =>
    rcases c.round_cases with ⟨-, hr, hp⟩ | ⟨ahead, stop, rest, hq, -, -, hr, hp⟩
    · simp [round?, Event.keysTyped, hr, hp]
    · simp [round?, Event.keysTyped, hr, hp, hq]
  | typed keys => rfl
  | wait time => exact (List.append_nil _).symm
  | key change => exact (List.append_nil _).symm

/-- Nothing that was typed is lost, doubled or moved. -/
theorem taken_append_queue_run (c : Console) (events : List Event) :
    (c.rounds events).flatMap Round.taken ++ (c.run events).queue =
      c.queue ++ events.flatMap Event.keysTyped := by
  induction events generalizing c with
  | nil => exact (List.append_nil _).symm
  | cons e es ih =>
    rw [rounds, List.flatMap_append, run_cons, List.append_assoc, ih (c.after e),
      ← List.append_assoc, taken_append_queue_after, List.append_assoc, List.flatMap_cons]

/-- With nothing more typed, the rounds answer that the user quits as long as events that ask to
quit are left. -/
theorem quit_rounds (c : Console) {events : List Event} (h : ∀ keys, .typed keys ∉ events) :
    (c.rounds events).map Round.quit = (List.range (events.count .pump)).map fun n =>
      decide (n < c.queue.countP KeyEvent.asksToQuit) := by
  induction events generalizing c with
  | nil => rfl
  | cons e es ih =>
    have hrest := ih (c.after e) fun keys hk => h keys (List.mem_cons_of_mem e hk)
    cases e with
    | typed keys => exact absurd List.mem_cons_self (h keys)
    | wait time =>
      rw [rounds, List.count_cons_of_ne (by simp)]
      exact hrest
    | key change =>
      rw [rounds, List.count_cons_of_ne (by simp)]
      exact hrest
    | pump =>
      rw [rounds, List.map_append, hrest, List.count_cons_self, List.range_succ_eq_map,
        List.map_cons, List.map_map]
      rcases c.round_cases with ⟨hnone, hr, hp⟩ | ⟨ahead, stop, rest, hq, hnone, hstop, hr, hp⟩
      · have hzero : c.queue.countP KeyEvent.asksToQuit = 0 :=
          List.countP_eq_zero.mpr fun e he => by simp [hnone e he]
        simp [round?, hr, hp, hzero]
      · have hzero : ahead.countP KeyEvent.asksToQuit = 0 :=
          List.countP_eq_zero.mpr fun e he => by simp [hnone e he]
        have hcount : c.queue.countP KeyEvent.asksToQuit =
            rest.countP KeyEvent.asksToQuit + 1 := by
          rw [hq, List.countP_append, hzero, Nat.zero_add, List.countP_cons_of_pos hstop]
        simp [round?, hr, hp, hcount]

/-- A pump that nothing asks to quit takes the whole queue and then lets keys expire. -/
theorem after_pump_of_none {queue : List KeyEvent} (h : ∀ e ∈ queue, e.asksToQuit = false)
    (b : Keyboard) (now : Nanos) :
    after ⟨queue, b, now⟩ .pump = ⟨[], (b.noteAll now queue).expire now, now⟩ := by
  rcases round_cases ⟨queue, b, now⟩ with ⟨-, -, hp⟩ | ⟨ahead, stop, rest, hq, -, hstop, -, -⟩
  · exact hp
  · have hq' : queue = ahead ++ stop :: rest := hq
    have hmem : stop ∈ queue := hq' ▸ List.mem_append_right _ List.mem_cons_self
    rw [h stop hmem] at hstop
    cases hstop

/-- Two rounds at one time come to the same as one that takes the events of both. -/
theorem run_two_rounds (c : Console) {first second : List KeyEvent}
    (h : ∀ e ∈ c.queue ++ first ++ second, e.asksToQuit = false) :
    c.run [.typed first, .pump, .typed second, .pump] =
      c.run [.typed first, .typed second, .pump] := by
  obtain ⟨queue, b, now⟩ := c
  have hfirst : ∀ e ∈ queue ++ first, e.asksToQuit = false :=
    fun e he => h e (List.mem_append_left second he)
  have hsecond : ∀ e ∈ second, e.asksToQuit = false :=
    fun e he => h e (List.mem_append_right _ he)
  simp only [run_cons, run_nil, after_typed, List.nil_append, after_pump_of_none hfirst,
    after_pump_of_none hsecond, after_pump_of_none h, b.noteAll_expire_noteAll now hfirst hsecond]

/-- A pump takes exactly the events up to the first that asks to quit, and answers that it did; if
none does it takes the whole queue, and answers that. So what the rounds of a history have taken,
joined in order, and what is left in the queue is what was there and what was typed. With nothing
more typed the answers tell how many events of the queue ask to quit: so many rounds answer that the
user quits, and all later ones that not. And events of which none asks to quit may be taken by one
round or by two at the same time: the keyboard, its times included, comes to be the same. -/
theorem rounds_keep_the_order (c : Console) :
    ((c.round.quit = false ∧ (∀ e ∈ c.queue, e.asksToQuit = false) ∧ c.round.taken = c.queue ∧
        (c.after .pump).queue = []) ∨
      (c.round.quit = true ∧ ∃ ahead stop rest, c.queue = ahead ++ stop :: rest ∧
        (∀ e ∈ ahead, e.asksToQuit = false) ∧ stop.asksToQuit = true ∧
        c.round.taken = ahead ++ [stop] ∧ (c.after .pump).queue = rest)) ∧
    (∀ events, (c.rounds events).flatMap Round.taken ++ (c.run events).queue =
      c.queue ++ events.flatMap Event.keysTyped) ∧
    (∀ events, (∀ keys, .typed keys ∉ events) →
      (c.rounds events).map Round.quit = (List.range (events.count .pump)).map fun n =>
        decide (n < c.queue.countP KeyEvent.asksToQuit)) ∧
    ∀ first second, (∀ e ∈ c.queue ++ first ++ second, e.asksToQuit = false) →
      c.run [.typed first, .pump, .typed second, .pump] =
        c.run [.typed first, .typed second, .pump] := by
  refine ⟨?_, c.taken_append_queue_run, fun _ => c.quit_rounds, fun _ _ => c.run_two_rounds⟩
  rcases c.round_cases with ⟨hnone, hr, hp⟩ | ⟨ahead, stop, rest, hq, hnone, hstop, hr, hp⟩
  · rw [hr, hp]
    exact Or.inl ⟨rfl, hnone, rfl, rfl⟩
  · rw [hr, hp]
    exact Or.inr ⟨rfl, ahead, stop, rest, hq, hnone, hstop, rfl, rfl⟩

end ChipVM.Console
