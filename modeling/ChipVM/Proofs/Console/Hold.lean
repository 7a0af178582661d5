import ChipVM.Proofs.Console.Rounds

/-!
# How long a key is held

What a keyboard keeps of a key is when its latest event came, unless a round has found that too long
ago since. From this the rounds of a history tell which keys are held after a round that does not
answer that the user quits: those that an event has pressed within the hold time. A round that does
answer so lets no key go. If the keypad is changed by others as well, a round still changes only what
its own events press and what has run out at it for the first time.
-/

namespace ChipVM

/-- The key is held as long as its latest event has not run out. -/
def KeyState.InStep (s : KeyState) : Prop := s.held = s.since.isSome

theorem KeyState.InStep.expire {s : KeyState} (h : s.InStep) (now : Nanos) :
    (s.expire now).InStep := by
  by_cases hold : ∃ since, s.since = some since ∧ since + Keyboard.holdTime ≤ now
  · obtain ⟨since, hs, hold⟩ := hold
    rw [expire_of_le hs hold]
    rfl
  · rw [expire_of_lt fun since hs => Nat.lt_of_not_le fun hle => hold ⟨since, hs, hle⟩]
    exact h

@[simp] theorem Keyboard.state_initial (key : UInt8) : initial.state key = ⟨false, none⟩ := by
  simp only [state, initial, Keypad.isHeld_released, lastSeen, Vector.getElem?_replicate]
  split <;> rfl

namespace Console

/-- A console with a new keyboard. -/
def fresh (queue : List KeyEvent) (now : Nanos) : Console := ⟨queue, Keyboard.initial, now⟩

namespace Round

variable {r : Round} {key : UInt8}

/-- A round that presses the key leaves it seen at that time. -/
theorem change_of_presses (h : r.presses key = true) (s : KeyState) :
    r.change key s = .pressed r.time := by
  rw [change, h]
  cases r.quit with
  | true => rfl
  | false => exact KeyState.expire_pressed r.time

/-- A round without the key only lets it expire, unless it quits. -/
theorem change_of_not_presses (h : r.presses key = false) (s : KeyState) :
    r.change key s = if r.quit then s else s.expire r.time := by
  rw [change, h]
  rfl

/-- A round without an answer to quit leaves no event that has run out. -/
theorem lt_of_since_change (h : r.quit = false) {s : KeyState} {since : Nanos}
    (hs : (r.change key s).since = some since) : r.time < since + Keyboard.holdTime := by
  rw [change, h] at hs
  exact (KeyState.lt_of_since_expire hs).2

/-- What a round leaves of a key is from its own events or has been there before. -/
theorem since_change_cases {s : KeyState} {since : Nanos}
    (hs : (r.change key s).since = some since) :
    (r.presses key = true ∧ since = r.time) ∨ (r.presses key = false ∧ s.since = some since) := by
  cases h : r.presses key with
  | true =>
    rw [change_of_presses h] at hs
    exact Or.inl ⟨rfl, (Option.some.inj hs).symm⟩
  | false =>
    rw [change_of_not_presses h] at hs
    split at hs
    · exact Or.inr ⟨rfl, hs⟩
    · exact Or.inr ⟨rfl, (KeyState.lt_of_since_expire hs).1⟩

/-- What has not run out at a round is still there afterwards, if no newer event takes its place. -/
theorem since_change_of_lt {s : KeyState} {since : Nanos} (hs : s.since = some since)
    (hle : since ≤ r.time) (hold : r.time < since + Keyboard.holdTime) :
    ∃ later, (r.change key s).since = some later ∧ since ≤ later := by
  cases h : r.presses key with
  | true => exact ⟨r.time, by rw [change_of_presses h]; rfl, hle⟩
  | false =>
    refine ⟨since, ?_, Nat.le_refl since⟩
    rw [change_of_not_presses h]
    split
    · exact hs
    · rw [KeyState.expire_of_lt fun since' hs' => ?_, hs]
      rw [hs] at hs'
      cases hs'
      exact hold

/-- A round keeps a key in step. -/
theorem inStep_change {s : KeyState} (h : s.InStep) : (r.change key s).InStep := by
  cases hp : r.presses key with
  | true =>
    rw [change_of_presses hp]
    rfl
  | false =>
    rw [change_of_not_presses hp]
    split
    · exact h
    · exact h.expire r.time

end Round

/-- The last of the rounds that presses the key began at `since`, and of the rounds after it none
has let time run out for it. -/
def PressedSince (past : List Round) (key : UInt8) (since : Nanos) : Prop :=
  ∃ earlier r later, past = earlier ++ r :: later ∧ r.time = since ∧ r.presses key = true ∧
    ∀ r' ∈ later, r'.presses key = false ∧
      (r'.quit = false → r'.time < since + Keyboard.holdTime)

/-- A key that the latest round presses is pressed since then. -/
theorem pressedSince_of_presses {r : Round} {key : UInt8} (h : r.presses key = true)
    (past : List Round) : PressedSince (past ++ [r]) key r.time :=
  ⟨past, r, [], rfl, rfl, h, nofun⟩

/-- A key stays pressed over a round that comes before its time is up. -/
theorem PressedSince.snoc {past : List Round} {key : UInt8} {since : Nanos}
    (h : PressedSince past key since) {r : Round} (hr : r.presses key = false)
    (hold : r.quit = false → r.time < since + Keyboard.holdTime) :
    PressedSince (past ++ [r]) key since := by
  obtain ⟨earlier, p, later, rfl, htime, hp, hlater⟩ := h
  refine ⟨earlier, p, later ++ [r], by simp, htime, hp, fun r' hr' => ?_⟩
  rcases List.mem_append.mp hr' with hmem | hmem
  · exact hlater r' hmem
  · rw [List.mem_singleton.mp hmem]
    exact ⟨hr, hold⟩

theorem PressedSince.exists_mem {past : List Round} {key : UInt8} {since : Nanos}
    (h : PressedSince past key since) : ∃ r ∈ past, r.time = since ∧ r.presses key = true := by
  obtain ⟨earlier, r, later, rfl, htime, hr, -⟩ := h
  exact ⟨r, List.mem_append_right _ List.mem_cons_self, htime, hr⟩

/-- The console knows of the key what the rounds so far tell of it. -/
structure Follows (c : Console) (past : List Round) (key : UInt8) : Prop where
  time_le : ∀ r ∈ past, r.time ≤ c.now
  /-- What is known is the latest event, and it has not run out at any round. -/
  latest : ∀ since, (c.board.state key).since = some since → PressedSince past key since
  /-- An event within the hold time is known, or a later one. -/
  recent : ∀ r ∈ past, r.presses key = true → c.now < r.time + Keyboard.holdTime →
    ∃ since, (c.board.state key).since = some since ∧ r.time ≤ since

variable {c : Console} {past : List Round} {key : UInt8}

/-- A new console follows an empty past. -/
theorem follows_fresh (queue : List KeyEvent) (now : Nanos) (key : UInt8) :
    (fresh queue now).Follows [] key where
  time_le := nofun
  latest since hs := by simp [fresh] at hs
  recent := nofun

/-- A pump is one more round to follow. -/
theorem Follows.pump (h : c.Follows past key) :
    (c.after .pump).Follows (past ++ [c.round]) key := by
  have hstate := c.state_after_pump key
  constructor
  · intro r hr
    rcases List.mem_append.mp hr with hmem | hmem
    · exact h.time_le r hmem
    · rw [List.mem_singleton.mp hmem]
      exact Nat.le_refl c.now
  · intro since hs
    rw [hstate] at hs
    rcases Round.since_change_cases hs with ⟨hp, rfl⟩ | ⟨hp, hbefore⟩
    · exact pressedSince_of_presses hp past
    · exact (h.latest since hbefore).snoc hp fun hq => Round.lt_of_since_change hq hs
  · intro r hr hp hold
    rw [hstate]
    rcases List.mem_append.mp hr with hmem | hmem
    · obtain ⟨since, hs, hle⟩ := h.recent r hmem hp hold
      obtain ⟨p, hpast, htime, -⟩ := (h.latest since hs).exists_mem
      have hnow : since ≤ c.round.time := htime ▸ h.time_le p hpast
      have hkeep : c.round.time < since + Keyboard.holdTime :=
        Nat.lt_of_lt_of_le hold (Nat.add_le_add_right hle _)
      obtain ⟨later, hlater, hle'⟩ : ∃ later,
          (c.round.change key (c.board.state key)).since = some later ∧ since ≤ later :=
        Round.since_change_of_lt hs hnow hkeep
      exact ⟨later, hlater, Nat.le_trans hle hle'⟩
    · rw [List.mem_singleton.mp hmem] at hp ⊢
      exact ⟨c.round.time, by rw [Round.change_of_presses hp]; rfl, Nat.le_refl _⟩

/-- Every event is followed, with a round more if it is a pump. -/
theorem Follows.after (h : c.Follows past key) (e : Event) :
    (c.after e).Follows (past ++ (c.round? e).toList) key := by
  have hsame : past ++ (none : Option Round).toList = past := List.append_nil past
  cases e with
  | pump => exact h.pump
  | typed keys => exact hsame.symm ▸ ⟨h.time_le, h.latest, h.recent⟩
  | key change => exact hsame.symm ▸ ⟨h.time_le, h.latest, h.recent⟩
  | wait time =>
    refine hsame.symm ▸ ⟨fun r hr => ?_, h.latest, fun r hr hp hold => h.recent r hr hp ?_⟩
    · exact Nat.le_trans (h.time_le r hr) (Nat.le_add_right c.now time)
    · exact Nat.lt_of_le_of_lt (Nat.le_add_right c.now time) hold

/-- What holds of single events holds of a whole history. -/
theorem Follows.run (h : c.Follows past key) (events : List Event) :
    (c.run events).Follows (past ++ c.rounds events) key := by
  induction events generalizing c past with
  | nil =>
    rw [rounds, List.append_nil]
    exact h
  | cons e es ih =>
    rw [rounds, ← List.append_assoc]
    exact ih (h.after e)

/-- Unless others change the keypad, a key is held as long as its latest event has not run out. -/
theorem inStep_run (h : (c.board.state key).InStep) {events : List Event}
    (hkeys : ∀ change, .key change ∉ events) : ((c.run events).board.state key).InStep := by
  induction events generalizing c with
  | nil => exact h
  | cons e es ih =>
    refine ih ?_ fun change hc => hkeys change (List.mem_cons_of_mem e hc)
    cases e with
    | pump =>
      rw [state_after_pump]
      exact Round.inStep_change h
    | typed | wait => exact h
    | key change => exact absurd List.mem_cons_self (hkeys change)

/-- If a round does not answer that the user quits, those keys are held that an event has pressed
within the hold time. -/
theorem isHeld_after_pump_iff (h : c.Follows past key) (hstep : (c.board.state key).InStep)
    (hquit : c.round.quit = false) :
    (c.after .pump).board.keys.isHeld key = true ↔
      ∃ r ∈ past ++ [c.round], r.presses key = true ∧ c.now - r.time < Keyboard.holdTime := by
  have hheld : (c.after .pump).board.keys.isHeld key = true ↔
      ∃ since, ((c.after .pump).board.state key).since = some since := by
    have hafter : ((c.after .pump).board.state key).InStep := by
      rw [state_after_pump]
      exact Round.inStep_change hstep
    rw [← Option.isSome_iff_exists, ← hafter]
    rfl
  rw [hheld]
  constructor
  · rintro ⟨since, hs⟩
    obtain ⟨r, hr, rfl, hp⟩ := (h.pump.latest since hs).exists_mem
    rw [state_after_pump] at hs
    exact ⟨r, hr, hp, Keyboard.sub_lt_holdTime_iff.mpr (Round.lt_of_since_change hquit hs)⟩
  · rintro ⟨r, hr, hp, hlt⟩
    obtain ⟨since, hs, -⟩ := h.pump.recent r hr hp (Keyboard.sub_lt_holdTime_iff.mp hlt)
    exact ⟨since, hs⟩

/-- If a round answers that the user quits, it has pressed keys and let none go. -/
theorem isHeld_after_quit_iff (hquit : c.round.quit = true) :
    ∃ ahead stop, c.round.taken = ahead ++ [stop] ∧
      (∀ e ∈ ahead, e.asksToQuit = false) ∧ stop.asksToQuit = true ∧
      ∀ key, (c.after .pump).board.keys.isHeld key = true ↔
        c.board.keys.isHeld key = true ∨ ∃ e ∈ ahead, e.presses key = true := by
  rcases c.round_cases with ⟨-, hr, -⟩ | ⟨ahead, stop, rest, -, hnone, hstop, hr, hp⟩
  · rw [hr] at hquit
    cases hquit
  · refine ⟨ahead, stop, by rw [hr], hnone, hstop, fun key => ?_⟩
    have hheld : (c.after .pump).board.keys.isHeld key =
        ((c.board.noteAll c.now ahead).state key).held := by
      rw [hp]
      rfl
    rw [hheld, c.board.state_noteAll c.now hnone key, ← List.any_eq_true]
    cases ahead.any (·.presses key) with
    | true => exact iff_of_true rfl (Or.inr rfl)
    | false => exact ⟨Or.inl, fun h => h.elim id nofun⟩

/-- A round changes a key by an event, or because its time has run out for the first time. -/
theorem presses_or_expires_of_ne (h : c.Follows past key)
    (hne : (c.after .pump).board.keys.isHeld key ≠ c.board.keys.isHeld key) :
    c.round.presses key = true ∨
      (c.round.quit = false ∧ ∃ since, PressedSince past key since ∧
        Keyboard.holdTime ≤ c.now - since) := by
  have hheld : (c.after .pump).board.keys.isHeld key =
      (c.round.change key (c.board.state key)).held := by
    rw [← state_after_pump]
    rfl
  rw [hheld] at hne
  cases hp : c.round.presses key with
  | true => exact Or.inl rfl
  | false =>
    rw [Round.change_of_not_presses hp] at hne
    cases hquit : c.round.quit with
    | true =>
      rw [hquit] at hne
      exact absurd rfl hne
    | false =>
      rw [hquit] at hne
      refine Or.inr ⟨rfl, Classical.byContradiction fun hnone => hne ?_⟩
      have hkeep : (c.board.state key).expire c.now = c.board.state key := by
        refine KeyState.expire_of_lt fun since hs => Nat.lt_of_not_le fun hle => hnone ?_
        exact ⟨since, h.latest since hs, Keyboard.holdTime_le_sub_iff.mpr hle⟩
      exact congrArg KeyState.held hkeep

/-- Let a history pass on a console with a new keyboard, and then a pump. If it does not answer that
the user quits, and if nobody else has changed the keypad, exactly those keys are held that an event
has pressed in a round which began less than the hold time ago. If it does answer so, those keys are
held that were held before or that an event ahead of the one that asks to quit presses. And whoever
else has changed the keypad, the pump changes a key only if one of its events presses it, or if it
does not answer that the user quits, the hold time has passed since the latest event for the key,
and at no earlier pump time had run out for that event. -/
theorem held_keys_follow_rounds (queue : List KeyEvent) (now : Nanos) (events : List Event) :
    let start := fresh queue now
    let c := start.run events
    let keys := (c.after .pump).board.keys
    (c.round.quit = false → (∀ change, .key change ∉ events) → ∀ key,
      (keys.isHeld key = true ↔ ∃ r ∈ start.rounds (events ++ [.pump]),
        r.presses key = true ∧ c.now - r.time < Keyboard.holdTime)) ∧
    (c.round.quit = true → ∃ ahead stop, c.round.taken = ahead ++ [stop] ∧
      (∀ e ∈ ahead, e.asksToQuit = false) ∧ stop.asksToQuit = true ∧
      ∀ key, keys.isHeld key = true ↔
        c.board.keys.isHeld key = true ∨ ∃ e ∈ ahead, e.presses key = true) ∧
    ∀ key, keys.isHeld key ≠ c.board.keys.isHeld key →
      c.round.presses key = true ∨
      (c.round.quit = false ∧ ∃ since, PressedSince (start.rounds events) key since ∧
        Keyboard.holdTime ≤ c.now - since) := by
  intro start c keys
  have hfollows : ∀ key, c.Follows (start.rounds events) key :=
    fun key => (follows_fresh queue now key).run events
  refine ⟨fun hquit hkeys key => ?_, isHeld_after_quit_iff, fun key =>
    presses_or_expires_of_ne (hfollows key)⟩
  have hstart : (start.board.state key).InStep := by
    rw [show start.board = Keyboard.initial from rfl, Keyboard.state_initial]
    rfl
  rw [rounds_append]
  exact isHeld_after_pump_iff (hfollows key) (inStep_run hstart hkeys) hquit

/-- Key 1 is typed, and a tenth of a second later key 4 and then control C. The next pump comes 60
milliseconds after that. -/
def typistHistory : List Event :=
  [.typed [.char '1' false], .pump, .wait 100000000,
    .typed [.char 'Q' false, .other, .char 'c' true], .pump, .wait 60000000]

/-- A key seen too long ago is let go and one seen lately is held, and a character that asks to quit
presses no key. -/
theorem keys_of_typist :
    let start := fresh [] 5
    let c := start.run typistHistory
    let keys := (c.after .pump).board.keys
    c.round.quit = false ∧ (∀ change, .key change ∉ typistHistory) ∧
    c.board.keys.isHeld 1 = true ∧ keys.isHeld 1 = false ∧ keys.isHeld 4 = true ∧
    keys.isHeld 0xB = false ∧
    ∃ since, PressedSince (start.rounds typistHistory) 1 since ∧
      Keyboard.holdTime ≤ c.now - since := by
  intro start c keys
  have hquit : c.round.quit = false := by decide +kernel
  have hkeys : ∀ change, .key change ∉ typistHistory := by
    intro change h
    simp [typistHistory] at h
  have hbefore : c.board.keys.isHeld 1 = true := by decide +kernel
  obtain ⟨hheld, -, hchanged⟩ := held_keys_follow_rounds [] 5 typistHistory
  have hone : keys.isHeld 1 = false := by
    rw [← Bool.not_eq_true, hheld hquit hkeys 1]
    decide +kernel
  have hfour : keys.isHeld 4 = true := by
    rw [hheld hquit hkeys 4]
    decide +kernel
  have hb : keys.isHeld 0xB = false := by
    rw [← Bool.not_eq_true, hheld hquit hkeys 0xB]
    decide +kernel
  have hne : keys.isHeld 1 ≠ c.board.keys.isHeld 1 := by
    rw [hone, hbefore]
    decide
  rcases hchanged 1 hne with hpressed | ⟨-, hexpired⟩
  · have hnot : c.round.presses 1 = false := by decide +kernel
    rw [hnot] at hpressed
    cases hpressed
  · exact ⟨hquit, hkeys, hbefore, hone, hfour, hb, hexpired⟩

end Console

end ChipVM
