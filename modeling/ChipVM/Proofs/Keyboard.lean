import ChipVM.Keyboard

/-!
# A keyboard key by key

What a keyboard knows of one key is whether it is held and when its latest event came, if that has
not run out. An event changes what is known of its own key, the passing of time what is known of
keys whose time has run out, and neither touches another key. A pump notes the events up to the
first that asks to quit, and lets time run out if there is none.
-/

namespace ChipVM

/-- The event presses the key. One that asks to quit presses none, whatever its character. -/
def KeyEvent.presses (e : KeyEvent) (key : UInt8) : Bool := !e.asksToQuit && e.key? == some key

/-- Events stand for keys on the keypad only. -/
theorem KeyEvent.lt_of_key? {e : KeyEvent} {key : UInt8} (h : e.key? = some key) :
    key.toNat < 16 := by
  have hlayout : ∀ p ∈ layout, p.2.toNat < 16 := by decide
  cases e with
  | char c control =>
    obtain ⟨before, after, hsplit, -⟩ := List.lookup_eq_some_iff.mp h
    exact hlayout (c.toLower, key) (hsplit ▸ List.mem_append_right _ List.mem_cons_self)
  | escape | other => cases h

/-- What is known of one key. -/
structure KeyState where
  held : Bool
  /-- When its latest event came, if that has not run out. -/
  since : Option Nanos
  deriving DecidableEq, Repr

/-- The hold time has passed since an event exactly if the time at which it ends is over. -/
theorem Keyboard.holdTime_le_sub_iff {since now : Nanos} :
    holdTime ≤ now - since ↔ since + holdTime ≤ now := by
  have hpos : 0 < holdTime := by decide
  lia

/-- The time since a press is shorter than the hold exactly until the hold is over. -/
theorem Keyboard.sub_lt_holdTime_iff {since now : Nanos} :
    now - since < holdTime ↔ now < since + holdTime := by
  rw [← Nat.not_le, ← Nat.not_le, holdTime_le_sub_iff]

namespace KeyState

/-- A key whose event comes at `now`. -/
def pressed (now : Nanos) : KeyState := ⟨true, some now⟩

/-- The key at `now`: let go if its latest event is too long ago. -/
def expire (s : KeyState) (now : Nanos) : KeyState :=
  match s.since with
  | some since => if Keyboard.holdTime ≤ now - since then ⟨false, none⟩ else s
  | none => s

/-- A key whose hold is over is let go. -/
theorem expire_of_le {s : KeyState} {since now : Nanos} (h : s.since = some since)
    (hold : since + Keyboard.holdTime ≤ now) : s.expire now = ⟨false, none⟩ := by
  simp only [expire, h]
  exact if_pos (Keyboard.holdTime_le_sub_iff.mpr hold)

/-- A key whose hold is not over stays as it is. -/
theorem expire_of_lt {s : KeyState} {now : Nanos}
    (h : ∀ since, s.since = some since → now < since + Keyboard.holdTime) : s.expire now = s := by
  cases hs : s.since with
  | none => simp only [expire, hs]
  | some since =>
    simp only [expire, hs]
    exact if_neg (Nat.not_le.mpr (Keyboard.sub_lt_holdTime_iff.mpr (h since hs)))

/-- What has not run out at `now` has begun later than the hold time before. -/
theorem lt_of_since_expire {s : KeyState} {now since : Nanos}
    (h : (s.expire now).since = some since) :
    s.since = some since ∧ now < since + Keyboard.holdTime := by
  cases hs : s.since with
  | none =>
    rw [expire_of_lt (by simp [hs]), hs] at h
    cases h
  | some before =>
    rcases Nat.lt_or_ge now (before + Keyboard.holdTime) with hold | hold
    · rw [expire_of_lt (by simpa [hs] using hold), hs] at h
      cases h
      exact ⟨rfl, hold⟩
    · rw [expire_of_le hs hold] at h
      cases h

theorem expire_pressed (now : Nanos) : (pressed now).expire now = pressed now := by
  refine expire_of_lt fun since h => ?_
  cases h
  exact Nat.lt_add_of_pos_right (by decide)

/-- What has not run out does not run out at the same time. -/
theorem expire_expire (s : KeyState) (now : Nanos) : (s.expire now).expire now = s.expire now :=
  expire_of_lt fun _ h => (lt_of_since_expire h).2

end KeyState

namespace Keyboard

/-- What the keyboard knows of a key. -/
def state (b : Keyboard) (key : UInt8) : KeyState := ⟨b.keys.isHeld key, b.lastSeen key⟩

/-- Take note of events, one after another. -/
def noteAll (b : Keyboard) (now : Nanos) (events : List KeyEvent) : Keyboard :=
  events.foldl (fun b e => b.note now e) b

theorem lastSeen_of_le (b : Keyboard) {key : UInt8} (h : 16 ≤ key.toNat) :
    b.lastSeen key = none := by
  rw [lastSeen, Vector.getElem?_eq_none h]
  rfl

/-- Keyboards that know the same of every key are the same. -/
theorem ext_state {b b' : Keyboard} (h : ∀ key, b.state key = b'.state key) : b = b' := by
  obtain ⟨keys, seen⟩ := b
  obtain ⟨keys', seen'⟩ := b'
  have hkeys : keys = keys' := Keypad.ext_isHeld fun key => congrArg KeyState.held (h key)
  have hseen : seen = seen' := Vector.ext fun i hi => by
    have hi' : (UInt8.ofNat i).toNat = i := by
      rw [UInt8.toNat_ofNat']
      omega
    have hkey := congrArg KeyState.since (h (UInt8.ofNat i))
    simpa only [state, lastSeen, hi', Vector.getElem?_eq_getElem hi, Option.join_some] using hkey
  rw [hkeys, hseen]

/-- To put a key into a state changes that key and no other. -/
theorem state_put (b : Keyboard) (key : UInt8) (down : Bool) (at? : Option Nanos) (k : UInt8) :
    (b.put key down at?).state k =
      if key = k ∧ key.toNat < 16 then ⟨down, at?⟩ else b.state k := by
  simp only [state, put, lastSeen, Keypad.isHeld_set]
  by_cases h : key = k ∧ key.toNat < 16
  · obtain ⟨rfl, hlt⟩ := h
    simp [hlt]
  · have hother : (b.seen.setIfInBounds key.toNat at?)[k.toNat]? = b.seen[k.toNat]? := by
      by_cases heq : key.toNat = k.toNat
      · have hout : 16 ≤ key.toNat := Nat.le_of_not_lt fun hlt => h ⟨UInt8.toNat_inj.mp heq, hlt⟩
        rw [Vector.getElem?_eq_none (by omega), Vector.getElem?_eq_none (by omega)]
      · rw [Vector.getElem?_setIfInBounds_ne heq]
    rw [if_neg h, if_neg h, hother]

/-- An event that does not ask to quit changes the key that it presses. -/
theorem state_note (b : Keyboard) (now : Nanos) {e : KeyEvent} (he : e.asksToQuit = false)
    (key : UInt8) :
    (b.note now e).state key = if e.presses key then .pressed now else b.state key := by
  rw [note, KeyEvent.presses, he]
  cases hk : e.key? with
  | none => rfl
  | some k =>
    have hlt := KeyEvent.lt_of_key? hk
    by_cases h : k = key
    · subst h
      simp [state_put, hlt, KeyState.pressed]
    · simp [state_put, h]

/-- Events that do not ask to quit press their keys and leave all others alone. -/
theorem state_noteAll (b : Keyboard) (now : Nanos) {events : List KeyEvent}
    (h : ∀ e ∈ events, e.asksToQuit = false) (key : UInt8) :
    (b.noteAll now events).state key =
      if events.any (·.presses key) then .pressed now else b.state key := by
  induction events generalizing b with
  | nil => rfl
  | cons e rest ih =>
    have he := h e List.mem_cons_self
    have hrest := ih (b.note now e) fun e' he' => h e' (List.mem_cons_of_mem e he')
    rw [noteAll, List.foldl_cons, ← noteAll, hrest, state_note b now he, List.any_cons]
    cases e.presses key <;> cases rest.any (·.presses key) <;> rfl

/-- A key seen long enough ago is let go. -/
theorem expireKey_of_le {b : Keyboard} {key : UInt8} {since now : Nanos}
    (h : b.lastSeen key = some since) (hold : since + holdTime ≤ now) :
    expireKey now b key = b.put key false none := by
  simp only [expireKey, h]
  exact if_pos (holdTime_le_sub_iff.mpr hold)

/-- A key not seen so long ago stays as it is. -/
theorem expireKey_of_lt {b : Keyboard} {key : UInt8} {now : Nanos}
    (h : ∀ since, b.lastSeen key = some since → now < since + holdTime) :
    expireKey now b key = b := by
  cases hs : b.lastSeen key with
  | none => simp only [expireKey, hs]
  | some since =>
    simp only [expireKey, hs]
    exact if_neg (Nat.not_le.mpr (sub_lt_holdTime_iff.mpr (h since hs)))

/-- To let one key expire changes no other. -/
theorem state_expireKey (b : Keyboard) (now : Nanos) (key k : UInt8) :
    (expireKey now b key).state k = if key = k then (b.state k).expire now else b.state k := by
  by_cases hold : ∃ since, b.lastSeen key = some since ∧ since + holdTime ≤ now
  · obtain ⟨since, hs, hold⟩ := hold
    have hlt : key.toNat < 16 := Nat.lt_of_not_le fun hle => by
      rw [b.lastSeen_of_le hle] at hs
      cases hs
    rw [expireKey_of_le hs hold, state_put]
    by_cases h : key = k
    · subst h
      rw [if_pos ⟨rfl, hlt⟩, if_pos rfl, KeyState.expire_of_le hs hold]
    · rw [if_neg fun hk => h hk.1, if_neg h]
  · have hkeep : ∀ since, b.lastSeen key = some since → now < since + holdTime :=
      fun since hs => Nat.lt_of_not_le fun hle => hold ⟨since, hs, hle⟩
    rw [expireKey_of_lt hkeep]
    by_cases h : key = k
    · subst h
      rw [if_pos rfl, KeyState.expire_of_lt hkeep]
    · rw [if_neg h]

/-- Of a list of keys each expires by itself. -/
theorem state_foldl_expireKey (b : Keyboard) (now : Nanos) (keys : List UInt8) (key : UInt8) :
    (keys.foldl (expireKey now) b).state key =
      if key ∈ keys then (b.state key).expire now else b.state key := by
  induction keys generalizing b with
  | nil => rfl
  | cons k rest ih =>
    rw [List.foldl_cons, ih, state_expireKey]
    by_cases hk : k = key
    · subst hk
      simp [KeyState.expire_expire]
    · simp [hk, Ne.symm hk]

/-- Letting time run out does so for each key. -/
theorem state_expire (b : Keyboard) (now : Nanos) (key : UInt8) :
    (b.expire now).state key = (b.state key).expire now := by
  rw [expire, state_foldl_expireKey]
  split
  · rfl
  · next hout =>
    have hle : 16 ≤ key.toNat := Nat.le_of_not_lt fun hlt => hout (Keypad.mem_allKeys_iff.mpr hlt)
    refine (KeyState.expire_of_lt fun since hs => ?_).symm
    rw [state, b.lastSeen_of_le hle] at hs
    cases hs

/-- Between events that come at the same time no time runs out. -/
theorem noteAll_expire_noteAll (b : Keyboard) (now : Nanos) {first second : List KeyEvent}
    (hfirst : ∀ e ∈ first, e.asksToQuit = false) (hsecond : ∀ e ∈ second, e.asksToQuit = false) :
    (((b.noteAll now first).expire now).noteAll now second).expire now =
      (b.noteAll now (first ++ second)).expire now := by
  have hboth : ∀ e ∈ first ++ second, e.asksToQuit = false :=
    fun e he => (List.mem_append.mp he).elim (hfirst e) (hsecond e)
  refine ext_state fun key => ?_
  simp only [state_expire, state_noteAll _ _ hfirst, state_noteAll _ _ hsecond,
    state_noteAll _ _ hboth, List.any_append]
  cases second.any (·.presses key) with
  | true =>
    rw [Bool.or_true]
    rfl
  | false =>
    rw [Bool.or_false]
    exact KeyState.expire_expire _ now

/-- A pump takes the whole queue, or the events up to the first that asks to quit. -/
theorem pump_cases (b : Keyboard) (now : Nanos) (queue : List KeyEvent) :
    ((∀ e ∈ queue, e.asksToQuit = false) ∧
      b.pump now queue = ⟨false, (b.noteAll now queue).expire now, []⟩) ∨
    ∃ ahead stop rest, queue = ahead ++ stop :: rest ∧
      (∀ e ∈ ahead, e.asksToQuit = false) ∧ stop.asksToQuit = true ∧
      b.pump now queue = ⟨true, b.noteAll now ahead, rest⟩ := by
  induction queue generalizing b with
  | nil => exact Or.inl ⟨nofun, rfl⟩
  | cons e tail ih =>
    cases he : e.asksToQuit with
    | true => exact Or.inr ⟨[], e, tail, rfl, nofun, he, by rw [pump, if_pos he]; rfl⟩
    | false =>
      have hpump : b.pump now (e :: tail) = (b.note now e).pump now tail := by
        rw [pump, if_neg (by simp [he])]
      rw [hpump]
      rcases ih (b.note now e) with ⟨hnone, hs⟩ | ⟨ahead, stop, rest, rfl, hnone, hstop, hs⟩
      · exact Or.inl ⟨List.forall_mem_cons.mpr ⟨he, hnone⟩, hs⟩
      · exact Or.inr ⟨e :: ahead, stop, rest, rfl, List.forall_mem_cons.mpr ⟨he, hnone⟩, hstop, hs⟩

end Keyboard

end ChipVM
