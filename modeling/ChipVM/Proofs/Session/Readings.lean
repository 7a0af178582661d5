import ChipVM.Proofs.Countdown
import ChipVM.Proofs.Machine.Footprint
import ChipVM.Proofs.Session.Trace

/-!
# Countdowns along a history

A countdown is as the last instruction left it that set it, or as it was at the start if none did.
So what it reads follows from the count it was last set to and the time that has passed since,
whatever else happened meanwhile, and the two countdowns know nothing of each other.
-/

namespace ChipVM.Session

/-- A count that a countdown was set to, and when. -/
structure Setting where
  time : Nanos
  count : UInt8
  deriving DecidableEq, Repr

/-- What an instruction sets a countdown to, if it sets that one. -/
def setting? (d : Dial) (r : Session × Instruction Reg) : Option Setting :=
  (r.2.sets? d).map fun x => ⟨r.1.now, r.1.machine.regs.get x⟩

/-- What a history sets a countdown to, in order. -/
def settings (s : Session) (d : Dial) (events : List Event) : List Setting :=
  (s.performed events).filterMap (setting? d)

/-- What an event sets a countdown to, if it sets that one. -/
def restarts? (s : Session) (d : Dial) (e : Event) : Option Setting :=
  (s.performs? e).bind fun i => setting? d (s, i)

/-- The countdown that a setting starts. -/
def Setting.countdown (a : Setting) : Countdown := Countdown.armUnits a.time a.count

theorem settings_cons (s : Session) (d : Dial) (e : Event) (es : List Event) :
    s.settings d (e :: es) = (s.restarts? d e).toList ++ (s.apply e).settings d es := by
  rw [settings, performed, List.filterMap_append, restarts?]
  cases s.performs? e with
  | none => rfl
  | some i => cases h : setting? d (s, i) <;> simp [h, settings]

/-- An event restarts a countdown if its instruction sets it. -/
theorem countdown_apply (s : Session) (d : Dial) (e : Event) :
    (s.apply e).machine.countdown d =
      ((s.restarts? d e).map Setting.countdown).getD (s.machine.countdown d) := by
  have hpart := part_apply (fun m => m.countdown d) (fun m now => m.countdownAfter now d)
    (fun m p => by rw [m.load_eq_done p]; cases d <;> rfl) (fun m => by cases d <;> rfl)
    (fun m keys now i => by rw [Machine.countdown_execute]; cases i <;> cases d <;> rfl) s e
  rw [hpart, restarts?]
  cases s.performs? e with
  | none => rfl
  | some i => cases h : i.sets? d <;> simp [setting?, Machine.countdownAfter, Setting.countdown, h]

/-- After a history a countdown is as the last setting started it. -/
theorem countdown_run (s : Session) (d : Dial) (events : List Event) :
    (s.run events).machine.countdown d =
      ((s.settings d events).getLast?.map Setting.countdown).getD (s.machine.countdown d) := by
  induction events generalizing s with
  | nil => rfl
  | cons e es ih =>
    rw [run_cons, ih (s.apply e), countdown_apply, settings_cons, List.getLast?_append]
    cases ((s.apply e).settings d es).getLast? with
    | some a => rfl
    | none => cases s.restarts? d e <;> rfl

/-- A history sets its countdowns before it ends. -/
theorem time_le_of_mem_settings {s : Session} {d : Dial} {events : List Event} {a : Setting}
    (ha : a ∈ s.settings d events) : a.time ≤ (s.run events).now := by
  induction events generalizing s with
  | nil => cases ha
  | cons e es ih =>
    rw [settings_cons, List.mem_append, Option.mem_toList] at ha
    rcases ha with hfirst | hrest
    · obtain ⟨i, -, hi⟩ := Option.bind_eq_some_iff.mp hfirst
      obtain ⟨x, -, rfl⟩ := Option.map_eq_some_iff.mp hi
      exact s.now_le_now_run (e :: es)
    · exact ih hrest

/-- The reading of a countdown that a history has set. -/
theorem toNat_reading_of_getLast? {s : Session} {d : Dial} {events : List Event} {a : Setting}
    (ha : (s.settings d events).getLast? = some a) :
    ((s.run events).machine.reading (s.run events).now d).toNat = a.count.toNat -
      (60 * ((s.run events).now - a.time) + 1000000000 * a.count.toNat % 60) / 1000000000 := by
  rw [Machine.reading_eq, countdown_run, ha]
  exact Countdown.toNat_units_armUnits a.time (s.run events).now a.count

/-- The reading of a countdown that a history does not set. -/
theorem toNat_reading_le_of_settings_eq_nil {s : Session} {d : Dial} {events : List Event}
    (hnone : s.settings d events = []) :
    ((s.run events).machine.reading (s.run events).now d).toNat ≤
      (s.machine.reading s.now d).toNat := by
  have hcountdown : (s.run events).machine.countdown d = s.machine.countdown d := by
    rw [countdown_run, hnone]
    rfl
  rw [Machine.reading_eq, Machine.reading_eq, hcountdown]
  exact Countdown.toNat_units_le_of_le _ (s.now_le_now_run events)

/-- A new machine's dials show nothing. -/
theorem reading_switchedOn (variant : Variant) (random : RandomStream) (keys : Keypad)
    (now : Nanos) (d : Dial) : (switchedOn variant random keys now).machine.reading now d = 0 := by
  rw [Machine.reading_eq, ← Countdown.units_expiredAt now now]
  cases d <;> rfl

/-- Switch a machine on and let any history pass. A countdown that was not set reads 0; one that was
last set to a count reads that count less the whole units that have passed since, counting what
arming has rounded off as passed, and so the count itself at the instant of the setting. `Fx07`
stores what the delay reads, and the tone sounds as long as the sound countdown reads something. And
however a history goes on, without a setting the reading does not grow. -/
theorem readings_follow_last_setting (variant : Variant) (random : RandomStream) (keys : Keypad)
    (now : Nanos) (events : List Event) :
    let start := switchedOn variant random keys now
    let s := start.run events
    (∀ d,
      (start.settings d events = [] → s.machine.reading s.now d = 0) ∧
      ∀ a, (start.settings d events).getLast? = some a →
        a.time ≤ s.now ∧
        (s.machine.reading s.now d).toNat = a.count.toNat -
          (60 * (s.now - a.time) + 1000000000 * a.count.toNat % 60) / 1000000000 ∧
        (s.now = a.time → s.machine.reading s.now d = a.count)) ∧
    (∀ x, s.machine.Runs (.readDelay x) → s.outcome = .done { s.machine.ready with
      regs := s.machine.ready.regs.set x (s.machine.reading s.now .delay) }) ∧
    (s.machine.toneSounds s.now = true ↔ 0 < (s.machine.reading s.now .sound).toNat) ∧
    ∀ d later, s.settings d later = [] →
      ((s.run later).machine.reading (s.run later).now d).toNat ≤
        (s.machine.reading s.now d).toNat := by
  intro start s
  refine ⟨fun d => ⟨fun hnone => ?_, fun a ha => ?_⟩, fun x hrun => ?_, ?_,
    fun d later => toNat_reading_le_of_settings_eq_nil⟩
  · have hle := toNat_reading_le_of_settings_eq_nil hnone
    rw [show start.machine.reading start.now d = 0 from reading_switchedOn ..] at hle
    exact UInt8.toNat_inj.mp (Nat.le_zero.mp hle)
  · have hreading := toNat_reading_of_getLast? ha
    refine ⟨time_le_of_mem_settings (List.mem_of_getLast? ha), hreading, fun heq => ?_⟩
    have hgone : (start.run events).now - a.time = 0 := Nat.sub_eq_zero_of_le (Nat.le_of_eq heq)
    rw [hgone] at hreading
    refine UInt8.toNat_inj.mp (hreading.trans ?_)
    omega
  · rw [outcome, hrun.step, Machine.execute]
    rfl
  · rw [Machine.toneSounds, Bool.not_eq_true', Countdown.expired_eq_false_iff]
    exact Iff.rfl

/-- A program that sets the delay to a hundred units and reads it back. -/
def hundredUnits : Program := ⟨[0x61, 0x64, 0xF1, 0x15, 0xF2, 0x07], by decide⟩

/-- The delay set at time 7, and then not quite a sixtieth of a second: the forty sixtieths of a
nanosecond that arming has rounded off are what is missing. -/
def hundredUnitsHistory : List Event :=
  [.load hundredUnits, .step, .wait 7, .step, .key (.press 3), .wait 16666666]

/-- A countdown of a hundred units has gone down by one after about a sixtieth of a second, and the
other dial shows nothing. -/
theorem reading_of_hundredUnits :
    let start := switchedOn .legacy (RandomStream.ofSeed 8) Keypad.released 0
    let s := start.run hundredUnitsHistory
    (start.settings .delay hundredUnitsHistory).getLast? = some ⟨7, 100⟩ ∧
    start.settings .sound hundredUnitsHistory = [] ∧
    s.machine.Runs (.readDelay 2) ∧
    (s.machine.reading s.now .delay).toNat = 99 ∧ s.machine.reading s.now .sound = 0 := by
  intro start s
  have hdelay : (start.settings .delay hundredUnitsHistory).getLast? = some ⟨7, 100⟩ := by
    decide +kernel
  have hsound : start.settings .sound hundredUnitsHistory = [] := by decide +kernel
  have hlaw := (readings_follow_last_setting .legacy (RandomStream.ofSeed 8) Keypad.released 0
    hundredUnitsHistory).1
  exact ⟨hdelay, hsound, by decide +kernel, ((hlaw .delay).2 _ hdelay).2.1,
    (hlaw .sound).1 hsound⟩

end ChipVM.Session
