import ChipVM.Proofs.Play.CycleTimes

/-!
# When frames are shown

From one frame to the next the deadline moves on by a period or more. It is never set further ahead
than a period after the frame that was shown last, nor further back than that frame. So frames come
no earlier than their number of periods after the start, only one of them comes early in any stretch
of the play, and none that is a period late is passed over.
-/

namespace ChipVM

namespace Play

variable {host : Host} {pace : Pace} {s : Session}

/-- Cycle `m` asks the host to show frame `k`. -/
structure DrawsFrame (host : Host) (pace : Pace) (s : Session) (k m : Nat) : Prop
    extends RunsCycle host pace s m where
  due : (head host pace s m).showsFrame host = true
  number : (head host pace s m).frames = k

/-- A cycle shows a frame that is due and moves the deadline on, or leaves both alone. -/
theorem Reaches.frame_cases {m : Nat} (h : Reaches host pace s (m + 1)) :
    let p := head host pace s m
    let q := head host pace s (m + 1)
    (p.showsFrame host = true ∧ p.due.frame ≤ p.steppedAt host ∧ q.frames = p.frames + 1 ∧
      q.due.frame = (p.due.afterFrame pace (p.steppedAt host)).frame) ∨
    (p.showsFrame host = false ∧ p.steppedAt host < p.due.frame ∧ q.frames = p.frames ∧
      q.due.frame = p.due.frame) := by
  intro p q
  have hframes : q.frames = p.frames + (p.showsFrame host).toNat :=
    (cycled_of_going (reaches_succ_iff.mp h).2).frames
  have hdue : q.due.frame = if p.showsFrame host then
      (p.due.afterFrame pace (p.steppedAt host)).frame else p.due.frame := h.timed.frame
  cases hshows : p.showsFrame host with
  | false =>
    rw [hshows] at hframes hdue
    have hearly : p.steppedAt host < p.due.frame := Nat.lt_of_not_le fun hle =>
      Bool.eq_false_iff.mp hshows (Deadlines.frameDue_eq_true_iff.mpr hle)
    exact Or.inr ⟨rfl, hearly, hframes, hdue⟩
  | true =>
    rw [hshows] at hframes hdue
    exact Or.inl ⟨rfl, Deadlines.frameDue_eq_true_iff.mp hshows, hframes, hdue⟩

/-- Between two cycles the deadline has moved on by a period for each frame that was shown. -/
theorem Reaches.frameDue_add_le {l m : Nat} (h : Reaches host pace s m) (hl : l ≤ m) :
    (head host pace s l).frames ≤ (head host pace s m).frames ∧
      (head host pace s l).due.frame +
          ((head host pace s m).frames - (head host pace s l).frames) * pace.framePeriod ≤
        (head host pace s m).due.frame := by
  have hself : ∀ k, (head host pace s k).due.frame +
      ((head host pace s k).frames - (head host pace s k).frames) * pace.framePeriod ≤
        (head host pace s k).due.frame := by
    intro k
    rw [Nat.sub_self, Nat.zero_mul]
    exact Nat.le_refl _
  induction m with
  | zero =>
    rw [Nat.le_zero.mp hl]
    exact ⟨Nat.le_refl _, hself 0⟩
  | succ m ih =>
    rcases Nat.le_succ_iff.mp hl with hle | rfl
    · obtain ⟨hmore, hpast⟩ := ih (reaches_succ_iff.mp h).1 hle
      rcases h.frame_cases with ⟨-, -, hframes, hdue⟩ | ⟨-, -, hframes, hdue⟩
      · have hnext := (head host pace s m).due.add_period_le_frame_afterFrame pace
          ((head host pace s m).steppedAt host)
        rw [hframes, hdue, Nat.succ_sub hmore, Nat.succ_mul]
        exact ⟨Nat.le_succ_of_le hmore, by lia⟩
      · rw [hframes, hdue]
        exact ⟨hmore, hpast⟩
    · exact ⟨Nat.le_refl _, hself _⟩

/-- As long as no frame is shown the deadline stays. -/
theorem Reaches.frameDue_eq {l m : Nat} (h : Reaches host pace s m) (hl : l ≤ m)
    (hnone : ∀ c, l ≤ c → c < m → (head host pace s c).showsFrame host = false) :
    (head host pace s m).frames = (head host pace s l).frames ∧
      (head host pace s m).due.frame = (head host pace s l).due.frame := by
  induction m with
  | zero => exact Nat.le_zero.mp hl ▸ ⟨rfl, rfl⟩
  | succ m ih =>
    rcases Nat.le_succ_iff.mp hl with hle | rfl
    · obtain ⟨hframes, hdue⟩ := ih (reaches_succ_iff.mp h).1 hle fun c hc hcm =>
        hnone c hc (Nat.lt_succ_of_lt hcm)
      rcases h.frame_cases with ⟨hshows, -⟩ | ⟨-, -, hframes', hdue'⟩
      · cases hshows.symm.trans (hnone m hle (Nat.lt_succ_self m))
      · exact ⟨hframes'.trans hframes, hdue'.trans hdue⟩
    · exact ⟨rfl, rfl⟩

/-- The deadline after a frame lies between that frame and a period later. -/
theorem DrawsFrame.frameDue_mem {k l : Nat} (hl : DrawsFrame host pace s k l)
    (h : Reaches host pace s (l + 1)) :
    (head host pace s (l + 1)).frames = k + 1 ∧
      (head host pace s l).steppedAt host ≤ (head host pace s (l + 1)).due.frame ∧
      (head host pace s (l + 1)).due.frame ≤
        (head host pace s l).steppedAt host + pace.framePeriod := by
  rcases h.frame_cases with ⟨-, hdue, hframes, hnext⟩ | ⟨hshows, -⟩
  · rw [hframes, hnext, hl.number]
    exact ⟨rfl, Deadlines.frame_afterFrame_mem hdue⟩
  · cases hl.due.symm.trans hshows

/-- No frame is drawn before it is due. -/
theorem DrawsFrame.frameDue_le {k m : Nat} (h : DrawsFrame host pace s k m) :
    (head host pace s m).due.frame ≤ (head host pace s m).steppedAt host :=
  Deadlines.frameDue_eq_true_iff.mp h.due

/-- Frames are shown in the order of their numbers. -/
theorem DrawsFrame.lt_of_lt {i j l m : Nat} (hl : DrawsFrame host pace s i l)
    (hm : DrawsFrame host pace s j m) (hij : i < j) : l < m := by
  refine Nat.lt_of_not_le fun hle => ?_
  have hmore := (hl.reaches.frameDue_add_le hle).1
  rw [hl.number, hm.number] at hmore
  omega

/-- A frame's number tells how many cycles have shown one before, and the first cycle shows the
first one. Frame `k` comes no earlier than `k` periods after the start; between two frames there are
at least as many periods as frames between them; and a cycle that finds a period gone since the
latest frame shows the next one. -/
theorem frames_keep_pace (host : Host) (pace : Pace) (s : Session) :
    (∀ k m, DrawsFrame host pace s k m →
      k = (List.range m).countP fun c => (head host pace s c).showsFrame host) ∧
    (RunsCycle host pace s 0 → DrawsFrame host pace s 0 0) ∧
    (∀ k m, DrawsFrame host pace s k m →
      s.now + k * pace.framePeriod ≤ (head host pace s m).steppedAt host) ∧
    (∀ i j l m, i < j → DrawsFrame host pace s i l → DrawsFrame host pace s j m →
      (head host pace s l).steppedAt host + (j - i - 1) * pace.framePeriod ≤
        (head host pace s m).steppedAt host) ∧
    ∀ k l m, l < m → DrawsFrame host pace s k l → RunsCycle host pace s m →
      (∀ j c, l < c → c < m → ¬ DrawsFrame host pace s j c) →
      (head host pace s l).steppedAt host + pace.framePeriod ≤ (head host pace s m).steppedAt host →
      DrawsFrame host pace s (k + 1) m := by
  refine ⟨?_, ?_, ?_, ?_, ?_⟩
  · intro k m h
    exact h.number.symm.trans h.reaches.atHead.frames
  · intro h
    have hnow : (head host pace s 0).due.frame ≤ (head host pace s 0).steppedAt host := by
      rw [steppedAt_eq]
      exact Nat.le_add_right ..
    exact ⟨h, Deadlines.frameDue_eq_true_iff.mpr hnow, rfl⟩
  · intro k m h
    have hdue := (h.reaches.frameDue_add_le (Nat.zero_le m)).2
    rw [h.number] at hdue
    exact Nat.le_trans hdue h.frameDue_le
  · intro i j l m hij hl hm
    have hlm := hl.lt_of_lt hm hij
    -- the deadline is not before frame `i` right after it, and moves on for the frames until `j`
    obtain ⟨hframes, hnext, -⟩ := hl.frameDue_mem (hm.reaches.of_le hlm)
    have hdue := (hm.reaches.frameDue_add_le hlm).2
    rw [hframes, hm.number] at hdue
    have hnow := hm.frameDue_le
    rw [Nat.sub_sub]
    lia
  · intro k l m hlm hl hm hnone hlate
    obtain ⟨hframes, -, hnext⟩ := hl.frameDue_mem (hm.reaches.of_le hlm)
    obtain ⟨hsame, hdue⟩ := hm.reaches.frameDue_eq hlm fun c hc hcm =>
      Bool.eq_false_iff.mpr fun hshows =>
        hnone _ c hc hcm ⟨(hm.reaches.of_le hcm).runsCycle, hshows, rfl⟩
    -- the deadline that frame `k` has left is no more than a period after it
    refine ⟨hm, Deadlines.frameDue_eq_true_iff.mpr ?_, hsame.trans hframes⟩
    rw [hdue]
    exact Nat.le_trans hnext hlate

/-- The host is asked for frames in the first, the second and the fifth cycle. The last of them is
long overdue, and the deadline is set afresh. -/
theorem dawdlingHost_shows_frames :
    let pace := Pace.ofRates 1000 60 (some 6)
    let read := fun m => (head dawdlingHost pace faultingSession m).steppedAt dawdlingHost
    DrawsFrame dawdlingHost pace faultingSession 0 0 ∧
    DrawsFrame dawdlingHost pace faultingSession 1 1 ∧
    RunsCycle dawdlingHost pace faultingSession 4 ∧
    (∀ j c, 1 < c → c < 4 → ¬ DrawsFrame dawdlingHost pace faultingSession j c) ∧
    read 1 + pace.framePeriod ≤ read 4 ∧
    DrawsFrame dawdlingHost pace faultingSession (1 + 1) 4 ∧
    faultingSession.now + (1 + 1) * pace.framePeriod ≤ read 4 ∧
    read 0 + (1 + 1 - 0 - 1) * pace.framePeriod ≤ read 4 ∧
    (head dawdlingHost pace faultingSession 5).due.frame = read 4 + pace.framePeriod := by
  intro pace read
  obtain ⟨-, hfirst, hearliest, hspaced, hlate⟩ :=
    frames_keep_pace dawdlingHost pace faultingSession
  have hruns : ∀ m < 6, RunsCycle dawdlingHost pace faultingSession m := fun m hm =>
    (reaches_dawdlingHost.of_le hm).runsCycle
  have hzero := hfirst (hruns 0 (by decide))
  have hone : DrawsFrame dawdlingHost pace faultingSession 1 1 :=
    ⟨hruns 1 (by decide), by decide +kernel, by decide +kernel⟩
  have hdark : ∀ c < 4, 1 < c →
      (head dawdlingHost pace faultingSession c).showsFrame dawdlingHost = false := by
    decide +kernel
  have hnone : ∀ j c, 1 < c → c < 4 → ¬ DrawsFrame dawdlingHost pace faultingSession j c := by
    intro j c hc hc4 h
    cases h.due.symm.trans (hdark c hc4 hc)
  have hperiod : read 1 + pace.framePeriod ≤ read 4 := by decide +kernel
  have htwo := hlate 1 1 4 (by decide) hone (hruns 4 (by decide)) hnone hperiod
  exact ⟨hzero, hone, hruns 4 (by decide), hnone, hperiod, htwo, hearliest (1 + 1) 4 htwo,
    hspaced 0 (1 + 1) 0 4 (by decide) hzero htwo, by decide +kernel⟩

end Play

end ChipVM
