import ChipVM.Proofs.Machine.Countdowns
import ChipVM.Proofs.Play.Fold

/-!
# Pace does not change what is computed

The pace of a play and the time that its host takes come into it through the clock alone, and a
machine looks at the clock in its countdowns alone. So two plays whose hosts change the same keys and
give the same answers compute the same, in as many cycles, unless a program reads the delay.
-/

namespace ChipVM

namespace Session

/-- The same keys are held, and the machines differ in their countdowns at most. -/
structure SameButTime (s t : Session) : Prop where
  machine : s.machine.SameButCountdowns t.machine
  keys : t.keys = s.keys

/-- Polls with the same key changes leave sessions the same but for time. -/
theorem SameButTime.poll {s t : Session} (h : s.SameButTime t) {actions actions' : List HostAction}
    (hkeys : HostAction.keyChanges actions' = HostAction.keyChanges actions) :
    (s.poll actions).1.SameButTime (t.poll actions').1 where
  machine := by
    rw [machine_poll, machine_poll]
    exact h.machine
  keys := by rw [keys_poll, keys_poll, hkeys, h.keys]

/-- A step that does not read the delay does and reports the same at any time. -/
theorem SameButTime.step {s t : Session} (h : s.SameButTime t)
    (hread : ∀ x, ¬ s.machine.Runs (.readDelay x)) :
    s.step.SameButTime t.step ∧ t.failure? = s.failure? := by
  have hsame : s.outcome.Related Machine.SameButCountdowns t.outcome := by
    rw [outcome, outcome, h.keys]
    exact Machine.step_sameButCountdowns h.machine s.keys s.now t.now hread
  have hpc : t.machine.regs.pc = s.machine.regs.pc := by
    obtain ⟨_, _, hm⟩ := h.machine
    rw [hm]
    rfl
  exact ⟨⟨hsame.state, h.keys⟩, by rw [failure?, failure?, hsame.fault, hpc]⟩

/-- As long as the delay is not read, polls that change the same keys, steps and pauses of any
lengths lead to the same and meet the same faults. -/
theorem SameButTime.driven {s t : Session} (h : s.SameButTime t) {host host' : Host}
    (hkeys : ∀ k, host.keyChanges k = host'.keyChanges k) (pause pause' : Nat → Nanos) {k : Nat}
    (hread : ∀ j < k, ∀ x, ¬ (s.driven host pause j).machine.Runs (.readDelay x)) :
    (s.driven host pause k).SameButTime (t.driven host' pause' k) ∧
      ∀ j < k, (t.beforeStep host' pause' j).failure? = (s.beforeStep host pause j).failure? := by
  induction k with
  | zero => exact ⟨h, nofun⟩
  | succ k ih =>
    obtain ⟨hsame, hpast⟩ := ih fun j hj => hread j (Nat.lt_succ_of_lt hj)
    have hbefore : (s.beforeStep host pause k).SameButTime (t.beforeStep host' pause' k) :=
      hsame.poll (hkeys k).symm
    have hunread : ∀ x, ¬ (s.beforeStep host pause k).machine.Runs (.readDelay x) := by
      rw [beforeStep, machine_poll]
      exact hread k (Nat.lt_succ_self k)
    have hstep := hbefore.step hunread
    exact ⟨⟨hstep.1.machine, hstep.1.keys⟩, Nat.forall_lt_succ_right.mpr ⟨hpast, hstep.2⟩⟩

end Session

namespace Play

/-- Why a play ends and after how many cycles depends on the host's answers and the limit alone. -/
theorem Account.ends_alike {host host' : Host} {pace pace' : Pace} {s s' : Session} {p p' : Play}
    {ending ending' : Ending} (h : Account host pace s p ending)
    (h' : Account host' pace' s' p' ending') (hreply : ∀ k, host.reply k = host'.reply k)
    (hlimit : pace.limit = pace'.limit) : p'.cycles = p.cycles ∧ ending' = ending := by
  have hstay : ∀ j < p.cycles, host.reply j ≠ .ok true := by
    intro j hj hasks
    cases (h.stops.stays j hj).symm.trans hasks
  have hstay' : ∀ j < p.cycles, host'.reply j ≠ .ok true := by
    intro j hj
    rw [← hreply j]
    exact hstay j hj
  rcases h.stops.stops with hlim | ⟨hasks, hlim⟩
  · obtain ⟨he, -, -⟩ := h.enough _ hlim hstay
    obtain ⟨he', hc', -⟩ := h'.enough _ (hlimit ▸ hlim) hstay'
    exact ⟨hc', he'.trans he.symm⟩
  · obtain ⟨he, -, -⟩ := h.quit _ hasks hstay hlim
    obtain ⟨he', hc', -⟩ := h'.quit _ (hreply _ ▸ hasks) hstay' (hlimit ▸ hlim)
    exact ⟨hc', he'.trans he.symm⟩

/-- Let two hosts change the same keys and give the same answers, poll by poll, and let two plays
with the same limit start in sessions that differ in the countdowns and the time at most. If both end
without a failure and the first never runs `Fx07`, then both end for the same reason after as many
cycles and as many errors, and the machines differ in their countdowns at most; whatever the paces
are and the time that the hosts take. -/
theorem result_independent_of_pace {host host' : Host} {pace pace' : Pace} {s s' : Session}
    {n n' : Nat} {p p' : Play} {ending ending' : Ending}
    (hhosts : ∀ k, host.keyChanges k = host'.keyChanges k ∧ host.reply k = host'.reply k)
    (hlimit : pace.limit = pace'.limit) (hstart : s.SameButTime s')
    (hend : run host pace n (start s) = .ended p ending)
    (hend' : run host' pace' n' (start s') = .ended p' ending')
    (hok : ∀ fault, ending ≠ .failed fault) (hok' : ∀ fault, ending' ≠ .failed fault)
    (hread : ∀ j < p.cycles, ∀ x,
      ¬ (head host pace s j).session.machine.Runs (.readDelay x)) :
    p'.cycles = p.cycles ∧ p'.errors = p.errors ∧ ending' = ending ∧
      p.session.machine.SameButCountdowns p'.session.machine := by
  have hacc := account_of_ended hend hok
  have hacc' := account_of_ended hend' hok'
  obtain ⟨hcycles, hending⟩ := hacc.ends_alike hacc' (fun k => (hhosts k).2) hlimit
  have hunread : ∀ j < p.cycles, ∀ x,
      ¬ (s.driven host (pauseAfter host pace s) j).machine.Runs (.readDelay x) := by
    intro j hj
    rw [← hacc.heads j (Nat.le_of_lt hj)]
    exact hread j hj
  obtain ⟨hsame, hfailures⟩ := hstart.driven (fun k => (hhosts k).1)
    (pauseAfter host pace s) (pauseAfter host' pace' s') hunread
  refine ⟨hcycles, ?_, hending, ?_⟩
  · rw [hacc.errors, hacc'.errors, hcycles]
    refine List.countP_congr fun j hj => ?_
    have hsome := congrArg Option.isSome (hfailures j (List.mem_range.mp hj))
    simp only [Session.failure?, Option.isSome_map] at hsome
    rw [hsome]
  · rw [hacc.machine, hacc'.machine, hcycles]
    exact hsame.machine

/-- A host that presses a key at the fourth poll and takes the given times. -/
def keyHost (pollTime drawTime : Nanos) : Host :=
  Script.host ⟨[(3, .key (.press 3))], pollTime, drawTime, none⟩

/-- A machine that starts its delay and then asks for key after key. -/
def delayingSession : Session :=
  (Session.initial .legacy (RandomStream.ofSeed 8)).run
    [.load ⟨[0x60, 0x0A, 0xF0, 0x15, 0xF5, 0x0A, 0x12, 0x04], by decide⟩]

/-- However long its polls and frames take, the play with the key host ends after five cycles with
its account in order. -/
theorem ended_keyHost (pollTime drawTime : Nanos) (pace : Pace) (hlimit : pace.limit = some 5) :
    ∃ p, run (keyHost pollTime drawTime) pace 6 (start delayingSession) = .ended p .enough ∧
      Account (keyHost pollTime drawTime) pace delayingSession p .enough ∧ p.cycles = 5 := by
  have hstays : ∀ j < 5, (keyHost pollTime drawTime).reply j = .ok false
    | 0, _ | 1, _ | 2, _ | 3, _ | 4, _ => rfl
  obtain ⟨p, ending, hend, hok⟩ := ended_of_stopsAfter (s := delayingSession)
    ⟨hstays, Or.inl hlimit⟩ (fun _ _ => ⟨drawTime, rfl⟩) (Nat.lt_succ_self 5)
  have hacc := account_of_ended hend hok
  obtain ⟨rfl, hcycles, -⟩ := hacc.enough 5 hlimit fun j hj hquit => by
    cases (hstays j hj).symm.trans hquit
  exact ⟨p, hend, hacc, hcycles⟩

/-- The second play runs at another pace with a host that is far slower. At the end the delays have
been set at different times, and nothing but countdowns differs. -/
theorem same_result_with_keyHosts :
    ∃ p p', run (keyHost 5 7) (Pace.standard (some 5)) 6 (start delayingSession) =
        .ended p .enough ∧
      run (keyHost 300000000 11) (Pace.ofRates 100000 1 (some 5)) 6 (start delayingSession) =
        .ended p' .enough ∧
      (∀ j < p.cycles, ∀ x,
        ¬ (head (keyHost 5 7) (Pace.standard (some 5)) delayingSession j).session.machine.Runs
          (.readDelay x)) ∧
      p.session.machine.SameButCountdowns p'.session.machine ∧
      p.session.machine.delay ≠ p'.session.machine.delay := by
  obtain ⟨p, hend, hacc, hcycles⟩ := ended_keyHost 5 7 (Pace.standard (some 5)) rfl
  obtain ⟨p', hend', hacc', hcycles'⟩ :=
    ended_keyHost 300000000 11 (Pace.ofRates 100000 1 (some 5)) rfl
  have hhosts : ∀ k, (keyHost 5 7).keyChanges k = (keyHost 300000000 11).keyChanges k ∧
      (keyHost 5 7).reply k = (keyHost 300000000 11).reply k := fun _ => ⟨rfl, rfl⟩
  have hlimit : (Pace.standard (some 5)).limit = (Pace.ofRates 100000 1 (some 5)).limit := rfl
  have hread : ∀ j < p.cycles, ∀ x,
      ¬ (head (keyHost 5 7) (Pace.standard (some 5)) delayingSession j).session.machine.Runs
        (.readDelay x) := by
    rw [hcycles]
    decide +kernel
  obtain ⟨-, -, -, hsame⟩ := result_independent_of_pace hhosts hlimit ⟨.refl _, rfl⟩ hend hend'
    nofun nofun hread
  refine ⟨p, p', hend, hend', hread, hsame, ?_⟩
  rw [hacc.machine, hacc'.machine, hcycles, hcycles']
  decide +kernel

end Play

end ChipVM
