import InterruptStress.Proofs.Worker.Outcome

/-!
# Precise runs make progress

In precise mode no state of a regular run is stuck before the worker has returned: a thread that
waits has not been notified, and whoever waits un-notified waits for the other one, who can go on
(`LocalRun.exists_step`).  Without spurious wakeups, sleeps that run to their end and a probe that
detaches, every move brings the run nearer to its end (`LocalRun.rank_transition`).
-/

namespace InterruptStress

/-- The moves of the two threads as long as nothing cuts a wait short. -/
def LocalMove.isPrompt : LocalMove → Bool
  | .report accepted => accepted
  | .advance _ => true
  | _ => false

theorem LocalMove.isOwn_of_isPrompt {m : LocalMove} (h : m.isPrompt = true) : m.isOwn = true := by
  cases m <;> first | rfl | cases h

namespace LocalRun

variable {s s' : LocalRun} {m : LocalMove} {g : Generator}

/-! ## Nobody waits in vain -/

/-- A worker that waits un-notified is in its sleep and has not been interrupted. -/
def Dozing (s : LocalRun) : Prop :=
  s.token.isWaiting owner = true → s.worker.phase = .asleep ∧ s.token.pending = false

theorem dozing_of_awake (h : s.token.isWaiting owner = false) : s.Dozing := by
  intro hwaiting
  simp [h] at hwaiting

theorem Dozing.awake (h : s.Dozing) (hw : s.worker.phase ≠ .asleep) :
    s.token.isWaiting owner = false :=
  eq_false_of_ne_true fun hwaiting => hw (h hwaiting).1

/-- The worker's wait is over before it goes on, and an interrupt ends it. -/
theorem dozing_transition (h : s.Dozing) (ht : s.Transition m s') (hm : m.isOwn = true) :
    s'.Dozing := by
  cases ht with
  | start hw => exact dozing_of_awake (h.awake (by simp [hw]))
  | failStart => cases hm
  | takeLine line hw => exact dozing_of_awake (h.awake (by simp [hw]))
  | refuseLine line hw => exact dozing_of_awake (h.awake (by simp [hw]))
  | doze => exact fun _ => ⟨rfl, by simp⟩
  | dozeOn hw => exact fun _ => ⟨hw, by simp⟩
  | wake _ _ _ hset expired => exact dozing_of_awake (by simp [Token.isWaiting_look, hset])
  | oversleep => exact dozing_of_awake (by simp [Token.isWaiting_look])
  | endSleep => cases hm
  | read _ _ _ hw => exact dozing_of_awake (h.awake (by simp [hw]))
  | acknowledge hw => exact dozing_of_awake (h.awake (by simp [hw]))
  | failAcknowledge hw => exact dozing_of_awake (h.awake (by simp [hw]))
  | stop _ hw => exact dozing_of_awake (h.awake (by simp [hw]))
  | failStop _ hw => exact dozing_of_awake (h.awake (by simp [hw]))
  | join _ hw => exact dozing_of_awake (h.awake (by simp [hw]))
  | failJoin _ hw => exact dozing_of_awake (h.awake (by simp [hw]))
  | send => exact dozing_of_awake (by simp)
  | stirWorker => exact dozing_of_awake (by simp)
  | interrupt => cases hm
  | crash => cases hm
  | _ => exact h

/-- A generator that has not ended goes on, unless it waits un-notified. -/
theorem canAdvance_generator (hc : Coordinated s.worker g s.rendezvous s.stop)
    (hg : s.generator = some g) (hprecise : g.strategy = .precise) (hgoing : g.result? = none)
    (hwoken : s.rendezvous.parked = false) : (s.step (.advance .generator)).isSome = true := by
  have hfree (hp : g.phase ≠ .sending ∧ g.phase ≠ .looking) : s.rendezvous.held = false :=
    eq_false_of_ne_true fun hheld => by
      rcases (hc.held.mp hheld).2 with h | h
      · exact hp.1 h
      · exact hp.2 h
  have hlocal : g.strategy.hasLocalGenerator = true := hc.isLocal
  cases hp : g.phase with
  | entering =>
    simp [step, advanceGenerator, hg, hp, enterRendezvous,
      Rendezvous.enter_of_free (hfree (by simp [hp])) hc.sound, onGenerator, Generator.step]
  | sending =>
    simp [step, advanceGenerator, hg, hp, onGenerator, Generator.step, hlocal]
  | looking =>
    -- it takes the acknowledgement, or the stop, or parks
    have hlook : s.step (.advance .generator) = s.lookForAck := by
      simp [step, advanceGenerator, hg, hp]
    rw [hlook, lookForAck]
    cases hacked : s.rendezvous.acked with
    | true => simp [Rendezvous.look_of_acked hacked, onGenerator, hg, Generator.step, hp]
    | false =>
      cases hstop : s.stop.pending with
      | true => simp [Rendezvous.look_of_stopped hacked, onGenerator, hg, Generator.step, hp]
      | false => simp [Rendezvous.look_of_neither hacked, onGenerator, hg, Generator.step, hp]
  | parked =>
    simp [step, advanceGenerator, hg, hp, hwoken, enterRendezvous,
      Rendezvous.enter_of_free (hfree (by simp [hp])) hc.sound, onGenerator, Generator.step]
  | pausing | asleep => exact (hc.never_pauses hprecise (by simp [hp])).elim
  | finished result => simp [Generator.result?, hp] at hgoing

theorem canAdvance_look (hw : s.worker.phase = .sleeping ∨
    s.worker.phase = .asleep ∧ s.token.isWaiting owner = false) :
    (s.step (.advance .worker)).isSome = true := by
  have hlook : s.step (.advance .worker) = s.workerLook false := by
    rcases hw with hw | ⟨hw, hwoken⟩
    · simp [step, advanceWorker, hw]
    · simp [step, advanceWorker, hw, hwoken]
  rw [hlook, workerLook]
  cases hset : s.token.pending with
  | true =>
    rw [show s.token.look owner false = (some .interrupted, (s.token.look owner false).2) from
      Prod.ext (Token.look_of_pending _ _ _ hset) rfl]
    rcases hw with hw | ⟨hw, -⟩ <;> simp [onWorker, Worker.step, hw]
  | false =>
    rw [show s.token.look owner false = (none, (s.token.look owner false).2) from
      Prod.ext (Token.look_of_clear _ _ hset) rfl]
    rcases hw with hw | ⟨hw, -⟩ <;> simp [onWorker, Worker.step, hw]

/-- A generator that was told to stop does not wait un-notified. -/
theorem unparked_of_stopped (hc : Coordinated s.worker g s.rendezvous s.stop)
    (hstopped : s.worker.hasStopped = true) : s.rendezvous.parked = false := by
  refine eq_false_of_ne_true fun hparked => ?_
  obtain ⟨hp, -, hclear⟩ := hc.parked hparked
  rcases hc.stopped.mp hstopped with hset | hdone
  · simp [hclear] at hset
  · simp [Generator.result?, hp] at hdone

/-- Whoever wants the rendezvous for a moment gets it, or its holder goes on. -/
theorem canAdvance_rendezvous (hc : Coordinated s.worker g s.rendezvous s.stop)
    (hg : s.generator = some g) (hmode : s.mode = .precise)
    (hw : s.worker.phase = .acknowledging ∨ ∃ failure, s.worker.phase = .stopping failure) :
    ∃ thread, (s.step (.advance thread)).isSome = true := by
  cases hheld : s.rendezvous.held with
  | true =>
    obtain ⟨hprecise, hp⟩ := hc.held.mp hheld
    refine ⟨.generator, canAdvance_generator hc hg hprecise ?_ (hc.unparked ?_)⟩
    · rcases hp with hp | hp <;> simp [Generator.result?, hp]
    · rcases hp with hp | hp <;> simp [hp]
  | false =>
    refine ⟨.worker, ?_⟩
    rcases hw with hw | ⟨failure, hw⟩
    · simp [step, advanceWorker, hw, Rendezvous.acknowledge,
        Rendezvous.within_of_free hheld hc.sound, onWorker, Worker.step]
    · have hstop : s.stopGenerator = some (.ok { s with
          rendezvous := { s.rendezvous with parked := false }
          stop := s.stop.interrupt }) := by
        simp only [stopGenerator, hmode, Rendezvous.notify,
          Rendezvous.within_of_free hheld hc.sound, Option.map_some, Except.map, id]
      simp [step, advanceWorker, hw, hstop, onWorker, Worker.step]

/-- In precise mode some thread can go on until the worker has returned, whatever its probe
answers. -/
theorem exists_step (h : s.Regular) (hd : s.Dozing) (hmode : s.mode = .precise)
    (hrunning : s.worker.result? = none) (accepted : Bool) :
    (s.step (.report accepted)).isSome = true ∨
      ∃ thread, (s.step (.advance thread)).isSome = true := by
  have ho := h.order (by simp [hmode, Mode.hasLocalGenerator])
  cases hw : s.worker.phase with
  | starting =>
    exact .inr ⟨.worker, by simp [step, advanceWorker, hw, onWorker, Worker.step]⟩
  | reporting line =>
    refine .inl ?_
    cases accepted <;> simp [step, onWorker, Worker.step, hw]
  | sleeping => exact .inr ⟨.worker, canAdvance_look (.inl hw)⟩
  | reading =>
    refine .inr ⟨.worker, ?_⟩
    cases hset : s.token.pending <;>
      simp [step, advanceWorker, hw, onWorker, Worker.step, hset, apply_ite Option.isSome]
  | acknowledging =>
    obtain ⟨g, hg⟩ := ho.exists_generator (by simp [hw])
    exact .inr (canAdvance_rendezvous (ho.coordinated hg) hg hmode (.inl hw))
  | stopping failure =>
    obtain ⟨g, hg⟩ := ho.exists_generator (by simp [hw])
    exact .inr (canAdvance_rendezvous (ho.coordinated hg) hg hmode (.inr ⟨failure, hw⟩))
  | asleep =>
    cases hwaiting : s.token.isWaiting owner with
    | false => exact .inr ⟨.worker, canAdvance_look (.inr ⟨hw, hwaiting⟩)⟩
    | true =>
      -- the worker has not the baton and its token has not, so the generator can go for it
      obtain ⟨g, hg⟩ := ho.exists_generator (by simp [hw])
      have hc := ho.coordinated hg
      have hb := (h.balance hmode).balanced hg (by simp [Worker.failure?, hw])
      have hbaton : g.aboutToSend = true ∨ s.rendezvous.acked = true := by
        have hone := hb.baton
        simp only [(hd hwaiting).2, Worker.owesAck, hw, Bool.toNat_false] at hone
        cases hsend : g.aboutToSend <;> cases hacked : s.rendezvous.acked <;>
          simp_all
      refine .inr ⟨.generator, canAdvance_generator hc hg (hc.strategy.trans hmode) ?_ ?_⟩
      · refine Option.not_isSome_iff_eq_none.mp fun hdone => ?_
        have hstopped := hc.stopped.mpr (.inr hdone)
        simp [Worker.hasStopped, hw] at hstopped
      · refine eq_false_of_ne_true fun hparked => ?_
        obtain ⟨hp, hacked, -⟩ := hc.parked hparked
        rcases hbaton with hsend | hset
        · simp [Generator.aboutToSend, hp] at hsend
        · simp [hacked] at hset
  | joining failure =>
    obtain ⟨g, hg⟩ := ho.exists_generator (by simp [hw])
    have hc := ho.coordinated hg
    cases hdone : g.result? with
    | some result =>
      refine .inr ⟨.worker, ?_⟩
      cases result <;> simp [step, advanceWorker, hw, hg, hdone, onWorker, Worker.step]
    | none =>
      refine .inr ⟨.generator, canAdvance_generator hc hg (hc.strategy.trans hmode) hdone ?_⟩
      exact unparked_of_stopped hc (by simp [Worker.hasStopped, hw])
  | finished result => simp [Worker.result?, hw] at hrunning

end LocalRun

/-! ## The end comes nearer -/

/-- How many things can still happen at most to a worker with so many iterations left. -/
def WorkerPhase.stepsLeft (rest : Nat) : WorkerPhase → Nat
  | .starting => 10 * rest + 6
  | .reporting .loop | .reporting .done => 10 * rest + 4
  | .reporting .sleep => 10 * rest + 3
  | .sleeping => 10 * rest + 2
  | .asleep => 10 * rest + 1
  | .reporting .caught => 10 * rest
  | .reading => 10 * rest - 1
  | .reporting .acknowledge => 10 * rest - 2
  | .acknowledging => 10 * rest - 3
  | .reporting .check => 10 * rest - 4
  | .stopping _ => 2
  | .joining _ => 1
  | .finished _ => 0

namespace Worker

variable {w w' : Worker}

def stepsLeft (w : Worker) : Nat := w.phase.stepsLeft (w.iterations - w.completed)

theorem stepsLeft_le (w : Worker) : w.stepsLeft ≤ 10 * w.iterations + 6 := by
  have hrest := Nat.sub_le w.iterations w.completed
  unfold stepsLeft WorkerPhase.stepsLeft
  split <;> omega

theorem stepsLeft_resumeLoop (w : Worker) :
    w.resumeLoop.stepsLeft = 10 * (w.iterations - w.completed) + 4 := by
  unfold resumeLoop nextLine
  split <;> rfl

theorem stepsLeft_endLoop_le (w : Worker) (failure : Option WorkerError) :
    (w.endLoop failure).stepsLeft ≤ 2 := by
  unfold endLoop
  split
  · exact Nat.le_refl 2
  · exact Nat.zero_le 2

theorem stepsLeft_afterLine {line : WorkerLine} (h : w.OnCourse)
    (hw : w.phase = .reporting line) : (w.afterLine line).stepsLeft < w.stepsLeft := by
  have hleft : w.stepsLeft = (WorkerPhase.reporting line).stepsLeft (w.iterations - w.completed) :=
    congrArg (WorkerPhase.stepsLeft _) hw
  rw [hleft]
  have hcounters := h.counters
  unfold CountersAgree at hcounters
  rw [hw] at hcounters
  cases line with
  | check =>
    have hrest := hcounters.1
    cases hcaught : w.interrupted with
    | true =>
      simp only [afterLine, hcaught, if_true, stepsLeft_resumeLoop, WorkerPhase.stepsLeft]
      simp only [iterations] at hrest ⊢
      omega
    | false =>
      have hend := w.stepsLeft_endLoop_le (some (.violation (.notInterrupted w.iteration)))
      simp only [afterLine, hcaught, Bool.false_eq_true, if_false, WorkerPhase.stepsLeft]
      omega
  | done =>
    have hend := w.stepsLeft_endLoop_le none
    simp only [afterLine, WorkerPhase.stepsLeft]
    omega
  | loop => exact Nat.lt_succ_self _
  | sleep => exact Nat.lt_succ_self _
  | caught | acknowledge =>
    have hrest := hcounters.1
    simp only [afterLine, stepsLeft, WorkerPhase.stepsLeft, iterations] at hrest ⊢
    omega

/-- The worker runs its iterations. -/
def isLooping (w : Worker) : Bool :=
  match w.phase with
  | .reporting _ | .sleeping | .asleep | .reading | .acknowledging => true
  | _ => false

/-- A loop that ends has had more to do. -/
theorem stepsLeft_endLoop (h : w.OnCourse) (hw : w.isLooping = true)
    (failure : Option WorkerError) : (w.endLoop failure).stepsLeft < w.stepsLeft := by
  refine Nat.lt_of_le_of_lt (w.stepsLeft_endLoop_le failure) ?_
  have hcounters := h.counters
  unfold CountersAgree at hcounters
  unfold stepsLeft
  cases hp : w.phase with
  | reporting line =>
    rw [hp] at hcounters
    cases line <;> simp only [WorkerPhase.stepsLeft] at hcounters ⊢ <;> omega
  | sleeping | asleep | reading | acknowledging =>
    rw [hp] at hcounters
    simp only [WorkerPhase.stepsLeft]
    omega
  | _ => simp [isLooping, hp] at hw

theorem stepsLeft_slept {result : Except WaitError SleepOutcome}
    (h : w.OnCourse) (hw : w.phase = .sleeping ∨ w.phase = .asleep)
    (hs : w.step (.slept result) = some w') : w'.stepsLeft < w.stepsLeft := by
  have hmore : 10 * (w.iterations - w.completed) + 1 ≤ w.stepsLeft := by
    unfold stepsLeft
    rcases hw with hw | hw <;> rw [hw] <;> simp only [WorkerPhase.stepsLeft] <;> omega
  rcases step_slept hw hs with ⟨e, -, rfl⟩ | ⟨-, rfl⟩ | ⟨-, rfl⟩
  · exact stepsLeft_endLoop h (by rcases hw with hw | hw <;> simp [isLooping, hw]) _
  · refine Nat.lt_of_lt_of_le ?_ hmore
    exact Nat.lt_succ_of_le (Nat.sub_le _ _)
  · exact hmore

/-- Whatever happens to a worker, less can happen to it afterwards. -/
theorem stepsLeft_step {event : WorkerEvent} (h : w.OnCourse) (hs : w.step event = some w') :
    w'.stepsLeft < w.stepsLeft := by
  have hleft (p : WorkerPhase) (hw : w.phase = p) :
      w.stepsLeft = p.stepsLeft (w.iterations - w.completed) := by rw [stepsLeft, hw]
  unfold step at hs
  split at hs
  next hw =>
    obtain rfl := Option.some.inj hs
    rw [stepsLeft_resumeLoop, hleft _ hw]
    exact Nat.lt_succ_of_lt (Nat.lt_succ_self _)
  next hw =>
    obtain rfl := Option.some.inj hs
    rw [hleft _ hw]
    exact Nat.succ_pos _
  next line hw =>
    obtain rfl := Option.some.inj hs
    exact stepsLeft_afterLine h hw
  next line hw =>
    obtain rfl := Option.some.inj hs
    exact stepsLeft_endLoop h (by simp [isLooping, hw]) _
  next hw =>
    obtain rfl := Option.some.inj hs
    rw [hleft _ hw]
    exact Nat.lt_succ_self _
  next hw => exact stepsLeft_slept h (.inl hw) (by simpa [step, hw] using hs)
  next hw => exact stepsLeft_slept h (.inr hw) (by simpa [step, hw] using hs)
  next pending hw =>
    have hs : w.step (.read pending) = some w' := by simpa [step, hw] using hs
    have hrest := (h.awake (.inl hw)).1
    rcases step_read hw hs with ⟨-, -, rfl⟩ | ⟨-, -, rfl⟩ | ⟨-, rfl⟩
    · exact stepsLeft_endLoop h (by simp [isLooping, hw]) _
    · rw [hleft _ hw]
      simp only [stepsLeft, WorkerPhase.stepsLeft, iterations] at hrest ⊢
      omega
    · rw [hleft _ hw]
      simp only [stepsLeft, WorkerPhase.stepsLeft, iterations] at hrest ⊢
      omega
  next hw =>
    obtain rfl := Option.some.inj hs
    have hrest := (h.awake (.inr hw)).1
    rw [hleft _ hw]
    simp only [stepsLeft, WorkerPhase.stepsLeft, iterations] at hrest ⊢
    omega
  next hw =>
    obtain rfl := Option.some.inj hs
    exact stepsLeft_endLoop h (by simp [isLooping, hw]) _
  next hw =>
    obtain rfl := Option.some.inj hs
    rw [hleft _ hw]
    exact Nat.lt_succ_self _
  next hw =>
    obtain rfl := Option.some.inj hs
    rw [hleft _ hw]
    exact Nat.succ_pos _
  next hw =>
    obtain rfl := Option.some.inj hs
    rw [hleft _ hw]
    exact Nat.succ_pos _
  next hw =>
    obtain rfl := Option.some.inj hs
    rw [hleft _ hw]
    exact Nat.succ_pos _
  next => cases hs

end Worker

/-- How many turns a precise generator can take at most before it waits un-notified. -/
def Generator.turnsLeft (g : Generator) (r : Rendezvous) : Nat :=
  match g.phase with
  | .entering => 3 * r.acked.toNat + 4
  | .sending => 3 * r.acked.toNat + 3
  | .looking => 3 * r.acked.toNat + 1
  | .parked => if r.parked then 0 else 3 * r.acked.toNat + 2
  | _ => 0

theorem Generator.turnsLeft_le (g : Generator) (r : Rendezvous) : g.turnsLeft r ≤ 7 := by
  have hacked := Bool.toNat_le r.acked
  unfold turnsLeft
  split
  case h_4 => split <;> omega
  all_goals omega

namespace LocalRun

variable {s s' : LocalRun} {m : LocalMove}

/-- How many moves can be made at most before something happens to the worker. -/
def turnsLeft (s : LocalRun) : Nat :=
  (s.worker.phase = .asleep && !s.token.isWaiting owner).toNat +
    (s.generator.map (·.turnsLeft s.rendezvous)).getD 0

/-- How many moves can be made at most. -/
def rank (s : LocalRun) : Nat := 9 * s.worker.stepsLeft + s.turnsLeft

theorem turnsLeft_le (s : LocalRun) : s.turnsLeft ≤ 8 := by
  have hdrowsy := Bool.toNat_le (s.worker.phase = .asleep && !s.token.isWaiting owner)
  unfold turnsLeft
  cases s.generator with
  | none => exact Nat.le_trans hdrowsy (by decide)
  | some g =>
    have hturns := g.turnsLeft_le s.rendezvous
    simp only [Option.map_some, Option.getD_some]
    omega

theorem rank_le (s : LocalRun) : s.rank ≤ 90 * s.worker.iterations + 62 := by
  have hsteps := s.worker.stepsLeft_le
  have hturns := s.turnsLeft_le
  unfold rank
  omega

/-- As long as nothing cuts a wait short, every move brings a precise run nearer to its end. -/
theorem rank_transition (h : s.Regular) (hmode : s.mode = .precise) (ht : s.Transition m s')
    (hm : m.isPrompt = true) : s'.rank < s.rank := by
  have hsteps (event : WorkerEvent) (hs : s.worker.step event = some s'.worker) :
      s'.rank < s.rank := by
    have hless := Worker.stepsLeft_step h.course hs
    have hturns := s'.turnsLeft_le
    unfold rank
    omega
  have hturns (hw : s'.worker = s.worker) (hless : s'.turnsLeft < s.turnsLeft) :
      s'.rank < s.rank := by
    unfold rank
    rw [hw]
    omega
  have ho := h.order (by simp [hmode, Mode.hasLocalGenerator])
  have hnever {g : Generator} (hg : s.generator = some g) :
      g.phase = .pausing ∨ g.phase = .asleep → False :=
    (ho.coordinated hg).never_pauses ((ho.coordinated hg).strategy.trans hmode)
  cases ht with
  | start hw => exact hsteps (.started (.ok ())) (by simp [Worker.step, hw])
  | failStart => cases hm
  | takeLine line hw => exact hsteps (.reported true) (by simp [Worker.step, hw])
  | refuseLine => cases hm
  | doze hw => exact hsteps .dozed (by simp [Worker.step, hw])
  | dozeOn hw hclear hwoken =>
    refine hturns rfl ?_
    simp [turnsLeft, hw, hwoken, Token.isWaiting_look, hclear]
  | wake _ _ hw =>
    refine hsteps (.slept (.ok .interrupted)) ?_
    rcases hw with hw | hw <;> simp [Worker.step, hw]
  | oversleep => cases hm
  | endSleep => cases hm
  | read _ told _ hw w hs => exact hsteps _ hs
  | acknowledge hw => exact hsteps (.acknowledged (.ok ())) (by simp [Worker.step, hw])
  | failAcknowledge _ _ hpoisoned => simp [h.sound] at hpoisoned
  | stop failure hw => exact hsteps (.stopped (.ok ())) (by simp [Worker.step, hw])
  | failStop _ _ _ _ hpoisoned => simp [h.sound] at hpoisoned
  | join failure hw g hg sent => exact hsteps (.joined (.ok sent)) (by simp [Worker.step, hw])
  | failJoin failure hw g hg e => exact hsteps (.joined (.error e)) (by simp [Worker.step, hw])
  | enter g hg hp =>
    refine hturns rfl ?_
    simp [turnsLeft, hg, Generator.turnsLeft, hp]
  | reenter g hg hp hwoken =>
    refine hturns rfl ?_
    simp [turnsLeft, hg, Generator.turnsLeft, hp, hwoken]
  | failEnter _ _ _ _ hpoisoned => simp [h.sound] at hpoisoned
  | send g hg hp =>
    -- the interrupt may wake the worker up
    have hprecise : g.strategy = .precise := (ho.coordinated hg).strategy.trans hmode
    refine hturns rfl ?_
    have hdrowsy := Bool.toNat_le (s.worker.phase = .asleep)
    simp [turnsLeft, hg, Generator.turnsLeft, hp, Generator.afterSending, hprecise]
    omega
  | seeAck g hg hp hacked =>
    refine hturns rfl ?_
    simp [turnsLeft, hg, Generator.turnsLeft, hp, hacked]
  | seeStop g hg hp =>
    refine hturns rfl ?_
    simp [turnsLeft, hg, Generator.turnsLeft, hp]
  | park g hg hp =>
    refine hturns rfl ?_
    simp [turnsLeft, hg, Generator.turnsLeft, hp]
  | pause g hg hp => exact (hnever hg (.inl hp)).elim
  | pauseOn g hg hp => exact (hnever hg (.inr hp)).elim
  | breakPause _ _ g _ hg hp => exact (hnever hg hp).elim
  | pauseOver g hg hp => exact (hnever hg hp).elim
  | stirWorker | stirPause | stirParked | interrupt | crash => cases hm

/-! ## Whole runs -/

variable {settings : WorkerSettings} {history : List (LocalRun × LocalMove)}

theorem dozing_of_own (hrun : Execution LocalRun.step (.start settings) history s)
    (hown : ∀ e ∈ history, e.2.isOwn = true) : s.Dozing := by
  refine hrun.invariant (P := fun _ s => s.Dozing) hown ?_ ?_
  · exact dozing_of_awake rfl
  · intro history s m s' hm h hs
    exact dozing_transition h (transition_of_step hs) hm

/-- From a regular state on, a run in which nothing cuts a wait short uses up its rank. -/
theorem length_add_rank_le (h : s.Regular) (hmode : s.mode = .precise)
    (hrun : Execution LocalRun.step s history s') (hprompt : ∀ e ∈ history, e.2.isPrompt = true) :
    history.length + s'.rank ≤ s.rank := by
  have hinv := hrun.invariant (P := fun history s' => s'.Regular ∧ s'.mode = .precise ∧
    history.length + s'.rank ≤ s.rank) hprompt ⟨h, hmode, by simp⟩ ?_
  · exact hinv.2.2
  · rintro history s₁ m s₂ hm ⟨h, hmode, hle⟩ hs
    have ht := transition_of_step hs
    have hless := rank_transition h hmode ht hm
    refine ⟨regular_transition h ht (LocalMove.isRegular_of_isOwn (LocalMove.isOwn_of_isPrompt hm)),
      (mode_transition ht).trans hmode, ?_⟩
    simp only [List.length_cons]
    omega

/-- The worker waits in its sleep and has not been notified. -/
def workerWaits (s : LocalRun) : Bool := s.worker.phase = .asleep && s.token.isWaiting owner

/-- The generator waits for an acknowledgement and has not been notified. -/
def generatorWaits (s : LocalRun) : Bool :=
  s.generator.map Generator.phase = some .parked && s.rendezvous.parked

/-- A precise run is never stuck before the worker has returned, not even if no sleep runs to its
end, no wait ends for no reason and the probe answers as it likes: the two never wait for each
other, the generator is notified of every acknowledgement and of its stop, and is not waited for
while it waits.  If nothing cuts a wait short and the probe is not detached the run comes to its
end, and ends well. -/
theorem precise_progress (hmode : settings.mode = .precise) :
    (∀ history s, Execution LocalRun.step (.start settings) history s →
      (∀ e ∈ history, e.2.isOwn = true) → s.worker.result? = none →
        (∀ accepted, (s.step (.report accepted)).isSome = true ∨
          ∃ thread, (s.step (.advance thread)).isSome = true) ∧
        ¬(s.workerWaits = true ∧ s.generatorWaits = true) ∧
        ¬(s.generatorWaits = true ∧ (s.rendezvous.acked = true ∨ s.stop.pending = true)) ∧
        ¬(s.generatorWaits = true ∧ ∃ failure, s.worker.phase = .joining failure)) ∧
    (∀ history s, Execution LocalRun.step (.start settings) history s →
      (∀ e ∈ history, e.2.isOwn = true) →
      ∀ later s', Execution LocalRun.step s later s' → (∀ e ∈ later, e.2.isPrompt = true) →
        later.length ≤ 90 * settings.iterations.toNat + 62) ∧
    (∀ history s, Execution LocalRun.step (.start settings) history s →
      (∀ e ∈ history, e.2.isPrompt = true) → (∀ m, m.isPrompt = true → s.step m = none) →
        ∃ report, s.worker.result? = some (.ok report)) := by
  have hregular {history : List (LocalRun × LocalMove)} {s : LocalRun}
      (hrun : Execution LocalRun.step (.start settings) history s)
      (hown : ∀ e ∈ history, e.2.isOwn = true) :
      s.mode = .precise ∧ s.worker.iterations = settings.iterations.toNat ∧ s.Regular ∧
        Explained history s := by
    obtain ⟨rfl, hr, hx⟩ := regular_and_explained hrun fun e he =>
      LocalMove.isRegular_of_isOwn (hown e he)
    exact ⟨hmode, rfl, hr, hx⟩
  refine ⟨?_, ?_, ?_⟩
  · intro history s hrun hown hrunning
    obtain ⟨hmode, -, hr, -⟩ := hregular hrun hown
    have hd := dozing_of_own hrun hown
    have ho := hr.order (by simp [hmode, Mode.hasLocalGenerator])
    have hparked (hwaits : s.generatorWaits = true) : ∃ g, s.generator = some g ∧
        Coordinated s.worker g s.rendezvous s.stop ∧ g.phase = .parked ∧
        s.rendezvous.parked = true := by
      simp only [generatorWaits, Bool.and_eq_true, decide_eq_true_eq,
        Option.map_eq_some_iff] at hwaits
      obtain ⟨⟨g, hg, hp⟩, hwaits⟩ := hwaits
      exact ⟨g, hg, ho.coordinated hg, hp, hwaits⟩
    refine ⟨exists_step hr hd hmode hrunning, ?_, ?_, ?_⟩
    · rintro ⟨hworker, hgenerator⟩
      obtain ⟨g, hg, hc, hp, hwaits⟩ := hparked hgenerator
      simp only [workerWaits, Bool.and_eq_true, decide_eq_true_eq] at hworker
      obtain ⟨hw, hwaiting⟩ := hworker
      -- nobody has the baton
      have hbaton := ((hr.balance hmode).balanced hg (by simp [Worker.failure?, hw])).baton
      simp [Generator.aboutToSend, hp, (hd hwaiting).2, Worker.owesAck, hw,
        (hc.parked hwaits).2.1] at hbaton
    · rintro ⟨hgenerator, hset⟩
      obtain ⟨g, hg, hc, hp, hwaits⟩ := hparked hgenerator
      obtain ⟨-, hacked, hstop⟩ := hc.parked hwaits
      simp [hacked, hstop] at hset
    · rintro ⟨hgenerator, failure, hw⟩
      obtain ⟨g, hg, hc, hp, hwaits⟩ := hparked hgenerator
      simp [unparked_of_stopped hc (by simp [Worker.hasStopped, hw])] at hwaits
  · intro history s hrun hown later s' hlater hprompt
    obtain ⟨hmode, hall, hr, -⟩ := hregular hrun hown
    have hused := length_add_rank_le hr hmode hlater hprompt
    have hrank := s.rank_le
    omega
  · intro history s hrun hprompt hstuck
    have hown : ∀ e ∈ history, e.2.isOwn = true := fun e he =>
      LocalMove.isOwn_of_isPrompt (hprompt e he)
    obtain ⟨hmode, -, hr, hx⟩ := hregular hrun hown
    cases hresult : s.worker.result? with
    | none =>
      have hd := dozing_of_own hrun hown
      rcases exists_step hr hd hmode hresult true with h | ⟨thread, h⟩
      · simp [hstuck (.report true) rfl] at h
      · simp [hstuck (.advance thread) rfl] at h
    | some result =>
      cases result with
      | ok report => exact ⟨report, rfl⟩
      | error e =>
        have hfailed : s.worker.failure? = some e := by
          rw [Worker.failure?, Worker.phase_of_result? hresult]
        rcases hx.failed e hfailed with ⟨-, e', he', hrefused⟩ | ⟨-, e', he', hslept, -⟩
        · have hm := hprompt e' he'
          rw [hrefused] at hm
          cases hm
        · have hm := hprompt e' he'
          rw [hslept] at hm
          cases hm

/-- A worker asleep, and the generator about to send. -/
theorem precise_progress_asleep :
    ∃ history s,
      Execution LocalRun.step (.start ⟨.precise, 1, .ofMillis 10, .ofMillis 1⟩) history s ∧
      s.workerWaits = true ∧ s.generatorWaits = false ∧
      ∃ thread, (s.step (.advance thread)).isSome = true := by
  have hrun := Execution.of_replay (.nil : Execution LocalRun.step
      (.start ⟨.precise, 1, .ofMillis 10, .ofMillis 1⟩) [] _)
    [.advance .worker, .report true, .report true, .advance .worker, .advance .generator] rfl
  obtain ⟨hgo, hboth, -, -⟩ := (precise_progress rfl).1 _ _ hrun (by decide) rfl
  refine ⟨_, _, hrun, rfl, eq_false_of_ne_true fun hwaits => hboth ⟨rfl, hwaits⟩, ?_⟩
  exact (hgo true).resolve_left (by decide)

end LocalRun

end InterruptStress
