import InterruptStress.Proofs.Worker.Course

/-!
# How a worker and its generator are coordinated

Two threads meet at the rendezvous and at the generator's token.  `Coordinated` says what holds
between them from the moment at which the generator has been started: who has the rendezvous in
hand, who waits un-notified and what is then not pending, and that the generator has been told
to stop, or has ended, exactly when the worker is past telling it.  Every move keeps this as
long as threads start and do not panic (`LocalRun.inOrder_transition`); the worker's token
and its probe may answer as they like.
-/

namespace InterruptStress

/-! ## The worker past its loop -/

namespace Worker

/-- The worker has told its generator to stop. -/
def hasStopped (w : Worker) : Bool :=
  match w.phase with
  | .joining _ | .finished _ => true
  | _ => false

variable {w w' : Worker}

theorem phase_endLoop (hlocal : w.settings.mode.hasLocalGenerator = true)
    (failure : Option WorkerError) : (w.endLoop failure).phase = .stopping failure := by
  simp [endLoop, hlocal]

/-- With a generator of its own, a worker never gets from a line past its loop. -/
theorem hasStopped_afterLine (hlocal : w.settings.mode.hasLocalGenerator = true)
    (line : WorkerLine) :
    (w.afterLine line).hasStopped = false ∧ (w.afterLine line).phase ≠ .starting := by
  cases line with
  | check =>
    cases hcaught : w.interrupted <;>
      simp [afterLine, hcaught, hasStopped, resumeLoop, phase_endLoop hlocal]
  | done => simp [afterLine, hasStopped, phase_endLoop hlocal]
  | _ => simp [afterLine, hasStopped]

/-- What a sleep that has ended makes of the worker. -/
theorem step_slept {result : Except WaitError SleepOutcome}
    (hw : w.phase = .sleeping ∨ w.phase = .asleep) (hs : w.step (.slept result) = some w') :
    (∃ e, result = .error e ∧ w' = w.endLoop (some (.wait e))) ∨
      (result = .ok .completed ∧ w' = { w with phase := .reporting .check }) ∨
      (result = .ok .interrupted ∧ w' = { w with phase := .reporting .caught }) := by
  rcases result with e | _ | _ <;> rcases hw with hw | hw <;> simpa [step, hw] using hs.symm

/-- What the status makes of the worker. -/
theorem step_read {told : Bool} (hw : w.phase = .reading) (hs : w.step (.read told) = some w') :
    (w.settings.mode = .precise ∧ told = true ∧
        w' = w.endLoop (some (.violation (.statusNotCleared w.iteration)))) ∨
      (w.settings.mode = .precise ∧ told = false ∧
        w' = { w with phase := .reporting .acknowledge }) ∨
      (w.settings.mode ≠ .precise ∧ w' = { w with phase := .reporting .check }) := by
  by_cases hmode : w.settings.mode = .precise
  · cases told <;> simpa [step, hw, hmode] using hs.symm
  · simpa [step, hw, hmode] using hs.symm

end Worker

/-! ## The invariant -/

/-- What holds between a worker and its generator, the rendezvous and the generator's token. -/
structure Coordinated (w : Worker) (g : Generator) (r : Rendezvous) (stop : Token) : Prop where
  begun : w.phase ≠ .starting
  strategy : g.strategy = w.settings.mode
  isLocal : g.strategy.hasLocalGenerator = true
  pauses : g.phase = .pausing ∨ g.phase = .asleep → g.strategy = .aggressive
  meets : g.phase = .entering ∨ g.phase = .looking ∨ g.phase = .parked → g.strategy = .precise
  sound : r.poisoned = false
  held : r.held = true ↔ g.strategy = .precise ∧ (g.phase = .sending ∨ g.phase = .looking)
  /-- Whoever waits un-notified at the rendezvous has nothing to wake up for. -/
  parked : r.parked = true → g.phase = .parked ∧ r.acked = false ∧ stop.pending = false
  pausing : stop.isWaiting LocalRun.owner = true → g.phase = .asleep ∧ stop.pending = false
  stopped : w.hasStopped = true ↔ stop.pending = true ∨ g.result?.isSome = true
  returned : w.result?.isSome = true → g.result?.isSome = true
  succeeds : ∀ result, g.phase = .finished result → result = .ok g.sent
  /-- The worker reports as many interrupts as its generator has sent. -/
  reports : ∀ report, w.phase = .finished (.ok report) →
    report.interruptsSent = some (.ofNat g.sent)

namespace Coordinated

variable {w w' : Worker} {g : Generator} {r : Rendezvous} {stop : Token}

theorem unparked (h : Coordinated w g r stop) (hp : g.phase ≠ .parked) : r.parked = false :=
  eq_false_of_ne_true fun hparked => hp (h.parked hparked).1

theorem unpaused (h : Coordinated w g r stop) (hp : g.phase ≠ .asleep) :
    stop.isWaiting LocalRun.owner = false :=
  eq_false_of_ne_true fun hw => hp (h.pausing hw).1

/-- In precise mode a generator does not pause. -/
theorem never_pauses (h : Coordinated w g r stop) (hprecise : g.strategy = .precise)
    (hp : g.phase = .pausing ∨ g.phase = .asleep) : False := by
  have hmixed : Mode.aggressive = .precise := (h.pauses hp).symm.trans hprecise
  cases hmixed

/-- What a worker does before it stops its generator is its own affair. -/
theorem frame (h : Coordinated w g r stop) (hs : w.hasStopped = false)
    (hset : w'.settings = w.settings) (hs' : w'.hasStopped = false) (hb : w'.phase ≠ .starting) :
    Coordinated w' g r stop where
  begun := hb
  strategy := hset ▸ h.strategy
  isLocal := h.isLocal
  pauses := h.pauses
  meets := h.meets
  sound := h.sound
  held := h.held
  parked := h.parked
  pausing := h.pausing
  stopped := by rw [hs', ← hs, h.stopped]
  returned := by
    intro hr
    have hnone : w'.result? = none := by
      unfold Worker.hasStopped at hs'
      unfold Worker.result?
      split <;> simp_all
    simp [hnone] at hr
  succeeds := h.succeeds
  reports := fun report hp => by simp [Worker.hasStopped, hp] at hs'

theorem frame_endLoop (h : Coordinated w g r stop) (hs : w.hasStopped = false)
    (failure : Option WorkerError) : Coordinated (w.endLoop failure) g r stop := by
  have hphase := Worker.phase_endLoop (h.strategy ▸ h.isLocal) failure
  exact h.frame hs (by simp) (by simp [Worker.hasStopped, hphase]) (by simp [hphase])

/-- A generator that has just been started. -/
theorem init (hlocal : w.settings.mode.hasLocalGenerator = true) :
    Coordinated w.resumeLoop (.start w.settings.mode) .new .new where
  begun := by simp [Worker.resumeLoop]
  strategy := rfl
  isLocal := hlocal
  pauses := by
    intro hp
    simp only [Generator.start] at hp
    split at hp <;> simp at hp
  meets := by
    intro hp
    simp only [Generator.start] at hp ⊢
    split at hp <;> simp_all
  sound := rfl
  held := by
    simp only [Generator.start, Rendezvous.new]
    split <;> simp_all
  parked := by simp [Rendezvous.new]
  pausing := by simp [Token.new, Token.isWaiting]
  stopped := by
    have hr : (Generator.start w.settings.mode).result? = none := by
      by_cases hmode : w.settings.mode = .precise <;>
        simp [Generator.start, Generator.result?, hmode]
    simp [Worker.hasStopped, Worker.resumeLoop, Token.new, hr]
  returned := by simp [Worker.resumeLoop, Worker.result?]
  succeeds := by
    intro result hp
    simp only [Generator.start] at hp
    split at hp <;> cases hp
  reports := by simp [Worker.resumeLoop]

/-- A turn of the generator that does not end it: it changes the phase, and with it whether the
rendezvous is held and who waits un-notified. -/
theorem turn (h : Coordinated w g r stop) (hp : g.result? = none) {p : GeneratorPhase}
    {sent : Nat} {r' : Rendezvous} {stop' : Token}
    (hpauses : p = .pausing ∨ p = .asleep → g.strategy = .aggressive)
    (hmeets : p = .entering ∨ p = .looking ∨ p = .parked → g.strategy = .precise)
    (hgoing : ∀ result, p ≠ .finished result)
    (hsound : r'.poisoned = r.poisoned)
    (hheld : r'.held = true ↔ g.strategy = .precise ∧ (p = .sending ∨ p = .looking))
    (hparked : r'.parked = true → p = .parked ∧ r'.acked = false ∧ stop'.pending = false)
    (hpending : stop'.pending = stop.pending)
    (hpausing : stop'.isWaiting LocalRun.owner = true → p = .asleep ∧ stop'.pending = false) :
    Coordinated w { g with phase := p, sent } r' stop' where
  begun := h.begun
  strategy := h.strategy
  isLocal := h.isLocal
  pauses := hpauses
  meets := hmeets
  sound := hsound.trans h.sound
  held := hheld
  parked := hparked
  pausing := hpausing
  stopped := by
    have hnone : Generator.result? { g with phase := p, sent } = none := by
      unfold Generator.result?
      split
      · next result hresult => exact absurd hresult (hgoing result)
      · rfl
    rw [hnone, hpending, h.stopped, hp]
  returned := fun hr => by simpa [hp] using h.returned hr
  succeeds := fun result hresult => absurd hresult (hgoing result)
  reports := fun report hw => by
    have hdone := h.returned (by simp [Worker.result?, hw])
    simp [hp] at hdone

/-- A stop ends the generator well. -/
theorem finish (h : Coordinated w g r stop) (hset : stop.pending = true) {r' : Rendezvous}
    {stop' : Token} (hsound : r'.poisoned = r.poisoned) (hheld : r'.held = false)
    (hparked : r'.parked = false) (hwaiting : stop'.isWaiting LocalRun.owner = false) :
    Coordinated w { g with phase := .finished (.ok g.sent) } r' stop' where
  begun := h.begun
  strategy := h.strategy
  isLocal := h.isLocal
  pauses := by simp
  meets := by simp
  sound := hsound.trans h.sound
  held := by simp [hheld]
  parked := by simp [hparked]
  pausing := by simp [hwaiting]
  stopped := by simp [h.stopped, hset, Generator.result?]
  returned := by simp [Generator.result?]
  succeeds := by simp
  reports := h.reports

end Coordinated

/-- A thread starts, and does not panic. -/
def LocalMove.isSound : LocalMove → Bool
  | .crash | .failStart _ => false
  | _ => true

namespace LocalRun

/-- Worker and generator are coordinated, or the generator is still to be started. -/
def InOrder (s : LocalRun) : Prop :=
  match s.generator with
  | none =>
    s.worker.phase = .starting ∧ s.mode.hasLocalGenerator = true ∧ s.rendezvous = .new ∧
      s.stop = .new
  | some g => Coordinated s.worker g s.rendezvous s.stop

variable {s s' : LocalRun} {m : LocalMove}

theorem InOrder.coordinated (h : s.InOrder) {g : Generator} (hg : s.generator = some g) :
    Coordinated s.worker g s.rendezvous s.stop := by
  unfold InOrder at h
  rwa [hg] at h

theorem InOrder.starting (h : s.InOrder) (hg : s.generator = none) :
    s.worker.phase = .starting ∧ s.mode.hasLocalGenerator = true ∧ s.rendezvous = .new ∧
      s.stop = .new := by
  unfold InOrder at h
  rwa [hg] at h

/-- A worker that is yet to start its generator has none. -/
theorem InOrder.unstarted (h : s.InOrder) (hw : s.worker.phase = .starting) :
    s.generator = none := by
  cases hg : s.generator with
  | none => rfl
  | some g => exact absurd hw (h.coordinated hg).begun

/-- A worker that is past its start has a generator. -/
theorem InOrder.exists_generator (h : s.InOrder) (hw : s.worker.phase ≠ .starting) :
    ∃ g, s.generator = some g := by
  cases hg : s.generator with
  | none => exact absurd (h.starting hg).1 hw
  | some g => exact ⟨g, rfl⟩

theorem inOrder_of {g : Generator} (hg : s.generator = some g)
    (h : Coordinated s.worker g s.rendezvous s.stop) : s.InOrder := by
  unfold InOrder
  rwa [hg]

/-- A move of the worker before it stops its generator, if it touches nothing that the generator
looks at. -/
theorem InOrder.frame (h : s.InOrder) (hs : s.worker.hasStopped = false)
    (hw : s.worker.phase ≠ .starting)
    (hsame : s'.generator = s.generator ∧ s'.rendezvous = s.rendezvous ∧ s'.stop = s.stop)
    (hset : s'.worker.settings = s.worker.settings) (hs' : s'.worker.hasStopped = false)
    (hb : s'.worker.phase ≠ .starting) : s'.InOrder := by
  obtain ⟨g, hg⟩ := h.exists_generator hw
  refine inOrder_of (hsame.1.trans hg) ?_
  rw [hsame.2.1, hsame.2.2]
  exact (h.coordinated hg).frame hs hset hs' hb

theorem InOrder.frame_endLoop (h : s.InOrder) (hs : s.worker.hasStopped = false)
    (hw : s.worker.phase ≠ .starting) (failure : Option WorkerError) :
    InOrder { s with worker := s.worker.endLoop failure } := by
  obtain ⟨g, hg⟩ := h.exists_generator hw
  exact inOrder_of hg ((h.coordinated hg).frame_endLoop hs failure)

/-- Every move keeps the order between worker and generator. -/
theorem inOrder_transition (h : s.InOrder) (ht : s.Transition m s') (hm : m.isSound = true) :
    s'.InOrder := by
  cases ht with
  | start hw =>
    cases hg : s.generator with
    | some g => exact absurd hw (h.coordinated hg).begun
    | none =>
      obtain ⟨-, hlocal, hr, hstop⟩ := h.starting hg
      refine inOrder_of rfl ?_
      rw [hr, hstop]
      exact .init hlocal
  | failStart => cases hm
  | takeLine line hw =>
    obtain ⟨g, hg⟩ := h.exists_generator (by simp [hw])
    have hc := h.coordinated hg
    obtain ⟨hs', hb⟩ := Worker.hasStopped_afterLine (hc.strategy ▸ hc.isLocal) line
    exact h.frame (by simp [Worker.hasStopped, hw]) (by simp [hw]) ⟨rfl, rfl, rfl⟩ (by simp) hs' hb
  | refuseLine line hw => exact h.frame_endLoop (by simp [Worker.hasStopped, hw]) (by simp [hw]) _
  | doze hw =>
    exact h.frame (by simp [Worker.hasStopped, hw]) (by simp [hw]) ⟨rfl, rfl, rfl⟩ rfl rfl (by simp)
  | dozeOn => exact h
  | wake _ _ hw =>
    exact h.frame (by rcases hw with hw | hw <;> simp [Worker.hasStopped, hw])
      (by rcases hw with hw | hw <;> simp [hw]) ⟨rfl, rfl, rfl⟩ rfl rfl (by simp)
  | oversleep hw =>
    exact h.frame (by rcases hw with hw | hw <;> simp [Worker.hasStopped, hw])
      (by rcases hw with hw | hw <;> simp [hw]) ⟨rfl, rfl, rfl⟩ rfl rfl (by simp)
  | endSleep result w hw hs =>
    have hlooping : s.worker.hasStopped = false ∧ s.worker.phase ≠ .starting := by
      rcases hw with hw | hw <;> simp [Worker.hasStopped, hw]
    rcases Worker.step_slept hw hs with ⟨e, -, rfl⟩ | ⟨-, rfl⟩ | ⟨-, rfl⟩
    · exact h.frame_endLoop hlooping.1 hlooping.2 _
    · exact h.frame hlooping.1 hlooping.2 ⟨rfl, rfl, rfl⟩ rfl rfl (by simp)
    · exact h.frame hlooping.1 hlooping.2 ⟨rfl, rfl, rfl⟩ rfl rfl (by simp)
  | read _ _ _ hw w hs =>
    have hlooping : s.worker.hasStopped = false ∧ s.worker.phase ≠ .starting := by
      simp [Worker.hasStopped, hw]
    rcases Worker.step_read hw hs with ⟨-, -, rfl⟩ | ⟨-, -, rfl⟩ | ⟨-, rfl⟩
    · exact h.frame_endLoop hlooping.1 hlooping.2 _
    · exact h.frame hlooping.1 hlooping.2 ⟨rfl, rfl, rfl⟩ rfl rfl (by simp)
    · exact h.frame hlooping.1 hlooping.2 ⟨rfl, rfl, rfl⟩ rfl rfl (by simp)
  | acknowledge hw =>
    obtain ⟨g, hg⟩ := h.exists_generator (by simp [hw])
    have hc : Coordinated { s.worker with phase := .reporting .check } g s.rendezvous s.stop :=
      (h.coordinated hg).frame (by simp [Worker.hasStopped, hw]) rfl rfl (by simp)
    exact inOrder_of hg { hc with parked := by simp }
  | failAcknowledge hw _ hpoisoned =>
    obtain ⟨g, hg⟩ := h.exists_generator (by simp [hw])
    simp [(h.coordinated hg).sound] at hpoisoned
  | stop failure hw r hr =>
    obtain ⟨g, hg⟩ := h.exists_generator (by simp [hw])
    have hc := h.coordinated hg
    have hparked : r.parked = false := by
      rcases hr with ⟨-, -, -, rfl⟩ | ⟨hmode, rfl⟩
      · rfl
      · refine eq_false_of_ne_true fun hparked => hmode ?_
        exact hc.strategy.symm.trans (hc.meets (.inr (.inr (hc.parked hparked).1)))
    have hsame : r.poisoned = s.rendezvous.poisoned ∧ r.held = s.rendezvous.held := by
      rcases hr with ⟨-, -, -, rfl⟩ | ⟨-, rfl⟩ <;> exact ⟨rfl, rfl⟩
    exact inOrder_of hg
      { hc with
        begun := by simp
        sound := hsame.1.trans hc.sound
        held := hsame.2 ▸ hc.held
        parked := by simp [hparked]
        pausing := by simp
        stopped := by simp [Worker.hasStopped]
        returned := by simp [Worker.result?]
        reports := by simp }
  | failStop failure hw hmode hfree hpoisoned =>
    obtain ⟨g, hg⟩ := h.exists_generator (by simp [hw])
    simp [(h.coordinated hg).sound] at hpoisoned
  | join failure hw g hg sent hp =>
    have hc := h.coordinated hg
    refine inOrder_of hg { hc with begun := by simp, stopped := ?_, returned := ?_, reports := ?_ }
    · rw [← hc.stopped]
      simp [Worker.hasStopped, hw]
    · simp [Generator.result?, hp]
    · intro report hreport
      have hr : s.worker.conclude failure (some sent) = .ok report := by simpa using hreport
      obtain rfl : sent = g.sent := Except.ok.inj (hc.succeeds _ hp)
      rw [Worker.report_of_conclude hr]
      rfl
  | failJoin failure hw g hg e hp => cases (h.coordinated hg).succeeds _ hp
  | enter g hg hp =>
    have hc := h.coordinated hg
    have hprecise := hc.meets (.inl hp)
    exact inOrder_of rfl (hc.turn (by simp [Generator.result?, hp]) (by simp) (by simp) (by simp)
      rfl (by simp [hprecise]) (by simp) rfl (by simp [hc.unpaused, hp]))
  | reenter g hg hp =>
    have hc := h.coordinated hg
    have hprecise := hc.meets (.inr (.inr hp))
    exact inOrder_of rfl (hc.turn (by simp [Generator.result?, hp]) (by simp) (by simp [hprecise])
      (by simp) rfl (by simp [hprecise]) (by simp) rfl (by simp [hc.unpaused, hp]))
  | failEnter g hg _ _ hpoisoned => simp [(h.coordinated hg).sound] at hpoisoned
  | send g hg hp =>
    have hc := h.coordinated hg
    have hnone : g.result? = none := by simp [Generator.result?, hp]
    have hunparked := hc.unparked (by simp [hp])
    have hunpaused := hc.unpaused (by simp [hp])
    by_cases hprecise : g.strategy = .precise
    · refine inOrder_of rfl ?_
      simp only [Generator.afterSending, if_pos hprecise]
      exact hc.turn hnone (by simp) (by simp [hprecise]) (by simp) rfl
        (by simp [hc.held, hprecise, hp]) (by simp [hunparked]) rfl (by simp [hunpaused])
    · have haggressive : g.strategy = .aggressive := by
        have hlocal := hc.isLocal
        cases hstrategy : g.strategy <;> simp_all [Mode.hasLocalGenerator]
      refine inOrder_of rfl ?_
      simp only [Generator.afterSending, if_neg hprecise]
      exact hc.turn hnone (by simp [haggressive]) (by simp) (by simp) rfl
        (by simp [hc.held, hprecise]) (by simp [hunparked]) rfl (by simp [hunpaused])
  | seeAck g hg hp =>
    have hc := h.coordinated hg
    have hprecise := hc.meets (.inr (.inl hp))
    have hunparked := hc.unparked (by simp [hp])
    exact inOrder_of rfl (hc.turn (by simp [Generator.result?, hp]) (by simp) (by simp) (by simp)
      rfl (by simp [hc.held, hprecise, hp]) (by simp [hunparked]) rfl
      (by simp [hc.unpaused, hp]))
  | seeStop g hg hp _ hstop =>
    have hc := h.coordinated hg
    have hunparked := hc.unparked (by simp [hp])
    have hunpaused := hc.unpaused (by simp [hp])
    exact inOrder_of rfl (hc.finish hstop rfl rfl hunparked hunpaused)
  | park g hg hp hacked hstop =>
    have hc := h.coordinated hg
    have hprecise := hc.meets (.inr (.inl hp))
    exact inOrder_of rfl (hc.turn (by simp [Generator.result?, hp]) (by simp) (by simp [hprecise])
      (by simp) rfl (by simp) (by simp [hacked, hstop]) rfl
      (by simp [hc.unpaused, hp]))
  | pause g hg hp hclear =>
    have hc := h.coordinated hg
    have haggressive := hc.pauses (.inl hp)
    exact inOrder_of rfl (hc.turn (by simp [Generator.result?, hp]) (by simp [haggressive])
      (by simp) (by simp) rfl (by simp [hc.held, haggressive])
      (by simp [hc.unparked, hp]) (by simp [hclear]) (by simp))
  | pauseOn g hg hp hclear =>
    have hc := h.coordinated hg
    exact inOrder_of hg { hc with
      parked := by simp [hc.unparked, hp]
      pausing := by simp [hp]
      stopped := by simpa [hclear] using hc.stopped }
  | breakPause _ _ g g' hg hp hset expired hs =>
    have hc := h.coordinated hg
    obtain rfl : { g with phase := .finished (.ok g.sent) } = g' := by
      rcases hp with hp | hp <;> simpa [Generator.step, hp, hc.isLocal] using hs
    have haggressive := hc.pauses hp
    have hfree : s.rendezvous.held = false :=
      eq_false_of_ne_true fun hheld => absurd (hc.held.mp hheld).1 (by simp [haggressive])
    have hunparked := hc.unparked (by rcases hp with hp | hp <;> simp [hp])
    exact inOrder_of rfl (hc.finish hset rfl hfree hunparked (by simp [Token.isWaiting_look, hset]))
  | pauseOver g hg hp hclear =>
    have hc := h.coordinated hg
    have haggressive := hc.pauses hp
    have hunparked := hc.unparked (by rcases hp with hp | hp <;> simp [hp])
    exact inOrder_of rfl (hc.turn (by rcases hp with hp | hp <;> simp [Generator.result?, hp])
      (by simp) (by simp) (by simp) rfl (by simp [hc.held, haggressive]) (by simp [hunparked])
      (by simp [hclear]) (by simp [Token.isWaiting_look]))
  | stirWorker => exact h
  | stirPause g hg =>
    have hc := h.coordinated hg
    exact inOrder_of hg { hc with pausing := by simp }
  | stirParked g hg =>
    have hc := h.coordinated hg
    exact inOrder_of hg { hc with parked := by simp [Rendezvous.stir] }
  | interrupt => exact h
  | crash => cases hm

end LocalRun

end InterruptStress
