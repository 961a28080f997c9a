import InterruptStress.Worker.LocalRun

/-!
# What a move makes of a worker beside its generator

`LocalRun.step` says how a move is made: which lock it takes, which flag it reads, what the
thread makes of the answer.  `LocalRun.Transition` says the same from outside, one rule for each
thing that can happen: when it can happen and what the state is afterwards.  Every later
statement about interleavings is proved by cases on it (`LocalRun.transition_of_step`), and none
opens `LocalRun.step` again.

A token is seen through two questions, whether its flag is set and whether its owner waits
un-notified; what an operation does to the answers is stated first, and then what becomes of
somebody who wants the rendezvous, and that a worker keeps its settings.
-/

namespace InterruptStress

/-! ## Results -/

theorem Generator.phase_of_result? {g : Generator} {result : Except GeneratorError Nat}
    (h : g.result? = some result) : g.phase = .finished result := by
  unfold result? at h
  split at h
  next hp => rw [hp, Option.some.inj h]
  next => cases h

theorem Worker.phase_of_result? {w : Worker} {result : Except WorkerError WorkerReport}
    (h : w.result? = some result) : w.phase = .finished result := by
  unfold result? at h
  split at h
  next hp => rw [hp, Option.some.inj h]
  next => cases h

/-! ## Tokens -/

namespace Token

variable (t : Token) (sleeper : Nat) (expired : Bool)

@[simp] theorem pending_interrupt : t.interrupt.pending = true := rfl

@[simp] theorem pending_clear : t.clear.pending = false := rfl

@[simp] theorem pending_stir : (t.stir sleeper).pending = t.pending := rfl

/-- A sleeper that has looked leaves the flag clear, whatever it found. -/
@[simp] theorem pending_look : (t.look sleeper expired).2.pending = false := by
  unfold look
  split
  · rfl
  · split <;> rfl

@[simp] theorem isWaiting_interrupt : t.interrupt.isWaiting sleeper = false := rfl

@[simp] theorem isWaiting_stir : (t.stir sleeper).isWaiting sleeper = false := by
  simp [isWaiting, stir]

theorem look_of_pending (h : t.pending = true) :
    (t.look sleeper expired).1 = some .interrupted := by
  simp [look, h]

theorem look_expired_of_clear (h : t.pending = false) :
    (t.look sleeper true).1 = some .completed := by
  simp [look, h]

theorem look_of_clear (h : t.pending = false) : (t.look sleeper false).1 = none := by
  simp [look, h]

/-- Only a sleeper that found the flag clear and time left waits. -/
theorem isWaiting_look :
    (t.look sleeper expired).2.isWaiting sleeper = (!t.pending && !expired) := by
  cases hp : t.pending <;> cases expired <;> simp [look, isWaiting, hp]

end Token

/-! ## The rendezvous -/

namespace Rendezvous

variable {r : Rendezvous} {f : Rendezvous → Rendezvous}

theorem within_of_held (hheld : r.held = true) : r.within f = none := by
  simp [within, hheld]

theorem within_of_poisoned (hfree : r.held = false) (hpoisoned : r.poisoned = true) :
    r.within f = some (.error (.poisoned .rendezvous)) := by
  simp [within, hfree, hpoisoned]

theorem within_of_free (hfree : r.held = false) (hsound : r.poisoned = false) :
    r.within f = some (.ok { f r with parked := false }) := by
  simp [within, hfree, hsound]

theorem enter_of_held (hheld : r.held = true) : r.enter = none := by
  simp [enter, hheld]

theorem enter_of_poisoned (hfree : r.held = false) (hpoisoned : r.poisoned = true) :
    r.enter = some (.error (.poisoned .rendezvous)) := by
  simp [enter, hfree, hpoisoned]

theorem enter_of_free (hfree : r.held = false) (hsound : r.poisoned = false) :
    r.enter = some (.ok { r with held := true, parked := false }) := by
  simp [enter, hfree, hsound]

theorem look_of_acked {stopped : Bool} (hacked : r.acked = true) :
    r.look stopped = (some .acknowledged, { r with acked := false }) := by
  simp [look, hacked]

theorem look_of_stopped (hacked : r.acked = false) : r.look true = (some .interrupted, r) := by
  simp [look, hacked]

theorem look_of_neither (hacked : r.acked = false) :
    r.look false = (none, { r with held := false, parked := true }) := by
  simp [look, hacked]

end Rendezvous

/-! ## Settings -/

namespace Worker

variable {w w' : Worker}

@[simp] theorem settings_resumeLoop : w.resumeLoop.settings = w.settings := rfl

@[simp] theorem settings_endLoop (failure : Option WorkerError) :
    (w.endLoop failure).settings = w.settings := by
  unfold endLoop
  split <;> rfl

@[simp] theorem settings_afterLine (line : WorkerLine) :
    (w.afterLine line).settings = w.settings := by
  unfold afterLine
  split
  case h_5 => split <;> simp
  all_goals simp

/-- A worker's settings never change. -/
theorem settings_step {event : WorkerEvent} (hs : w.step event = some w') :
    w'.settings = w.settings := by
  unfold step at hs
  split at hs
  case h_6 | h_7 =>
    split at hs <;> obtain rfl := Option.some.inj hs <;> simp
  case h_8 =>
    split at hs
    · split at hs <;> obtain rfl := Option.some.inj hs <;> simp
    · obtain rfl := Option.some.inj hs
      rfl
  case h_15 => cases hs
  all_goals
    obtain rfl := Option.some.inj hs
    simp

end Worker

/-! ## Transitions -/

namespace LocalRun

/-- What each move can make of a worker beside its generator. -/
inductive Transition (s : LocalRun) : LocalMove → LocalRun → Prop where
  /-- The worker starts its generator. -/
  | start (hw : s.worker.phase = .starting) :
      Transition s (.advance .worker)
        { s with generator := some (.start s.mode), worker := s.worker.resumeLoop }
  | failStart (text : String) (hw : s.worker.phase = .starting) :
      Transition s (.failStart text)
        { s with worker := { s.worker with phase := .finished (.error (.spawn text)) } }
  | takeLine (line : WorkerLine) (hw : s.worker.phase = .reporting line) :
      Transition s (.report true) { s with worker := s.worker.afterLine line }
  | refuseLine (line : WorkerLine) (hw : s.worker.phase = .reporting line) :
      Transition s (.report false) { s with worker := s.worker.endLoop (some .detached) }
  /-- The worker begins to wait in its sleep. -/
  | doze (hw : s.worker.phase = .sleeping) (hclear : s.token.pending = false) :
      Transition s (.advance .worker)
        { s with
          token := (s.token.look owner false).2
          worker := { s.worker with phase := .asleep } }
  /-- The worker was woken for no reason and waits on. -/
  | dozeOn (hw : s.worker.phase = .asleep) (hclear : s.token.pending = false)
      (hwoken : s.token.isWaiting owner = false) :
      Transition s (.advance .worker) { s with token := (s.token.look owner false).2 }
  /-- An interrupt ends the worker's sleep and is used up by it. -/
  | wake (m : LocalMove) (hm : m = .advance .worker ∨ m = .expire .worker)
      (hw : s.worker.phase = .sleeping ∨ s.worker.phase = .asleep)
      (hset : s.token.pending = true) (expired : Bool) :
      Transition s m
        { s with
          token := (s.token.look owner expired).2
          worker := { s.worker with phase := .reporting .caught } }
  /-- The worker's sleep runs to its end. -/
  | oversleep (hw : s.worker.phase = .sleeping ∨ s.worker.phase = .asleep)
      (hclear : s.token.pending = false) :
      Transition s (.expire .worker)
        { s with
          token := (s.token.look owner true).2
          worker := { s.worker with phase := .reporting .check } }
  /-- A token of another make ends the worker's sleep. -/
  | endSleep (result : Except WaitError SleepOutcome) (w : Worker)
      (hw : s.worker.phase = .sleeping ∨ s.worker.phase = .asleep)
      (hs : s.worker.step (.slept result) = some w) :
      Transition s (.endSleep result) { s with worker := w }
  /-- The worker reads its status, from its token or as a token of another make tells it. -/
  | read (m : LocalMove) (told : Bool)
      (hm : m = .advance .worker ∧ told = s.token.pending ∨ m = .tellStatus told)
      (hw : s.worker.phase = .reading) (w : Worker) (hs : s.worker.step (.read told) = some w) :
      Transition s m { s with worker := w }
  | acknowledge (hw : s.worker.phase = .acknowledging) (hfree : s.rendezvous.held = false)
      (hsound : s.rendezvous.poisoned = false) :
      Transition s (.advance .worker)
        { s with
          rendezvous := { s.rendezvous with acked := true, parked := false }
          worker := { s.worker with phase := .reporting .check } }
  | failAcknowledge (hw : s.worker.phase = .acknowledging) (hfree : s.rendezvous.held = false)
      (hpoisoned : s.rendezvous.poisoned = true) :
      Transition s (.advance .worker)
        { s with worker := s.worker.endLoop (some (.wait (.poisoned .rendezvous))) }
  /-- The worker stops its generator, in precise mode under the rendezvous. -/
  | stop (failure : Option WorkerError) (hw : s.worker.phase = .stopping failure)
      (r : Rendezvous)
      (hr : s.mode = .precise ∧ s.rendezvous.held = false ∧ s.rendezvous.poisoned = false ∧
          r = { s.rendezvous with parked := false } ∨
        s.mode ≠ .precise ∧ r = s.rendezvous) :
      Transition s (.advance .worker)
        { s with
          rendezvous := r
          stop := s.stop.interrupt
          worker := { s.worker with phase := .joining failure } }
  | failStop (failure : Option WorkerError) (hw : s.worker.phase = .stopping failure)
      (hmode : s.mode = .precise) (hfree : s.rendezvous.held = false)
      (hpoisoned : s.rendezvous.poisoned = true) :
      Transition s (.advance .worker)
        { s with
          worker :=
            { s.worker with
              phase := .finished (.error (failure.getD (.wait (.poisoned .rendezvous)))) } }
  | join (failure : Option WorkerError) (hw : s.worker.phase = .joining failure) (g : Generator)
      (hg : s.generator = some g) (sent : Nat) (hp : g.phase = .finished (.ok sent)) :
      Transition s (.advance .worker)
        { s with
          worker := { s.worker with phase := .finished (s.worker.conclude failure (some sent)) } }
  | failJoin (failure : Option WorkerError) (hw : s.worker.phase = .joining failure) (g : Generator)
      (hg : s.generator = some g) (e : GeneratorError) (hp : g.phase = .finished (.error e)) :
      Transition s (.advance .worker)
        { s with
          worker :=
            { s.worker with phase := .finished (.error (failure.getD (.generator e))) } }
  /-- The generator takes the rendezvous for the first time. -/
  | enter (g : Generator) (hg : s.generator = some g) (hp : g.phase = .entering)
      (hfree : s.rendezvous.held = false) (hsound : s.rendezvous.poisoned = false) :
      Transition s (.advance .generator)
        { s with
          rendezvous := { s.rendezvous with held := true, parked := false }
          generator := some { g with phase := .sending } }
  /-- The generator was notified and takes the rendezvous again. -/
  | reenter (g : Generator) (hg : s.generator = some g) (hp : g.phase = .parked)
      (hwoken : s.rendezvous.parked = false)
      (hfree : s.rendezvous.held = false) (hsound : s.rendezvous.poisoned = false) :
      Transition s (.advance .generator)
        { s with
          rendezvous := { s.rendezvous with held := true, parked := false }
          generator := some { g with phase := .looking } }
  | failEnter (g : Generator) (hg : s.generator = some g)
      (hp : g.phase = .entering ∨ g.phase = .parked) (hfree : s.rendezvous.held = false)
      (hpoisoned : s.rendezvous.poisoned = true) :
      Transition s (.advance .generator)
        { s with
          generator := some { g with phase := .finished (.error (.wait (.poisoned .rendezvous))) } }
  | send (g : Generator) (hg : s.generator = some g) (hp : g.phase = .sending)
      (hlocal : g.strategy.hasLocalGenerator = true) :
      Transition s (.advance .generator)
        { s with
          token := s.token.interrupt
          generator :=
            some { g with sent := g.sent + 1, phase := Generator.afterSending g.strategy } }
  /-- The generator takes the acknowledgement; it does so before it takes a stop. -/
  | seeAck (g : Generator) (hg : s.generator = some g) (hp : g.phase = .looking)
      (hacked : s.rendezvous.acked = true) :
      Transition s (.advance .generator)
        { s with
          rendezvous := { s.rendezvous with acked := false }
          generator := some { g with phase := .sending } }
  | seeStop (g : Generator) (hg : s.generator = some g) (hp : g.phase = .looking)
      (hacked : s.rendezvous.acked = false) (hstop : s.stop.pending = true) :
      Transition s (.advance .generator)
        { s with
          rendezvous := s.rendezvous.leave
          stop := s.stop.clear
          generator := some { g with phase := .finished (.ok g.sent) } }
  /-- The generator gives up the rendezvous and waits. -/
  | park (g : Generator) (hg : s.generator = some g) (hp : g.phase = .looking)
      (hacked : s.rendezvous.acked = false) (hstop : s.stop.pending = false) :
      Transition s (.advance .generator)
        { s with
          rendezvous := { s.rendezvous with held := false, parked := true }
          generator := some { g with phase := .parked } }
  /-- The generator begins to wait in its pause. -/
  | pause (g : Generator) (hg : s.generator = some g) (hp : g.phase = .pausing)
      (hclear : s.stop.pending = false) :
      Transition s (.advance .generator)
        { s with
          stop := (s.stop.look owner false).2
          generator := some { g with phase := .asleep } }
  | pauseOn (g : Generator) (hg : s.generator = some g) (hp : g.phase = .asleep)
      (hclear : s.stop.pending = false) (hwoken : s.stop.isWaiting owner = false) :
      Transition s (.advance .generator) { s with stop := (s.stop.look owner false).2 }
  /-- A stop ends the generator's pause. -/
  | breakPause (m : LocalMove) (hm : m = .advance .generator ∨ m = .expire .generator)
      (g g' : Generator) (hg : s.generator = some g)
      (hp : g.phase = .pausing ∨ g.phase = .asleep) (hset : s.stop.pending = true)
      (expired : Bool) (hs : g.step (.slept (.ok .interrupted)) = some g') :
      Transition s m
        { s with stop := (s.stop.look owner expired).2, generator := some g' }
  /-- The generator's pause is over. -/
  | pauseOver (g : Generator) (hg : s.generator = some g)
      (hp : g.phase = .pausing ∨ g.phase = .asleep) (hclear : s.stop.pending = false) :
      Transition s (.expire .generator)
        { s with
          stop := (s.stop.look owner true).2
          generator := some { g with phase := .sending } }
  | stirWorker (hw : s.worker.phase = .asleep) :
      Transition s (.stir .worker) { s with token := s.token.stir owner }
  | stirPause (g : Generator) (hg : s.generator = some g) (hp : g.phase = .asleep) :
      Transition s (.stir .generator) { s with stop := s.stop.stir owner }
  | stirParked (g : Generator) (hg : s.generator = some g) (hp : g.phase = .parked) :
      Transition s (.stir .generator) { s with rendezvous := s.rendezvous.stir }
  /-- Somebody else interrupts the worker. -/
  | interrupt : Transition s .interrupt { s with token := s.token.interrupt }
  /-- The worker's token panics in the hands of the generator. -/
  | crash (g : Generator) (hg : s.generator = some g) (hp : g.phase = .sending)
      (hlocal : g.strategy.hasLocalGenerator = true) :
      Transition s .crash
        { s with
          token := s.token.interrupt
          rendezvous := if s.mode = Mode.precise then s.rendezvous.crash else s.rendezvous
          generator :=
            some { g with sent := g.sent + 1, phase := .finished (.error .panicked) } }

/-! ## Every step is one of these -/

variable {s s' : LocalRun}

theorem of_onWorker {event : WorkerEvent} (h : s.onWorker event = some s') :
    ∃ w, s.worker.step event = some w ∧ s' = { s with worker := w } := by
  obtain ⟨w, hw, rfl⟩ := Option.map_eq_some_iff.mp h
  exact ⟨w, hw, rfl⟩

theorem of_onGenerator {event : GeneratorEvent} (h : s.onGenerator event = some s') :
    ∃ g g', s.generator = some g ∧ g.step event = some g' ∧
      s' = { s with generator := some g' } := by
  obtain ⟨g', hg', rfl⟩ := Option.map_eq_some_iff.mp h
  obtain ⟨g, hg, hs⟩ := Option.bind_eq_some_iff.mp hg'
  exact ⟨g, g', hg, hs, rfl⟩

theorem transition_of_workerLook (expired : Bool) {m : LocalMove}
    (hm : m = if expired then .expire .worker else .advance .worker)
    (hw : s.worker.phase = .sleeping ∨
      s.worker.phase = .asleep ∧ (expired = false → s.token.isWaiting owner = false))
    (h : s.workerLook expired = some s') : Transition s m s' := by
  have hsleep : s.worker.phase = .sleeping ∨ s.worker.phase = .asleep := hw.imp_right And.left
  rw [workerLook] at h
  cases hp : s.token.pending with
  | true =>
    rw [show s.token.look owner expired = (some .interrupted, (s.token.look owner expired).2) from
      Prod.ext (Token.look_of_pending _ _ _ hp) rfl] at h
    obtain ⟨w, hs, rfl⟩ := of_onWorker h
    have hs' : w = { s.worker with phase := .reporting .caught } := by
      rcases hsleep with hw | hw <;> simpa [Worker.step, hw] using hs.symm
    subst hs'
    refine .wake m ?_ hsleep hp expired
    cases expired <;> simp [hm]
  | false =>
    cases expired with
    | true =>
      rw [show s.token.look owner true = (some .completed, (s.token.look owner true).2) from
        Prod.ext (Token.look_expired_of_clear _ _ hp) rfl] at h
      obtain ⟨w, hs, rfl⟩ := of_onWorker h
      have hs' : w = { s.worker with phase := .reporting .check } := by
        rcases hsleep with hw | hw <;> simpa [Worker.step, hw] using hs.symm
      subst hs'
      exact hm ▸ .oversleep hsleep hp
    | false =>
      rw [show s.token.look owner false = (none, (s.token.look owner false).2) from
        Prod.ext (Token.look_of_clear _ _ hp) rfl] at h
      rcases hw with hw | ⟨hw, hwoken⟩
      · obtain ⟨w, hs, rfl⟩ := of_onWorker (by simpa [hw] using h)
        have hs' : w = { s.worker with phase := .asleep } := by
          simpa [Worker.step, hw] using hs.symm
        subst hs'
        exact hm ▸ .doze hw hp
      · obtain rfl : _ = s' := by simpa [hw] using h
        exact hm ▸ .dozeOn hw hp (hwoken rfl)

theorem transition_of_generatorLook (expired : Bool) {g : Generator} {m : LocalMove}
    (hm : m = if expired then .expire .generator else .advance .generator)
    (hg : s.generator = some g)
    (hp : g.phase = .pausing ∨
      g.phase = .asleep ∧ (expired = false → s.stop.isWaiting owner = false))
    (h : s.generatorLook g expired = some s') : Transition s m s' := by
  have hpause : g.phase = .pausing ∨ g.phase = .asleep := hp.imp_right And.left
  rw [generatorLook] at h
  cases hset : s.stop.pending with
  | true =>
    rw [show s.stop.look owner expired = (some .interrupted, (s.stop.look owner expired).2) from
      Prod.ext (Token.look_of_pending _ _ _ hset) rfl] at h
    obtain ⟨g₁, g', hg₁, hs, rfl⟩ := of_onGenerator h
    obtain rfl : g₁ = g := by simpa [hg] using hg₁.symm
    refine .breakPause m ?_ g₁ g' hg hpause hset expired hs
    cases expired <;> simp [hm]
  | false =>
    cases expired with
    | true =>
      rw [show s.stop.look owner true = (some .completed, (s.stop.look owner true).2) from
        Prod.ext (Token.look_expired_of_clear _ _ hset) rfl] at h
      obtain ⟨g₁, g', hg₁, hs, rfl⟩ := of_onGenerator h
      obtain rfl : g₁ = g := by simpa [hg] using hg₁.symm
      have hs' : g' = { g₁ with phase := .sending } := by
        rcases hpause with hp | hp <;> simpa [Generator.step, hp] using hs.symm
      subst hs'
      exact hm ▸ .pauseOver g₁ hg hpause hset
    | false =>
      rw [show s.stop.look owner false = (none, (s.stop.look owner false).2) from
        Prod.ext (Token.look_of_clear _ _ hset) rfl] at h
      rcases hp with hp | ⟨hp, hwoken⟩
      · obtain ⟨g₁, g', hg₁, hs, rfl⟩ := of_onGenerator (by simpa [hp] using h)
        obtain rfl : g₁ = g := by simpa [hg] using hg₁.symm
        have hs' : g' = { g₁ with phase := .asleep } := by
          simpa [Generator.step, hp] using hs.symm
        subst hs'
        exact hm ▸ .pause g₁ hg hp hset
      · obtain rfl : _ = s' := by simpa [hp] using h
        exact hm ▸ .pauseOn g hg hp hset (hwoken rfl)

theorem transition_of_advanceWorker (h : s.advanceWorker = some s') :
    Transition s (.advance .worker) s' := by
  rw [advanceWorker] at h
  split at h
  next hw =>
    obtain ⟨w, hs, rfl⟩ := of_onWorker h
    obtain rfl : s.worker.resumeLoop = w := by simpa [Worker.step, hw] using hs
    exact .start hw
  next => cases h
  next hw => exact transition_of_workerLook false rfl (.inl hw) h
  next hw =>
    split at h
    · cases h
    · next hwoken =>
      exact transition_of_workerLook false rfl (.inr ⟨hw, fun _ => eq_false_of_ne_true hwoken⟩) h
  next hw =>
    obtain ⟨w, hs, rfl⟩ := of_onWorker h
    exact .read _ s.token.pending (.inl ⟨rfl, rfl⟩) hw w hs
  next hw =>
    rw [Rendezvous.acknowledge] at h
    cases hheld : s.rendezvous.held with
    | true =>
      rw [Rendezvous.within_of_held hheld] at h
      cases h
    | false =>
      cases hpoisoned : s.rendezvous.poisoned with
      | true =>
        rw [Rendezvous.within_of_poisoned hheld hpoisoned] at h
        obtain ⟨w, hs, rfl⟩ := of_onWorker h
        obtain rfl : s.worker.endLoop (some (.wait (.poisoned .rendezvous))) = w := by
          simpa [Worker.step, hw] using hs
        exact .failAcknowledge hw hheld hpoisoned
      | false =>
        rw [Rendezvous.within_of_free hheld hpoisoned] at h
        obtain ⟨w, hs, rfl⟩ := of_onWorker h
        obtain rfl : { s.worker with phase := .reporting .check } = w := by
          simpa [Worker.step, hw] using hs
        exact .acknowledge hw hheld hpoisoned
  next failure hw =>
    by_cases hmode : s.mode = .precise
    · simp only [stopGenerator, hmode, Rendezvous.notify] at h
      cases hheld : s.rendezvous.held with
      | true =>
        rw [Rendezvous.within_of_held hheld] at h
        cases h
      | false =>
        cases hpoisoned : s.rendezvous.poisoned with
        | true =>
          rw [Rendezvous.within_of_poisoned hheld hpoisoned] at h
          obtain ⟨w, hs, rfl⟩ := of_onWorker h
          obtain rfl : { s.worker with
              phase := .finished (.error (failure.getD (.wait (.poisoned .rendezvous)))) } = w := by
            simpa [Worker.step, hw] using hs
          exact .failStop failure hw hmode hheld hpoisoned
        | false =>
          rw [Rendezvous.within_of_free hheld hpoisoned] at h
          obtain ⟨w, hs, rfl⟩ := of_onWorker h
          obtain rfl : { s.worker with phase := .joining failure } = w := by
            simpa [Worker.step, hw] using hs
          exact .stop failure hw _ (.inl ⟨hmode, hheld, hpoisoned, rfl⟩)
    · have hstop : s.stopGenerator = some (.ok { s with stop := s.stop.interrupt }) := by
        unfold stopGenerator
        split <;> simp_all
      rw [hstop] at h
      obtain ⟨w, hs, rfl⟩ := of_onWorker h
      obtain rfl : { s.worker with phase := .joining failure } = w := by
        simpa [Worker.step, hw] using hs
      exact .stop failure hw _ (.inr ⟨hmode, rfl⟩)
  next failure hw =>
    split at h
    · cases h
    · next result hresult =>
      obtain ⟨w, hs, rfl⟩ := of_onWorker h
      obtain ⟨g, hg, hr⟩ := Option.bind_eq_some_iff.mp hresult
      have hp : g.phase = .finished result := Generator.phase_of_result? hr
      cases result with
      | ok sent =>
        obtain rfl :
            { s.worker with phase := .finished (s.worker.conclude failure (some sent)) } = w := by
          simpa [Worker.step, hw] using hs
        exact .join failure hw g hg sent hp
      | error e =>
        obtain rfl :
            { s.worker with phase := .finished (.error (failure.getD (.generator e))) } = w := by
          simpa [Worker.step, hw] using hs
        exact .failJoin failure hw g hg e hp
  next => cases h

theorem transition_of_enterRendezvous {g : Generator} (hg : s.generator = some g)
    (hp : g.phase = .entering ∨ g.phase = .parked ∧ s.rendezvous.parked = false)
    (h : s.enterRendezvous = some s') : Transition s (.advance .generator) s' := by
  have hsame {g₁ : Generator} (hg₁ : s.generator = some g₁) : g₁ = g :=
    Option.some.inj (hg₁.symm.trans hg)
  rw [enterRendezvous] at h
  cases hheld : s.rendezvous.held with
  | true =>
    rw [Rendezvous.enter_of_held hheld] at h
    cases h
  | false =>
    cases hpoisoned : s.rendezvous.poisoned with
    | true =>
      rw [Rendezvous.enter_of_poisoned hheld hpoisoned] at h
      obtain ⟨g₁, g', hg₁, hs, rfl⟩ := of_onGenerator h
      obtain rfl := hsame hg₁
      obtain rfl :
          { g₁ with phase := .finished (.error (.wait (.poisoned .rendezvous))) } = g' := by
        rcases hp with hp | ⟨hp, -⟩ <;> simpa [Generator.step, hp] using hs
      exact .failEnter g₁ hg (hp.imp_right And.left) hheld hpoisoned
    | false =>
      rw [Rendezvous.enter_of_free hheld hpoisoned] at h
      obtain ⟨g₁, g', hg₁, hs, rfl⟩ := of_onGenerator h
      obtain rfl := hsame hg₁
      rcases hp with hp | ⟨hp, hwoken⟩
      · obtain rfl : { g₁ with phase := .sending } = g' := by simpa [Generator.step, hp] using hs
        exact .enter g₁ hg hp hheld hpoisoned
      · obtain rfl : { g₁ with phase := .looking } = g' := by simpa [Generator.step, hp] using hs
        exact .reenter g₁ hg hp hwoken hheld hpoisoned

theorem transition_of_lookForAck {g : Generator} (hg : s.generator = some g)
    (hp : g.phase = .looking) (h : s.lookForAck = some s') :
    Transition s (.advance .generator) s' := by
  have hsame {g₁ : Generator} (hg₁ : s.generator = some g₁) : g₁ = g :=
    Option.some.inj (hg₁.symm.trans hg)
  rw [lookForAck] at h
  cases hacked : s.rendezvous.acked with
  | true =>
    rw [Rendezvous.look_of_acked hacked] at h
    obtain ⟨g₁, g', hg₁, hs, rfl⟩ := of_onGenerator h
    obtain rfl := hsame hg₁
    obtain rfl : { g₁ with phase := .sending } = g' := by simpa [Generator.step, hp] using hs
    exact .seeAck g₁ hg hp hacked
  | false =>
    cases hstop : s.stop.pending with
    | true =>
      rw [hstop, Rendezvous.look_of_stopped hacked] at h
      obtain ⟨g₁, g', hg₁, hs, rfl⟩ := of_onGenerator h
      obtain rfl := hsame hg₁
      obtain rfl : { g₁ with phase := .finished (.ok g₁.sent) } = g' := by
        simpa [Generator.step, hp] using hs
      exact .seeStop g₁ hg hp hacked hstop
    | false =>
      rw [hstop, Rendezvous.look_of_neither hacked] at h
      obtain ⟨g₁, g', hg₁, hs, rfl⟩ := of_onGenerator h
      obtain rfl := hsame hg₁
      obtain rfl : { g₁ with phase := .parked } = g' := by simpa [Generator.step, hp] using hs
      exact .park g₁ hg hp hacked hstop

theorem transition_of_advanceGenerator (h : s.advanceGenerator = some s') :
    Transition s (.advance .generator) s' := by
  rw [advanceGenerator] at h
  split at h
  · cases h
  next g hg =>
  have hsame {g₁ : Generator} (hg₁ : s.generator = some g₁) : g₁ = g :=
    Option.some.inj (hg₁.symm.trans hg)
  split at h
  next hp =>
    exact transition_of_enterRendezvous hg (.inl hp) h
  next hp =>
    split at h
    · cases h
    · next hwoken =>
      exact transition_of_enterRendezvous hg (.inr ⟨hp, eq_false_of_ne_true hwoken⟩) h
  next hp =>
    obtain ⟨g₁, g', hg₁, hs, rfl⟩ := of_onGenerator h
    obtain rfl := hsame hg₁
    cases hlocal : g₁.strategy.hasLocalGenerator with
    | true =>
      obtain rfl :
          { g₁ with sent := g₁.sent + 1, phase := Generator.afterSending g₁.strategy } = g' := by
        simpa [Generator.step, hp, hlocal] using hs
      exact .send g₁ hg hp hlocal
    | false => simp [Generator.step, hp, hlocal] at hs
  next hp => exact transition_of_lookForAck hg hp h
  next hp => exact transition_of_generatorLook false rfl hg (.inl hp) h
  next hp =>
    split at h
    · cases h
    · next hwoken =>
      exact transition_of_generatorLook false rfl hg
        (.inr ⟨hp, fun _ => eq_false_of_ne_true hwoken⟩) h
  next => cases h

theorem transition_of_stirThread {thread : LocalThread} (h : s.stirThread thread = some s') :
    Transition s (.stir thread) s' := by
  cases thread with
  | worker =>
    rw [stirThread] at h
    split at h
    · next hw =>
      obtain rfl := Option.some.inj h
      exact .stirWorker hw
    · cases h
  | generator =>
    rw [stirThread] at h
    split at h
    · next hg =>
      obtain ⟨g, hg, hp⟩ := Option.map_eq_some_iff.mp hg
      obtain rfl := Option.some.inj h
      exact .stirPause g hg hp
    · next hg =>
      obtain ⟨g, hg, hp⟩ := Option.map_eq_some_iff.mp hg
      obtain rfl := Option.some.inj h
      exact .stirParked g hg hp
    · cases h

theorem transition_of_crashGenerator (h : s.crashGenerator = some s') :
    Transition s .crash s' := by
  obtain ⟨g, g', hg, hs, rfl⟩ := of_onGenerator h
  by_cases hcan : g.phase = .sending ∧ g.strategy.hasLocalGenerator = true
  · obtain rfl :
        { g with sent := g.sent + 1, phase := .finished (.error .panicked) } = g' := by
      simpa [Generator.step, hcan] using hs
    exact .crash g hg hcan.1 hcan.2
  · simp [Generator.step, hcan] at hs

/-- Every move that is made is one of the transitions. -/
theorem transition_of_step {m : LocalMove} (h : s.step m = some s') : Transition s m s' := by
  cases m with
  | report accepted =>
    obtain ⟨w, hs, rfl⟩ := of_onWorker h
    cases hw : s.worker.phase with
    | reporting line =>
      cases accepted with
      | true =>
        obtain rfl : s.worker.afterLine line = w := by simpa [Worker.step, hw] using hs
        exact .takeLine line hw
      | false =>
        obtain rfl : s.worker.endLoop (some .detached) = w := by
          simpa [Worker.step, hw] using hs
        exact .refuseLine line hw
    | _ => simp [Worker.step, hw] at hs
  | advance thread =>
    cases thread with
    | worker => exact transition_of_advanceWorker h
    | generator => exact transition_of_advanceGenerator h
  | expire thread =>
    cases thread with
    | worker =>
      simp only [step, expireWorker] at h
      split at h
      · next hw => exact transition_of_workerLook true rfl (.inl hw) h
      · next hw => exact transition_of_workerLook true rfl (.inr ⟨hw, by simp⟩) h
      · cases h
    | generator =>
      simp only [step, expireGenerator] at h
      split at h
      · cases h
      · next g hg =>
        split at h
        · next hp => exact transition_of_generatorLook true rfl hg (.inl hp) h
        · next hp => exact transition_of_generatorLook true rfl hg (.inr ⟨hp, by simp⟩) h
        · cases h
  | stir thread => exact transition_of_stirThread h
  | interrupt =>
    obtain rfl := Option.some.inj h
    exact .interrupt
  | crash => exact transition_of_crashGenerator h
  | failStart text =>
    obtain ⟨w, hs, rfl⟩ := of_onWorker h
    cases hw : s.worker.phase with
    | starting =>
      obtain rfl : { s.worker with phase := .finished (.error (.spawn text)) } = w := by
        simpa [Worker.step, hw] using hs
      exact .failStart text hw
    | _ => simp [Worker.step, hw] at hs
  | endSleep result =>
    obtain ⟨w, hs, rfl⟩ := of_onWorker h
    have hw : s.worker.phase = .sleeping ∨ s.worker.phase = .asleep := by
      cases hw : s.worker.phase <;> simp [Worker.step, hw] at hs ⊢
    exact .endSleep result w hw hs
  | tellStatus pending =>
    obtain ⟨w, hs, rfl⟩ := of_onWorker h
    have hw : s.worker.phase = .reading := by
      cases hw : s.worker.phase <;> simp [Worker.step, hw] at hs ⊢
    exact .read _ pending (.inr rfl) hw w hs

/-- Whatever a move does to the worker is something that can happen to it. -/
theorem worker_transition {m : LocalMove} (h : Transition s m s') :
    s'.worker = s.worker ∨ ∃ event, s.worker.step event = some s'.worker := by
  cases h with
  | start hw => exact .inr ⟨.started (.ok ()), by simp [Worker.step, hw]⟩
  | failStart text hw => exact .inr ⟨.started (.error text), by simp [Worker.step, hw]⟩
  | takeLine line hw => exact .inr ⟨.reported true, by simp [Worker.step, hw]⟩
  | refuseLine line hw => exact .inr ⟨.reported false, by simp [Worker.step, hw]⟩
  | doze hw => exact .inr ⟨.dozed, by simp [Worker.step, hw]⟩
  | wake _ _ hw =>
    refine .inr ⟨.slept (.ok .interrupted), ?_⟩
    rcases hw with hw | hw <;> simp [Worker.step, hw]
  | oversleep hw =>
    refine .inr ⟨.slept (.ok .completed), ?_⟩
    rcases hw with hw | hw <;> simp [Worker.step, hw]
  | endSleep result w hw hs => exact .inr ⟨_, hs⟩
  | read _ told _ hw w hs => exact .inr ⟨_, hs⟩
  | acknowledge hw => exact .inr ⟨.acknowledged (.ok ()), by simp [Worker.step, hw]⟩
  | failAcknowledge hw =>
    exact .inr ⟨.acknowledged (.error (.poisoned .rendezvous)), by simp [Worker.step, hw]⟩
  | stop failure hw => exact .inr ⟨.stopped (.ok ()), by simp [Worker.step, hw]⟩
  | failStop failure hw =>
    exact .inr ⟨.stopped (.error (.poisoned .rendezvous)), by simp [Worker.step, hw]⟩
  | join failure hw g hg sent => exact .inr ⟨.joined (.ok sent), by simp [Worker.step, hw]⟩
  | failJoin failure hw g hg e => exact .inr ⟨.joined (.error e), by simp [Worker.step, hw]⟩
  | _ => exact .inl rfl

end LocalRun

end InterruptStress
