import InterruptStress.Proofs.Worker.Stopping

/-!
# The worker's way out

What becomes of a worker whose probe takes no more lines and whose token has been interrupted.
From every point of its loop the way out is short: a sleep finds the interrupt pending and ends
with it, the next line is refused, and what is left is to stop the generator and to wait for its
end.  No move but a line that is taken leads away from there (`LocalRun.roused_transition`), each
turn of the worker brings it nearer to its end (`LocalRun.escape_transition`), and until then it or
its generator can go on without any sleep running out of time (`LocalRun.Standing.canGoOn`).

The generator may still interrupt, in any mode; none of this depends on the worker's own result.
-/

namespace InterruptStress

/-- The moves of threads and tokens of the target's own make.  A generator's thread may still fail
to start. -/
def LocalMove.isGenuine : LocalMove → Bool
  | .crash | .endSleep _ | .tellStatus _ => false
  | _ => true

/-- A turn of the worker's own thread. -/
def LocalMove.isWorkerTurn : LocalMove → Bool
  | .advance .worker | .report _ => true
  | _ => false

theorem LocalMove.of_isGenuine {m : LocalMove} (h : m.isGenuine = true) :
    m.isOwn = true ∨ m = .interrupt ∨ ∃ text, m = .failStart text := by
  cases m with
  | report | advance | expire | stir => exact .inl rfl
  | interrupt => exact .inr (.inl rfl)
  | failStart text => exact .inr (.inr ⟨text, rfl⟩)
  | crash | endSleep | tellStatus => cases h

theorem LocalMove.isSound_of_isOwn {m : LocalMove} (h : m.isOwn = true) : m.isSound = true := by
  cases m <;> first | rfl | cases h

namespace Worker

/-- The worker is in its sleep, or about to look at its token for it. -/
def isSleeping (w : Worker) : Bool :=
  match w.phase with
  | .sleeping | .asleep => true
  | _ => false

/-- Only a worker with a generator of its own starts and stops one, and only in precise mode does
it acknowledge. -/
def InMode (w : Worker) : Prop :=
  match w.phase with
  | .starting | .stopping _ | .joining _ => w.settings.mode.hasLocalGenerator = true
  | .reporting .acknowledge | .acknowledging => w.settings.mode = .precise
  | _ => True

/-- How many turns of its own the worker takes at most to finish, once no line is taken. -/
def escapeTurns (w : Worker) : Nat :=
  match w.phase with
  | .finished _ => 0
  | .joining _ => 1
  | .stopping _ => 2
  | .reporting _ => 3
  | _ => 4

variable {w w' : Worker}

theorem escapeTurns_le (w : Worker) : w.escapeTurns ≤ 4 := by
  unfold escapeTurns
  split <;> omega

theorem phase_of_isSleeping (h : w.isSleeping = true) : w.phase = .sleeping ∨ w.phase = .asleep := by
  unfold isSleeping at h
  split at h
  · next hw => exact .inl hw
  · next hw => exact .inr hw
  · cases h

@[simp] theorem isSleeping_endLoop (failure : Option WorkerError) :
    (w.endLoop failure).isSleeping = false := by
  unfold endLoop
  split <;> rfl

theorem escapeTurns_endLoop_le (failure : Option WorkerError) :
    (w.endLoop failure).escapeTurns ≤ 2 := by
  unfold endLoop
  split
  · exact Nat.le_refl 2
  · exact Nat.zero_le 2

theorem inMode_resumeLoop : w.resumeLoop.InMode := by
  by_cases hmore : w.iteration < w.settings.iterations.toNat <;>
    simp [InMode, resumeLoop, nextLine, hmore]

theorem inMode_endLoop (failure : Option WorkerError) : (w.endLoop failure).InMode := by
  unfold endLoop
  split
  · assumption
  · trivial

theorem inMode_start (settings : WorkerSettings) : (Worker.start settings).InMode := by
  unfold start
  split
  · assumption
  · exact inMode_resumeLoop

theorem inMode_afterLine {line : WorkerLine} (hw : w.phase = .reporting line) (h : w.InMode) :
    (w.afterLine line).InMode := by
  unfold InMode at h
  rw [hw] at h
  cases line with
  | check =>
    simp only [afterLine]
    split
    · exact inMode_resumeLoop
    · exact inMode_endLoop _
  | done => exact inMode_endLoop _
  | acknowledge => exact h
  | loop | sleep | caught => trivial

/-- Whatever happens to a worker, it stays in its mode. -/
theorem inMode_step {event : WorkerEvent} (h : w.InMode) (hs : w.step event = some w') :
    w'.InMode := by
  have hat := h
  unfold InMode at hat
  unfold step at hs
  split at hs
  next => exact Option.some.inj hs ▸ inMode_resumeLoop
  next => exact Option.some.inj hs ▸ trivial
  next hw => exact Option.some.inj hs ▸ inMode_afterLine hw h
  next => exact Option.some.inj hs ▸ inMode_endLoop _
  next => exact Option.some.inj hs ▸ trivial
  next result hw =>
    split at hs <;> obtain rfl := Option.some.inj hs
    · exact inMode_endLoop _
    · trivial
    · trivial
  next result hw =>
    split at hs <;> obtain rfl := Option.some.inj hs
    · exact inMode_endLoop _
    · trivial
    · trivial
  next pending hw =>
    have hs : w.step (.read pending) = some w' := by simpa [step, hw] using hs
    rcases step_read hw hs with ⟨-, -, rfl⟩ | ⟨hmode, -, rfl⟩ | ⟨-, rfl⟩
    · exact inMode_endLoop _
    · exact hmode
    · trivial
  next => exact Option.some.inj hs ▸ trivial
  next => exact Option.some.inj hs ▸ inMode_endLoop _
  next hw =>
    rw [hw] at hat
    exact Option.some.inj hs ▸ hat
  next => exact Option.some.inj hs ▸ trivial
  next => exact Option.some.inj hs ▸ trivial
  next => exact Option.some.inj hs ▸ trivial
  next => cases hs

end Worker

namespace LocalRun

variable {s s' : LocalRun} {m : LocalMove} {g : Generator}

/-! ## What every run keeps -/

/-- What every state of a run has as long as threads and tokens are of the target's own make. -/
structure Standing (s : LocalRun) : Prop where
  /-- A worker without a generator has none in its mode, or has returned because its generator's
  thread could not be started. -/
  order : s.InOrder ∨
    s.Alone ∧ (s.mode.hasLocalGenerator = true → s.worker.result?.isSome = true)
  dozing : s.Dozing
  inMode : s.worker.InMode

theorem standing_start (settings : WorkerSettings) : (LocalRun.start settings).Standing where
  order := by
    cases hlocal : settings.mode.hasLocalGenerator with
    | true => exact .inl (by simp [InOrder, start, Worker.start, mode, hlocal])
    | false =>
      refine .inr ⟨⟨rfl, rfl, ?_⟩, ?_⟩ <;>
        simp [start, Worker.start, mode, hlocal, Worker.resumeLoop]
  dozing := dozing_of_awake rfl
  inMode := Worker.inMode_start settings

/-- A worker that has returned does not change any more. -/
theorem worker_of_returned (hreturned : s.worker.result?.isSome = true) (ht : s.Transition m s') :
    s'.worker = s.worker := by
  obtain ⟨result, hresult⟩ := Option.isSome_iff_exists.mp hreturned
  rcases worker_transition ht with hsame | ⟨event, hs⟩
  · exact hsame
  · simp [Worker.step, Worker.phase_of_result? hresult] at hs

/-- A worker does not leave a line by itself. -/
theorem worker_of_reporting {line : WorkerLine} (hw : s.worker.phase = .reporting line)
    (ht : s.Transition m s') (hm : ∀ accepted, m ≠ .report accepted) : s'.worker = s.worker := by
  rcases worker_transition ht with hsame | ⟨event, hs⟩
  · exact hsame
  · cases ht <;> simp_all

/-- Only a worker that starts its generator has one that it did not have. -/
theorem generator_of_none (hnone : s.generator = none) (ht : s.Transition m s')
    (hm : m ≠ .advance .worker) : s'.generator = none := by
  cases ht <;> simp_all

theorem of_interrupt (ht : s.Transition .interrupt s') :
    s' = { s with token := s.token.interrupt } := by
  cases ht with
  | interrupt => rfl
  | wake _ hm | breakPause _ hm => simp at hm
  | read _ _ hm => simp at hm

theorem of_failStart {text : String} (ht : s.Transition (.failStart text) s') :
    s.worker.phase = .starting ∧
      s' = { s with worker := { s.worker with phase := .finished (.error (.spawn text)) } } := by
  cases ht with
  | failStart _ hw => exact ⟨hw, rfl⟩
  | wake _ hm | breakPause _ hm => simp at hm
  | read _ _ hm => simp at hm

theorem standing_transition (h : s.Standing) (ht : s.Transition m s') (hm : m.isGenuine = true) :
    s'.Standing where
  order := by
    rcases h.order with ho | ⟨ha, hreturned⟩
    · rcases LocalMove.of_isGenuine hm with hown | rfl | ⟨text, rfl⟩
      · exact .inl (inOrder_transition ho ht (LocalMove.isSound_of_isOwn hown))
      · exact .inl (inOrder_transition ho ht rfl)
      · obtain ⟨hw, rfl⟩ := of_failStart ht
        have hg := ho.unstarted hw
        obtain ⟨-, -, hr, -⟩ := ho.starting hg
        exact .inr ⟨⟨hg, hr ▸ rfl, by simp⟩, fun _ => rfl⟩
    · refine .inr ⟨alone_transition ha ht, fun hlocal => ?_⟩
      have hdone := hreturned (mode_transition ht ▸ hlocal)
      rwa [worker_of_returned hdone ht]
  dozing := by
    rcases LocalMove.of_isGenuine hm with hown | rfl | ⟨text, rfl⟩
    · exact dozing_transition h.dozing ht hown
    · rw [of_interrupt ht]
      exact dozing_of_awake (by simp)
    · obtain ⟨hw, rfl⟩ := of_failStart ht
      exact dozing_of_awake (h.dozing.awake (by simp [hw]))
  inMode := by
    rcases worker_transition ht with hsame | ⟨event, hs⟩
    · rw [hsame]
      exact h.inMode
    · exact Worker.inMode_step h.inMode hs

/-- A worker that has returned has seen its generator end, if it has had one. -/
theorem Standing.generator_of_returned (h : s.Standing) (hreturned : s.worker.result?.isSome = true)
    (hg : s.generator = some g) : g.result?.isSome = true := by
  rcases h.order with ho | ⟨ha, -⟩
  · obtain ⟨g', hg', hdone⟩ := ho.generator_of_returned hreturned
    obtain rfl := Option.some.inj (hg'.symm.trans hg)
    exact Option.isSome_iff_exists.mpr ⟨_, hdone⟩
  · cases ha.generator.symm.trans hg

/-! ## The interrupt is not lost -/

/-- A worker in its sleep has been interrupted. -/
def Roused (s : LocalRun) : Prop := s.worker.isSleeping = true → s.token.pending = true

theorem roused_of_awake (h : s.worker.isSleeping = false) : s.Roused := by
  intro hsleeping
  simp [h] at hsleeping

/-- As long as no line is taken, no sleep begins. -/
theorem awake_transition (h : s.worker.isSleeping = false) (ht : s.Transition m s')
    (hm : m ≠ .report true) : s'.worker.isSleeping = false := by
  have hasleep (hw : s.worker.phase = .sleeping ∨ s.worker.phase = .asleep) : False := by
    rcases hw with hw | hw <;> simp [Worker.isSleeping, hw] at h
  cases ht with
  | takeLine => exact absurd rfl hm
  | doze hw => exact (hasleep (.inl hw)).elim
  | wake _ _ hw | oversleep hw | endSleep _ _ hw => exact (hasleep hw).elim
  | read _ _ _ hw w hs =>
    rcases Worker.step_read hw hs with ⟨-, -, rfl⟩ | ⟨-, -, rfl⟩ | ⟨-, rfl⟩
    · exact Worker.isSleeping_endLoop _
    · rfl
    · rfl
  | refuseLine | failAcknowledge => exact Worker.isSleeping_endLoop _
  | start | failStart | acknowledge | stop | failStop | join | failJoin => rfl
  | _ => exact h

/-- The sleep of a worker that was interrupted goes on, interrupted, or ends with the interrupt. -/
theorem sleeping_transition (h : s.Roused) (hsleeping : s.worker.isSleeping = true)
    (ht : s.Transition m s') (hm : m.isGenuine = true) :
    (s'.worker = s.worker ∧ s'.token.pending = true) ∨
      s'.worker = { s.worker with phase := .reporting .caught } := by
  have hset := h hsleeping
  have hw : s.worker.phase = .sleeping ∨ s.worker.phase = .asleep :=
    Worker.phase_of_isSleeping hsleeping
  have hother {p : WorkerPhase} (hp : s.worker.phase = p) (hnot : p ≠ .sleeping ∧ p ≠ .asleep) :
      False := by
    rcases hw with hw | hw
    · exact hnot.1 (hp.symm.trans hw)
    · exact hnot.2 (hp.symm.trans hw)
  cases ht with
  | wake => exact .inr rfl
  | doze _ hclear | dozeOn _ hclear | oversleep _ hclear => simp [hset] at hclear
  | endSleep | crash => cases hm
  | start hp | failStart _ hp | takeLine _ hp | refuseLine _ hp | read _ _ _ hp | acknowledge hp
  | failAcknowledge hp | stop _ hp | failStop _ hp | join _ hp | failJoin _ hp =>
    exact (hother hp (by simp)).elim
  | send | interrupt => exact .inl ⟨rfl, rfl⟩
  | _ => exact .inl ⟨rfl, hset⟩

/-- As long as no line is taken, an interrupt waits for every sleep. -/
theorem roused_transition (h : s.Roused) (ht : s.Transition m s') (hline : m ≠ .report true)
    (hm : m.isGenuine = true) : s'.Roused := by
  cases hsleeping : s.worker.isSleeping with
  | false => exact roused_of_awake (awake_transition hsleeping ht hline)
  | true =>
    rcases sleeping_transition h hsleeping ht hm with ⟨-, hset⟩ | hcaught
    · exact fun _ => hset
    · exact roused_of_awake (by rw [hcaught]; rfl)

/-- How the worker's sleep has ended in a move, if it has: a sleep that an interrupt ended is
reported as caught. -/
def sleepEnd? (s s' : LocalRun) : Option SleepOutcome :=
  if s.worker.isSleeping && !s'.worker.isSleeping then
    some (if s'.worker.phase = .reporting .caught then .interrupted else .completed)
  else none

theorem sleepEnd?_of_unmoved (h : s'.worker = s.worker) : s.sleepEnd? s' = none := by
  simp [sleepEnd?, h]

/-- A worker that was interrupted wakes up at most once, and for the interrupt. -/
theorem sleepEnd?_transition (h : s.Roused) (ht : s.Transition m s') (hline : m ≠ .report true)
    (hm : m.isGenuine = true) :
    (s.sleepEnd? s' = none ∧ s'.worker.isSleeping = s.worker.isSleeping) ∨
      (s.sleepEnd? s' = some .interrupted ∧ s.worker.isSleeping = true ∧
        s'.worker.isSleeping = false) := by
  cases hsleeping : s.worker.isSleeping with
  | false => exact .inl ⟨by simp [sleepEnd?, hsleeping], awake_transition hsleeping ht hline⟩
  | true =>
    rcases sleeping_transition h hsleeping ht hm with ⟨hsame, -⟩ | hcaught
    · exact .inl ⟨sleepEnd?_of_unmoved hsame, hsame ▸ hsleeping⟩
    · have hphase : s'.worker.phase = .reporting .caught := by rw [hcaught]
      have hawake : s'.worker.isSleeping = false := by simp [Worker.isSleeping, hphase]
      exact .inr ⟨by simp [sleepEnd?, hsleeping, hawake, hphase], rfl, hawake⟩

/-! ## The end comes nearer -/

/-- Each turn of the worker is one of those that it has left. -/
theorem escape_transition (h : s.Roused) (ht : s.Transition m s') (hline : m ≠ .report true) :
    s'.worker.escapeTurns + m.isWorkerTurn.toNat ≤ s.worker.escapeTurns := by
  have hturn := Bool.toNat_le m.isWorkerTurn
  have hat {p : WorkerPhase} (hw : s.worker.phase = p) :
      s.worker.escapeTurns = Worker.escapeTurns { s.worker with phase := p } := by
    rw [← hw]
  have hfour (hw : s.worker.phase = .sleeping ∨ s.worker.phase = .asleep) :
      s.worker.escapeTurns = 4 := by
    rcases hw with hw | hw <;> exact hat hw
  -- what ends the loop leaves two turns, and what leads to another line three
  have hend {failure : Option WorkerError} (hmore : 3 ≤ s.worker.escapeTurns) :
      (s.worker.endLoop failure).escapeTurns + m.isWorkerTurn.toNat ≤ s.worker.escapeTurns := by
    have hleft := s.worker.escapeTurns_endLoop_le failure
    omega
  have hreport {line : WorkerLine} (hmore : s.worker.escapeTurns = 4) :
      Worker.escapeTurns { s.worker with phase := .reporting line } + m.isWorkerTurn.toNat ≤
        s.worker.escapeTurns := by
    rw [hmore]
    exact Nat.add_le_add_left hturn 3
  cases ht with
  | takeLine => exact absurd rfl hline
  | doze hw hclear | dozeOn hw hclear =>
    simp [h (by simp [Worker.isSleeping, hw])] at hclear
  | start hw | failStart _ hw | stop _ hw | failStop _ hw | join _ hw | failJoin _ hw =>
    simp [Worker.escapeTurns, hw, LocalMove.isWorkerTurn, Worker.resumeLoop]
  | refuseLine _ hw => exact hend (Nat.le_of_eq (hat hw).symm)
  | failAcknowledge hw => exact hend (by rw [hat hw]; exact Nat.le_succ 3)
  | wake _ _ hw | oversleep hw => exact hreport (hfour hw)
  | acknowledge hw => exact hreport (hat hw)
  | endSleep result w hw hs =>
    rcases Worker.step_slept hw hs with ⟨e, -, rfl⟩ | ⟨-, rfl⟩ | ⟨-, rfl⟩
    · exact hend (by rw [hfour hw]; exact Nat.le_succ 3)
    · exact hreport (hfour hw)
    · exact hreport (hfour hw)
  | read _ _ _ hw w hs =>
    rcases Worker.step_read hw hs with ⟨-, -, rfl⟩ | ⟨-, -, rfl⟩ | ⟨-, rfl⟩
    · exact hend (by rw [hat hw]; exact Nat.le_succ 3)
    · exact hreport (hat hw)
    · exact hreport (hat hw)
  | breakPause _ hm => rcases hm with rfl | rfl <;> exact Nat.le_refl _
  | _ => exact Nat.le_refl _

/-! ## Nobody is held up -/

/-- A worker whose sleep was interrupted and that is in no line can go on, or its generator can,
until the worker has returned. -/
theorem Standing.canGoOn (h : s.Standing) (hroused : s.Roused)
    (hline : ∀ line, s.worker.phase ≠ .reporting line) (hrunning : s.worker.result? = none) :
    ∃ thread, (s.step (.advance thread)).isSome = true := by
  have hmode := h.inMode
  have ho (hlocal : s.mode.hasLocalGenerator = true) : s.InOrder := by
    rcases h.order with ho | ⟨-, hreturned⟩
    · exact ho
    · simp [hrunning] at hreturned
      simp [hlocal] at hreturned
  unfold Worker.InMode at hmode
  cases hw : s.worker.phase with
  | reporting line => exact absurd hw (hline line)
  | finished result => simp [Worker.result?, hw] at hrunning
  | starting => exact ⟨.worker, by simp [step, advanceWorker, hw, onWorker, Worker.step]⟩
  | sleeping => exact ⟨.worker, canAdvance_look (.inl hw)⟩
  | asleep =>
    have hset := hroused (by simp [Worker.isSleeping, hw])
    have hwoken : s.token.isWaiting owner = false := by
      refine eq_false_of_ne_true fun hwaiting => ?_
      simp [(h.dozing hwaiting).2] at hset
    exact ⟨.worker, canAdvance_look (.inr ⟨hw, hwoken⟩)⟩
  | reading =>
    refine ⟨.worker, ?_⟩
    cases hset : s.token.pending <;>
      simp [step, advanceWorker, hw, onWorker, Worker.step, hset, apply_ite Option.isSome]
  | acknowledging =>
    rw [hw] at hmode
    have ho := ho (by rw [mode, hmode]; rfl)
    obtain ⟨g, hg⟩ := ho.exists_generator (by simp [hw])
    exact canAdvance_rendezvous (ho.coordinated hg) hg hmode (.inl hw)
  | stopping failure =>
    rw [hw] at hmode
    have ho := ho hmode
    obtain ⟨g, hg⟩ := ho.exists_generator (by simp [hw])
    by_cases hprecise : s.mode = .precise
    · exact canAdvance_rendezvous (ho.coordinated hg) hg hprecise (.inr ⟨failure, hw⟩)
    · have hstop : s.stopGenerator = some (.ok { s with stop := s.stop.interrupt }) := by
        unfold stopGenerator
        split
        · next hm => exact absurd hm hprecise
        · rfl
      exact ⟨.worker, by simp [step, advanceWorker, hw, hstop, onWorker, Worker.step]⟩
  | joining failure =>
    rw [hw] at hmode
    have ho := ho hmode
    obtain ⟨g, hg⟩ := ho.exists_generator (by simp [hw])
    cases hdone : g.result? with
    | some result =>
      refine ⟨.worker, ?_⟩
      cases result <;> simp [step, advanceWorker, hw, hg, hdone, onWorker, Worker.step]
    | none =>
      exact ⟨.generator, canAdvance_stopped (ho.coordinated hg) hg
        (by simp [Worker.hasStopped, hw]) hdone⟩

end LocalRun

end InterruptStress
