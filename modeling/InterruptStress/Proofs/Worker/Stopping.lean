import InterruptStress.Proofs.Worker.Progress

/-!
# How a worker stops its generator

Nothing is assumed here about the worker's token and its probe: a sleep may end in any way, the
status may read as it likes, and lines may be refused at any time.  A token that answers falsely
can make the worker acknowledge what was never sent, so the accounts of precise mode are out of
balance.  What remains is the way out.  A generator that has been told to stop has at most one
interrupt in hand and, in precise mode, one more for an acknowledgement that it takes before the
stop (`LocalRun.winding_transition`); the worker returns only after it has ended; the loop's own
failure is the one that is returned; and a run that ends well has its counts right
(`LocalRun.outcome_of_any_token`).
-/

namespace InterruptStress

/-- The generator's own moves, but for waits that end for no reason. -/
def LocalMove.isGeneratorTurn : LocalMove → Bool
  | .advance .generator | .expire .generator => true
  | _ => false

namespace Generator

/-- How many interrupts a generator that has been told to stop may still send. -/
def sendsLeft (g : Generator) (acked : Bool) : Nat :=
  g.aboutToSend.toNat + (decide (g.strategy = .precise) && g.result?.isNone && acked).toNat

/-- How many turns a generator that has been told to stop may still take. -/
def turnsToEnd (g : Generator) (acked : Bool) : Nat :=
  match g.phase with
  | .entering => 2 * acked.toNat + 3
  | .sending | .parked => 2 * acked.toNat + 2
  | .looking => 2 * acked.toNat + 1
  | .pausing | .asleep => 1
  | .finished _ => 0

theorem sendsLeft_le (g : Generator) (acked : Bool) :
    g.sendsLeft acked ≤ if g.strategy = .precise then 2 else 1 := by
  have hsend := Bool.toNat_le g.aboutToSend
  unfold sendsLeft
  by_cases hprecise : g.strategy = .precise
  · have hack := Bool.toNat_le (decide (g.strategy = .precise) && g.result?.isNone && acked)
    rw [if_pos hprecise]
    omega
  · rw [if_neg hprecise, decide_eq_false hprecise]
    simpa using hsend

theorem turnsToEnd_le (g : Generator) (acked : Bool) : g.turnsToEnd acked ≤ 5 := by
  have hacked := Bool.toNat_le acked
  unfold turnsToEnd
  split <;> omega

end Generator

namespace Worker

variable {w : Worker}

/-- In precise mode a run that ends well reports one interrupt more than it has observed. -/
theorem OnCourse.sent_of_precise (h : w.OnCourse) (hmode : w.settings.mode = .precise)
    {report : WorkerReport} (hp : w.phase = .finished (.ok report)) :
    report.interruptsSent.map UInt64.toNat = some (w.iterations + 1) := by
  obtain ⟨-, hobserved, sent, hconclude⟩ := h.finished hp
  have hlt : w.iterations + 1 < 2 ^ 64 := by
    have := w.settings.iterations.toNat_lt
    unfold Worker.iterations
    omega
  obtain rfl := Worker.report_of_conclude hconclude
  by_cases hbad : sent.getD 0 ≠ w.observed + 1
  · simp [Worker.conclude, hmode, hbad] at hconclude
  · have hsent : sent = some (w.iterations + 1) := by
      cases sent with
      | none => simp at hbad
      | some sent => simpa [hobserved] using hbad
    rw [hsent]
    exact congrArg some (Nat.mod_eq_of_lt hlt)

end Worker

namespace LocalRun

variable {s s' : LocalRun} {m : LocalMove} {g : Generator}

/-! ## The generator after its stop -/

/-- A generator that was told to stop and has not ended finds the stop pending. -/
theorem pending_of_stopped (hc : Coordinated s.worker g s.rendezvous s.stop)
    (hstopped : s.worker.hasStopped = true) (hgoing : g.result? = none) :
    s.stop.pending = true := by
  rcases hc.stopped.mp hstopped with hset | hdone
  · exact hset
  · simp [hgoing] at hdone

/-- It can always go on. -/
theorem canAdvance_stopped (hc : Coordinated s.worker g s.rendezvous s.stop)
    (hg : s.generator = some g) (hstopped : s.worker.hasStopped = true)
    (hgoing : g.result? = none) : (s.step (.advance .generator)).isSome = true := by
  by_cases hprecise : g.strategy = .precise
  · exact canAdvance_generator hc hg hprecise hgoing (unparked_of_stopped hc hstopped)
  · have hset := pending_of_stopped hc hstopped hgoing
    have hlook : s.stop.look owner false = (some .interrupted, (s.stop.look owner false).2) :=
      Prod.ext (Token.look_of_pending _ _ _ hset) rfl
    have hmeets {p : GeneratorPhase} (hp : g.phase = p)
        (h : p = .entering ∨ p = .looking ∨ p = .parked) : False :=
      hprecise (hc.meets (hp ▸ h))
    cases hp : g.phase with
    | entering | looking | parked => exact (hmeets hp (by simp)).elim
    | sending =>
      simp [step, advanceGenerator, hg, hp, onGenerator, Generator.step, hc.isLocal]
    | pausing =>
      simp only [step, advanceGenerator, hg, hp, generatorLook]
      rw [hlook]
      simp [onGenerator, Generator.step, hp, hc.isLocal]
    | asleep =>
      have hwoken : s.stop.isWaiting owner = false := by
        refine eq_false_of_ne_true fun hwaiting => ?_
        simp [(hc.pausing hwaiting).2] at hset
      simp only [step, advanceGenerator, hg, hp, hwoken, generatorLook]
      rw [hlook]
      simp [onGenerator, Generator.step, hp, hc.isLocal]
    | finished result => simp [Generator.result?, hp] at hgoing

/-- How many interrupts will have been sent at most once the generator has ended. -/
def sentAtMost (s : LocalRun) : Nat :=
  (s.generator.map fun g => g.sent + g.sendsLeft s.rendezvous.acked).getD 0

/-- How many turns the generator takes at most before it has ended. -/
def turnsToEnd (s : LocalRun) : Nat :=
  (s.generator.map (·.turnsToEnd s.rendezvous.acked)).getD 0

/-- A turn of the generator uses up one of those that it has left. -/
theorem winding_of_turn {g' : Generator} (hg : s.generator = some g) (hg' : s'.generator = some g')
    (hsends : g'.sent + g'.sendsLeft s'.rendezvous.acked ≤
      g.sent + g.sendsLeft s.rendezvous.acked)
    (hturns : g'.turnsToEnd s'.rendezvous.acked < g.turnsToEnd s.rendezvous.acked) :
    s'.sentAtMost ≤ s.sentAtMost ∧ 1 + s'.turnsToEnd ≤ s.turnsToEnd := by
  simp only [sentAtMost, turnsToEnd, hg, hg', Option.map_some, Option.getD_some]
  omega

/-- Once a worker has told its generator to stop, no move makes more interrupts possible, and
every turn of the generator is one of those that it has left. -/
theorem winding_transition (ho : s.InOrder) (hstopped : s.worker.hasStopped = true)
    (ht : s.Transition m s') (hm : m.isSound = true) :
    s'.worker.hasStopped = true ∧ s'.sentAtMost ≤ s.sentAtMost ∧
      m.isGeneratorTurn.toNat + s'.turnsToEnd ≤ s.turnsToEnd := by
  have hpending {g : Generator} (hg : s.generator = some g) (hgoing : g.result? = none) :
      s.stop.pending = true := pending_of_stopped (ho.coordinated hg) hstopped hgoing
  have hworking {p : WorkerPhase} (hw : s.worker.phase = p)
      (hp : Worker.hasStopped { s.worker with phase := p } = false) : False := by
    subst hw
    simp [hstopped] at hp
  have hsame {t : LocalRun} {m : LocalMove} (hturn : m.isGeneratorTurn = false)
      (hw : t.worker.hasStopped = true)
      (h : t.generator = s.generator ∧ t.rendezvous.acked = s.rendezvous.acked) :
      t.worker.hasStopped = true ∧ t.sentAtMost ≤ s.sentAtMost ∧
        m.isGeneratorTurn.toNat + t.turnsToEnd ≤ s.turnsToEnd := by
    simp [hturn, hw, sentAtMost, turnsToEnd, h]
  cases ht with
  | start hw => exact (hworking hw rfl).elim
  | failStart => cases hm
  | takeLine line hw => exact (hworking hw rfl).elim
  | refuseLine line hw => exact (hworking hw rfl).elim
  | doze hw => exact (hworking hw rfl).elim
  | dozeOn hw => exact (hworking hw rfl).elim
  | wake _ _ hw => rcases hw with hw | hw <;> exact (hworking hw rfl).elim
  | oversleep hw => rcases hw with hw | hw <;> exact (hworking hw rfl).elim
  | endSleep _ _ hw => rcases hw with hw | hw <;> exact (hworking hw rfl).elim
  | read _ _ _ hw => exact (hworking hw rfl).elim
  | acknowledge hw => exact (hworking hw rfl).elim
  | failAcknowledge hw => exact (hworking hw rfl).elim
  | stop _ hw => exact (hworking hw rfl).elim
  | failStop _ hw => exact (hworking hw rfl).elim
  | join => exact hsame rfl rfl ⟨rfl, rfl⟩
  | failJoin => exact hsame rfl rfl ⟨rfl, rfl⟩
  | enter g hg hp =>
    refine ⟨hstopped, winding_of_turn hg rfl ?_ ?_⟩
    · simp [Generator.sendsLeft, Generator.aboutToSend, Generator.result?, hp]
    · simp only [Generator.turnsToEnd, hp]
      omega
  | reenter g hg hp =>
    refine ⟨hstopped, winding_of_turn hg rfl ?_ ?_⟩
    · simp [Generator.sendsLeft, Generator.aboutToSend, Generator.result?, hp]
    · simp only [Generator.turnsToEnd, hp]
      omega
  | failEnter g hg _ _ hpoisoned => simp [(ho.coordinated hg).sound] at hpoisoned
  | send g hg hp =>
    refine ⟨hstopped, winding_of_turn hg rfl ?_ ?_⟩
    · by_cases hprecise : g.strategy = .precise <;>
        simp [Generator.sendsLeft, Generator.aboutToSend, Generator.result?, hp,
          Generator.afterSending, hprecise, Nat.add_assoc]
    · by_cases hprecise : g.strategy = .precise
      · simp only [Generator.turnsToEnd, hp, Generator.afterSending, if_pos hprecise]
        omega
      · simp only [Generator.turnsToEnd, hp, Generator.afterSending, if_neg hprecise]
        omega
  | seeAck g hg hp hacked =>
    -- the acknowledgement becomes the interrupt that it asks for
    have hprecise : g.strategy = .precise := (ho.coordinated hg).meets (by simp [hp])
    refine ⟨hstopped, winding_of_turn hg rfl ?_ ?_⟩
    · simp [Generator.sendsLeft, Generator.aboutToSend, Generator.result?, hp, hprecise, hacked]
    · simp [Generator.turnsToEnd, hp, hacked]
  | seeStop g hg hp =>
    refine ⟨hstopped, winding_of_turn hg rfl ?_ ?_⟩
    · simp [Generator.sendsLeft, Generator.aboutToSend, Generator.result?, hp]
    · simp [Generator.turnsToEnd, hp]
  | park g hg hp _ hclear => simp [hpending hg (by simp [Generator.result?, hp])] at hclear
  | pause g hg hp hclear => simp [hpending hg (by simp [Generator.result?, hp])] at hclear
  | pauseOn g hg hp hclear => simp [hpending hg (by simp [Generator.result?, hp])] at hclear
  | pauseOver g hg hp hclear =>
    have hgoing : g.result? = none := by
      rcases hp with hp | hp <;> simp [Generator.result?, hp]
    simp [hpending hg hgoing] at hclear
  | breakPause _ hm g g' hg hp _ _ hs =>
    obtain rfl : { g with phase := .finished (.ok g.sent) } = g' := by
      simpa [Generator.step, hp, (ho.coordinated hg).isLocal] using hs
    have hturn : m.isGeneratorTurn.toNat = 1 := by
      rcases hm with rfl | rfl <;> rfl
    rw [hturn]
    refine ⟨hstopped, winding_of_turn hg rfl ?_ ?_⟩
    · simp [Generator.sendsLeft, Generator.aboutToSend, Generator.result?]
    · rcases hp with hp | hp <;> simp [Generator.turnsToEnd, hp]
  | stirWorker hw => exact (hworking hw rfl).elim
  | stirPause => exact hsame rfl hstopped ⟨rfl, rfl⟩
  | stirParked => exact hsame rfl hstopped ⟨rfl, rfl⟩
  | interrupt => exact hsame rfl hstopped ⟨rfl, rfl⟩
  | crash => cases hm

/-- Whatever happens after the stop. -/
theorem winding_of_run (ho : s.InOrder) (hstopped : s.worker.hasStopped = true)
    {later : List (LocalRun × LocalMove)} (hrun : Execution step s later s')
    (hsound : ∀ e ∈ later, e.2.isSound = true) :
    s'.InOrder ∧ s'.worker.hasStopped = true ∧ s'.sentAtMost ≤ s.sentAtMost ∧
      later.countP (fun e => e.2.isGeneratorTurn) + s'.turnsToEnd ≤ s.turnsToEnd := by
  refine hrun.invariant (P := fun later s' => s'.InOrder ∧ s'.worker.hasStopped = true ∧
    s'.sentAtMost ≤ s.sentAtMost ∧
    later.countP (fun e => e.2.isGeneratorTurn) + s'.turnsToEnd ≤ s.turnsToEnd) hsound
    ⟨ho, hstopped, Nat.le_refl _, by simp⟩ ?_
  rintro later s₁ m s₂ hm ⟨ho, hstopped, hsent, hturns⟩ hs
  have ht := transition_of_step hs
  obtain ⟨hstopped', hsent', hturns'⟩ := winding_transition ho hstopped ht hm
  refine ⟨inOrder_transition ho ht hm, hstopped', Nat.le_trans hsent' hsent, ?_⟩
  rw [Execution.countP_history_cons]
  omega

/-! ## The loop's own failure -/

/-- The move ends the worker's loop with an error. -/
def LoopFails (s : LocalRun) (m : LocalMove) (e : WorkerError) : Prop :=
  s.worker.isLooping = true ∧ ∃ s', s.step m = some s' ∧ s'.worker.failure? = some e

/-- A loop that has failed has failed for good, and for one reason. -/
theorem failure_of_loopFails {settings : WorkerSettings} {history : List (LocalRun × LocalMove)}
    (hrun : Execution step (.start settings) history s) {e : WorkerError}
    (hfails : ∃ entry ∈ history, LoopFails entry.1 entry.2 e) : s.worker.failure? = some e := by
  induction hrun with
  | nil =>
    obtain ⟨entry, hmem, -⟩ := hfails
    cases hmem
  | cons _ hs ih =>
    obtain ⟨entry, hmem, hentry⟩ := hfails
    rcases List.mem_cons.mp hmem with rfl | hmem
    · obtain ⟨-, s₁, hs₁, he⟩ := hentry
      obtain rfl := Option.some.inj (hs₁.symm.trans hs)
      exact he
    · have he := ih ⟨entry, hmem, hentry⟩
      rcases failure_transition (transition_of_step hs) with hsame | ⟨hnone, -⟩
      · exact hsame.trans he
      · simp [he] at hnone

/-! ## The outcome -/

variable {settings : WorkerSettings} {history : List (LocalRun × LocalMove)}

theorem course_of_run (hrun : Execution step (.start settings) history s) :
    s.worker.settings = settings ∧ s.worker.OnCourse := by
  induction hrun with
  | nil =>
    refine ⟨?_, Worker.onCourse_start settings⟩
    simp [start, Worker.start, apply_ite]
  | cons _ hs ih =>
    have ht := transition_of_step hs
    exact ⟨(settings_transition ht).trans ih.1, onCourse_transition ih.2 ht⟩

theorem inOrder_of_run (hlocal : settings.mode.hasLocalGenerator = true)
    (hrun : Execution step (.start settings) history s)
    (hsound : ∀ e ∈ history, e.2.isSound = true) : s.InOrder := by
  refine hrun.invariant (P := fun _ s => s.InOrder) hsound ?_ ?_
  · simp [InOrder, start, Worker.start, mode, hlocal]
  · intro _ s₁ m s₂ hm ho hs
    exact inOrder_transition ho (transition_of_step hs) hm

/-- A worker that has returned has seen its generator end. -/
theorem InOrder.generator_of_returned (ho : s.InOrder)
    (hreturned : s.worker.result?.isSome = true) :
    ∃ g, s.generator = some g ∧ g.result? = some (.ok g.sent) := by
  have hbegun : s.worker.phase ≠ .starting := by
    intro hstarting
    simp [Worker.result?, hstarting] at hreturned
  obtain ⟨g, hg⟩ := ho.exists_generator hbegun
  have hc := ho.coordinated hg
  obtain ⟨result, hresult⟩ := Option.isSome_iff_exists.mp (hc.returned hreturned)
  obtain rfl := hc.succeeds result (Generator.phase_of_result? hresult)
  exact ⟨g, hg, hresult⟩

theorem InOrder.generator_of_hasStopped (ho : s.InOrder) (hstopped : s.worker.hasStopped = true) :
    ∃ g, s.generator = some g := by
  refine ho.exists_generator fun hstarting => ?_
  simp [Worker.hasStopped, hstarting] at hstopped

/-- What a generator still does once it has been told to stop. -/
theorem InOrder.windingUp (ho : s.InOrder) (hstopped : s.worker.hasStopped = true)
    {later : List (LocalRun × LocalMove)} {s' : LocalRun} (hlater : Execution step s later s')
    (hsound : ∀ e ∈ later, e.2.isSound = true) :
    ∃ g g', s.generator = some g ∧ s'.generator = some g' ∧
      g'.sent ≤ g.sent + (if s.worker.settings.mode = .precise then 2 else 1) ∧
      later.countP (fun e => e.2.isGeneratorTurn) ≤ 5 ∧
      (g'.result? = none → (s'.step (.advance .generator)).isSome = true) := by
  obtain ⟨ho', hstopped', hsent, hturns⟩ := winding_of_run ho hstopped hlater hsound
  obtain ⟨g, hg⟩ := ho.generator_of_hasStopped hstopped
  obtain ⟨g', hg'⟩ := ho'.generator_of_hasStopped hstopped'
  have hsends := (ho.coordinated hg).strategy ▸ g.sendsLeft_le s.rendezvous.acked
  have hmax := g.turnsToEnd_le s.rendezvous.acked
  simp only [sentAtMost, turnsToEnd, hg, hg', Option.map_some, Option.getD_some] at hsent hturns
  exact ⟨g, g', hg, hg', by omega, by omega, canAdvance_stopped (ho'.coordinated hg') hg' hstopped'⟩

/-- Whatever a worker's token and probe answer: it returns only after its generator has ended.  Once
the generator has been told to stop it sends at most one interrupt more, and in precise mode at
most two; it takes at most five more turns, and the next of them is never held up, so it ends.  If
the loop has failed the run returns its error, whatever became of the generator, and a run that
ends well has its counts right. -/
theorem outcome_of_any_token :
    (∀ history s, Execution LocalRun.step (.start settings) history s →
      (∀ e ∈ history, e.2.isSound = true) → settings.mode.hasLocalGenerator = true →
        (s.worker.result?.isSome = true →
          ∃ g, s.generator = some g ∧ g.result? = some (.ok g.sent)) ∧
        (s.worker.hasStopped = true → ∀ later s', Execution LocalRun.step s later s' →
          (∀ e ∈ later, e.2.isSound = true) →
            ∃ g g', s.generator = some g ∧ s'.generator = some g' ∧
              g'.sent ≤ g.sent + (if settings.mode = .precise then 2 else 1) ∧
              later.countP (fun e => e.2.isGeneratorTurn) ≤ 5 ∧
              (g'.result? = none → (s'.step (.advance .generator)).isSome = true))) ∧
    (∀ history s, Execution LocalRun.step (.start settings) history s →
      ∀ result, s.worker.result? = some result →
        (∀ e, (∃ entry ∈ history, LoopFails entry.1 entry.2 e) → result = .error e) ∧
        (∀ report, result = .ok report →
          report.iterationsCompleted = settings.iterations ∧
          report.interruptsObserved.toNat = settings.iterations.toNat ∧
          (settings.mode = .precise →
            report.interruptsSent.map UInt64.toNat =
              some (report.interruptsObserved.toNat + 1)))) := by
  constructor
  · intro history s hrun hsound hlocal
    have ho := inOrder_of_run hlocal hrun hsound
    refine ⟨ho.generator_of_returned, fun hstopped later s' hlater hsound' => ?_⟩
    exact (course_of_run hrun).1 ▸ ho.windingUp hstopped hlater hsound'
  · intro history s hrun result hresult
    obtain ⟨rfl, hcourse⟩ := course_of_run hrun
    have hp : s.worker.phase = .finished result := Worker.phase_of_result? hresult
    constructor
    · intro e hfails
      have he := failure_of_loopFails hrun hfails
      cases result with
      | ok report => simp [Worker.failure?, hp] at he
      | error e' => simpa [Worker.failure?, hp] using he
    · rintro report rfl
      obtain ⟨hcompleted, hobserved⟩ := hcourse.report hp
      refine ⟨hcompleted, hobserved, fun hmode => ?_⟩
      rw [hobserved]
      exact hcourse.sent_of_precise hmode hp

/-- A token that tells of an interrupt before any was sent: the stop finds the generator at its
very start and an acknowledgement waiting, and two interrupts are sent after it.  And a token that
cannot sleep: its error is returned once the generator has ended. -/
theorem outcome_of_any_token_false :
    (∃ history s later s',
      Execution LocalRun.step (.start ⟨.precise, 1, .ofMillis 10, .ofMillis 1⟩) history s ∧
      s.worker.phase = .joining none ∧
      Execution LocalRun.step s later s' ∧
      later.countP (fun e => e.2.isGeneratorTurn) = 5 ∧
      (∃ g g', s.generator = some g ∧ s'.generator = some g' ∧ g'.sent ≤ g.sent + 2 ∧
        g'.sent = 2 ∧ g'.result? = some (.ok g'.sent)) ∧
      ∃ report, s'.worker.result? = some (.ok report) ∧
        report.interruptsSent.map UInt64.toNat = some (report.interruptsObserved.toNat + 1)) ∧
    ∃ history s,
      Execution LocalRun.step (.start ⟨.aggressive, 3, .ofMillis 10, .ofMillis 1⟩) history s ∧
      ∃ result, s.worker.result? = some result ∧ result = .error (.wait (.poisoned .token)) := by
  let worker : LocalMove := .advance .worker
  let generator : LocalMove := .advance .generator
  let line : LocalMove := .report true
  constructor
  · let stopped : LocalRun :=
      ⟨⟨⟨.precise, 1, .ofMillis 10, .ofMillis 1⟩, .joining none, 1, 1, 1, false⟩,
        some ⟨.precise, .entering, 0⟩, .new, ⟨true, []⟩, ⟨false, true, false, false⟩⟩
    have hrun : Execution LocalRun.step
        (.start ⟨.precise, 1, .ofMillis 10, .ofMillis 1⟩) _ stopped :=
      .of_replay .nil [worker, line, line, .endSleep (.ok .interrupted), line, .tellStatus false,
        line, worker, line, line, worker] rfl
    have hlater := Execution.of_replay (.nil : Execution LocalRun.step stopped [] stopped)
      [generator, generator, generator, generator, generator, worker] rfl
    have hwhole := Execution.of_replay hrun
      [generator, generator, generator, generator, generator, worker] rfl
    obtain ⟨g, hg, hdone⟩ := (outcome_of_any_token.1 _ _ hwhole (by decide) rfl).1 rfl
    obtain ⟨_, g', hstart, hg', hsent, -⟩ :=
      (outcome_of_any_token.1 _ _ hrun (by decide) rfl).2 rfl _ _ hlater (by decide)
    have hcounts := ((outcome_of_any_token.2 _ _ hwhole _ rfl).2 _ rfl).2.2 rfl
    obtain rfl := Option.some.inj hg
    obtain rfl := Option.some.inj hg'
    exact ⟨_, _, _, _, hrun, rfl, hlater, rfl, ⟨_, _, hstart, rfl, hsent, rfl, hdone⟩, _, rfl,
      hcounts⟩
  · have hrun := Execution.of_replay (.nil : Execution LocalRun.step
        (.start ⟨.aggressive, 3, .ofMillis 10, .ofMillis 1⟩) [] _)
      [worker, line, line, generator, .endSleep (.error (.poisoned .token)), worker, generator,
        worker] rfl
    have herror := (outcome_of_any_token.2 _ _ hrun _ rfl).1 (.wait (.poisoned .token))
      ⟨_, .tail _ (.tail _ (.tail _ (.head _))), rfl, _, rfl, rfl⟩
    exact ⟨_, _, hrun, _, rfl, herror⟩

end LocalRun

end InterruptStress
