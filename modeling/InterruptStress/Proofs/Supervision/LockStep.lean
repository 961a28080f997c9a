import InterruptStress.Proofs.Supervision.InStep
import InterruptStress.Proofs.Worker.Tally

/-!
# Lock step

A credit is whatever will release a suspended thread: a start or a suspended step that the
controller has still to answer, or a resume on its way to the target.  Credits are the resumes
among the commands that are under way, so there is one as long as the thread is suspended and
none otherwise (`Supervised.credits_of_inStep`).  Together with the count of the lines that the
worker has passed (`Supervised.Counted`) this gives lock step: no line is passed before its step
was counted.
-/

namespace InterruptStress

/-! ## Credits -/

/-- The thread that an event comes from stays suspended until the event is answered. -/
def TargetEvent.isSuspending : TargetEvent → Bool
  | .started _ => true
  | .step _ _ suspended => suspended
  | _ => false

theorem TargetEvent.count_answers (policy : SuspendPolicy) (event : TargetEvent) :
    (event.answers policy).count .resume = event.isSuspending.toNat := by
  cases event with
  | started thread => rfl
  | step thread location suspended => cases suspended <;> rfl
  | _ => rfl

theorem Tracer.count_awaited (t : Tracer) (policy : SuspendPolicy) :
    (t.awaited policy).count .resume = t.suspended.toNat := by
  unfold awaited
  cases t.suspended with
  | false => rfl
  | true => cases t.request <;> rfl

namespace Supervised

variable {s s' : Supervised}

/-- The starts and suspended steps that are not yet answered, and the resumes under way. -/
def credits (s : Supervised) : Nat :=
  s.target.link.events.queue.countP TargetEvent.isSuspending +
    s.controller.phase.acts.count (.send .resume) +
    s.target.link.commands.queue.count .resume

theorem count_flatMap_answers (policy : SuspendPolicy) (events : List TargetEvent) :
    (events.flatMap (TargetEvent.answers policy)).count .resume =
      events.countP TargetEvent.isSuspending := by
  induction events with
  | nil => rfl
  | cons event events ih =>
    rw [List.flatMap_cons, List.count_append, ih, TargetEvent.count_answers, List.countP_cons]
    cases event.isSuspending <;> simp [Nat.add_comm]

theorem count_filterMap_command? (acts : List ControllerAct) :
    (acts.filterMap ControllerAct.command?).count .resume = acts.count (.send .resume) := by
  induction acts with
  | nil => rfl
  | cons act acts ih =>
    cases act with
    | send command => simp [List.count_cons, ih]
    | startGenerator =>
      rw [List.filterMap_cons_none rfl, ih]
      exact (List.count_cons_of_ne (by simp)).symm

/-- The credits are the resumes among the commands under way. -/
theorem credits_eq_count (s : Supervised) : s.credits = s.due.count .resume := by
  rw [due, List.count_append, List.count_append, List.count_filter rfl, count_flatMap_answers,
    count_filterMap_command?, credits]
  omega

/-- There is one credit while the thread is suspended, and none otherwise. -/
theorem credits_of_inStep (h : s.InStep) : s.credits = s.target.tracer.suspended.toNat := by
  rw [credits_eq_count, h.stream, Tracer.count_awaited]

end Supervised

/-! ## Lines and steps -/

/-- The main thread waits in a line. -/
def MainPhase.isInLine : MainPhase → Bool
  | .parkedAtLine => true
  | _ => false

theorem TargetEvent.not_isStep_of_isFarewell {event : TargetEvent}
    (h : event.isFarewell = true) : event.isStep = false := by
  cases event <;> first | rfl | cases h

/-- Applying a resume releases the thread. -/
theorem Target.released_of_resume {t t' : Target} {move : Option LocalMove}
    {rest : List ControlCommand} (hq : t.link.commands.queue = .resume :: rest)
    (ht : t.Transition .applyCommand move t') :
    t'.tracer.suspended = false ∧ t'.tracer.parked = false := by
  cases ht with
  | resume => exact ⟨rfl, rfl⟩
  | ignore command rest _ hq' hother =>
    rw [hq] at hq'
    rcases hother with ⟨_, _, -, rfl⟩ | ⟨_, -, rfl⟩ <;> cases (List.cons.inj hq').1
  | request _ _ _ hq' | interrupt _ _ hq' | exit _ _ _ hq' =>
    rw [hq] at hq'
    cases (List.cons.inj hq').1
  | abandon _ hq' =>
    rw [hq] at hq'
    cases hq'
  | goLocal _ _ _ hm => rcases hm with ⟨hm, -⟩ | ⟨hm, -⟩ | ⟨_, hm, -⟩ | ⟨_, hm, -⟩ <;> cases hm

theorem Controller.steps_handle (c : Controller) (event : TargetEvent) :
    (c.handle event).steps = c.steps + event.isStep.toNat := by
  cases event with
  | threadDeath thread =>
    simp only [handle]
    split <;> rfl
  | _ => rfl

namespace Channel

variable {α : Type} {c : Channel α} {value other : α}

theorem of_mem_offer (h : other ∈ (c.offer value).queue) : other ∈ c.queue ∨ other = value := by
  unfold offer send at h
  cases hreceiving : c.receiving with
  | true => simpa [hreceiving] using h
  | false => exact .inl (by simpa [hreceiving] using h)

theorem countP_offer_of_not {p : α → Bool} (h : p value = false) :
    (c.offer value).queue.countP p = c.queue.countP p := by
  unfold offer send
  cases hreceiving : c.receiving <;> simp [h]

end Channel

namespace Supervised

variable {s s' : Supervised} {passed : Nat}

/-- Every line that was passed, or is waited in, has sent its step. -/
structure Counted (passed : Nat) (s : Supervised) : Prop where
  count : s.controller.steps + s.target.link.events.queue.countP TargetEvent.isStep =
    passed + s.target.main.isInLine.toNat
  unstarted : s.target.main = .entering ∨ s.target.main = .parkedAtStart → passed = 0
  suspending : ∀ thread location suspended,
    .step thread location suspended ∈ s.target.link.events.queue →
      suspended = (s.controller.settings.suspend == .thread)

theorem counted_launch (controller : ControllerSettings) (worker : WorkerSettings) :
    (launch controller worker).Counted 0 where
  count := rfl
  unstarted := fun _ => rfl
  suspending := by simp [launch, Target.launch, Channel.offer, Channel.send, Channel.new]

/-- Whatever a target does, each of its lines sends one step. -/
theorem counted_target {m : TargetMove} {move : Option LocalMove} {t : Target} (h : s.InStep)
    (hc : s.Counted passed) (ht : s.target.Transition m move t) :
    Counted (passed + (move.any LocalMove.isPassing).toNat) { s with target := t } := by
  have hcount := hc.count
  cases ht with
  | waitForStart hmain =>
    have hstart := Target.of_isEntering hmain
    exact { hc with
      count := by rcases hstart with hmain | hmain <;> rw [hmain] at hcount <;> exact hcount
      unstarted := fun _ => hc.unstarted hstart }
  | begin hmain =>
    have hstart := Target.of_isEntering hmain
    exact { hc with
      count := by rcases hstart with hmain | hmain <;> rw [hmain] at hcount <;> exact hcount
      unstarted := by simp }
  | refuseStart _ hdetached => simp [h.attached] at hdetached
  | suspend line hmain hw _ hrequest hheard =>
    rw [Channel.offer_of_receiving _ hheard]
    rw [hmain] at hcount
    exact {
      count := by
        simpa [Tracer.stepEvent, TargetEvent.isStep, MainPhase.isInLine, ← Nat.add_assoc]
          using hcount
      unstarted := by simp
      suspending := by
        intro thread location suspended hmem
        rcases List.mem_append.mp hmem with hmem | hmem
        · exact hc.suspending _ _ _ hmem
        · have hevent : TargetEvent.step thread location suspended =
              .step s.target.tracer.thread ⟨workerMethod, line.number⟩ true :=
            List.mem_singleton.mp hmem
          rw [← h.policy _ hrequest]
          exact (TargetEvent.step.inj hevent).2.2 }
  | step line run hmain hw _ hrequest hheard =>
    rw [Channel.offer_of_receiving _ hheard]
    rw [hmain] at hcount
    exact {
      count := by
        simpa [Tracer.stepEvent, TargetEvent.isStep, hmain, MainPhase.isInLine, ← Nat.add_assoc]
          using hcount
      unstarted := by simp [hmain]
      suspending := by
        intro thread location suspended hmem
        rcases List.mem_append.mp hmem with hmem | hmem
        · exact hc.suspending _ _ _ hmem
        · have hevent : TargetEvent.step thread location suspended =
              .step s.target.tracer.thread ⟨workerMethod, line.number⟩ false :=
            List.mem_singleton.mp hmem
          rw [← h.policy _ hrequest]
          exact (TargetEvent.step.inj hevent).2.2 }
  | pass line run hmain _ _ hrequest =>
    have hsuspended := h.requested hrequest
    simp [h.released (.inl hmain)] at hsuspended
  | lose line policy run hmain _ _ _ hdeaf =>
    have hopen := (h.serving fun exit hended => by simp [hmain] at hended).2.1
    simp [h.heard hdeaf, ControllerPhase.isOpen] at hopen
  | refuse _ _ _ hdetached => simp [h.attached] at hdetached
  | goOn run hmain =>
    rw [hmain] at hcount
    exact { hc with
      count := by simpa [MainPhase.isInLine] using hcount
      unstarted := by simp }
  | finish result hmain =>
    rw [hmain] at hcount
    exact { hc with
      count := hcount
      unstarted := by simp }
  | goLocal m move run hm =>
    have hquiet : move.isPassing = false := by
      rcases hm with ⟨-, -, rfl⟩ | ⟨-, rfl⟩ | ⟨_, -, rfl⟩ | ⟨_, -, rfl⟩ <;> rfl
    simp only [Option.any_some, hquiet, Bool.toNat_false, Nat.add_zero]
    exact { hc with }
  | announce event rest hagent =>
    have hother : event.isStep = false :=
      TargetEvent.not_isStep_of_isFarewell (h.isFarewell_of_announce hagent)
    exact {
      count := by
        refine Eq.trans ?_ hcount
        simp only [Channel.countP_offer_of_not hother]
      unstarted := hc.unstarted
      suspending := by
        intro thread location suspended hmem
        rcases Channel.of_mem_offer hmem with hmem | rfl
        · exact hc.suspending _ _ _ hmem
        · cases hother }
  | _ => exact { hc with }

/-- Whatever a controller does, it counts each step once. -/
theorem counted_controller {m : ControllerMove} {c : Controller} {link : Link} (h : s.InStep)
    (hc : s.Counted passed) (ht : s.controller.Transition s.target.openLink m c link) :
    Counted passed ⟨c, { s.target with link }⟩ := by
  have hcount := hc.count
  cases ht with
  | take writing event rest _ hq =>
    have hq : s.target.link.events.queue = event :: rest := hq
    have hset := Controller.settings_handle (c := { s.controller with
      log := s.controller.log.record event writing }) event
    have hsteps := Controller.steps_handle { s.controller with
      log := s.controller.log.record event writing } event
    exact {
      count := by
        have hone : (if event.isStep = true then 1 else 0) = event.isStep.toNat := by
          cases event.isStep <;> rfl
        rw [hq, List.countP_cons, hone] at hcount
        refine Eq.trans ?_ hcount
        rw [hsteps, Nat.add_assoc, Nat.add_comm event.isStep.toNat]
      unstarted := hc.unstarted
      suspending := by
        intro thread location suspended hmem
        rw [hset]
        exact hc.suspending thread location suspended (hq ▸ List.mem_cons_of_mem _ hmem) }
  | takeLast _ _ _ hphase => exact absurd hphase h.not_draining
  | finish hphase =>
    obtain ⟨_, _, -, -, -, hq, -⟩ := h.left (by simp [hphase, ControllerPhase.isOpen])
    rw [hq] at hcount
    exact { hc with
      count := hcount
      suspending := by simp [Channel.close] }
  | _ => exact { hc with }

/-- No line is ever refused before a verdict is taken. -/
theorem not_refused {m : TargetMove} {move : Option LocalMove} {t : Target} (h : s.InStep)
    (ht : s.target.Transition m move t) : move ≠ some (.report false) := by
  cases ht with
  | lose line policy run hmain _ _ _ hdeaf =>
    have hopen := (h.serving fun exit hended => by simp [hmain] at hended).2.1
    simp [h.heard hdeaf, ControllerPhase.isOpen] at hopen
  | refuse _ _ _ hdetached => simp [h.attached] at hdetached
  | goLocal m move run hm =>
    rcases hm with ⟨-, -, rfl⟩ | ⟨-, rfl⟩ | ⟨_, -, rfl⟩ | ⟨_, -, rfl⟩ <;> simp
  | _ => simp

/-! ## Whole runs -/

variable {controller : ControllerSettings} {worker : WorkerSettings}
  {history : List (Supervised × SupervisedMove)}

theorem counted_of_run (hrun : Execution step (launch controller worker) history s)
    (hhang : s.controller.hang = none) : s.Counted (linesPassed (localHistory history)) := by
  refine unhung_induction (P := fun history s => s.Counted (linesPassed (localHistory history)))
    (counted_launch controller worker) ?_ ?_ hrun hhang
  · intro history s m t h hc ht
    rw [linesPassed, countP_localHistory_cons]
    exact counted_target h hc ht
  · intro history s m c link h hc ht _
    rw [linesPassed, countP_localHistory_cons]
    exact counted_controller h hc ht

/-- A target that is driven step by step. -/
structure LockStep (history : List (Supervised × SupervisedMove)) (s : Supervised) : Prop where
  suspended : s.target.tracer.suspended = true ↔ s.credits = 1
  released : s.target.tracer.suspended = false ↔ s.credits = 0
  /-- A resume that is about to be sent will be queued. -/
  sent : ∀ rest, s.controller.phase = .acting (.send .resume :: rest) →
    s.target.agent = .serving ∧ s.target.link.commands.receiving = true
  /-- A resume that is queued will be applied. -/
  queued : .resume ∈ s.target.link.commands.queue → s.target.agent = .serving
  /-- A resume that is applied releases a thread that was suspended. -/
  applied : ∀ rest s', s.target.link.commands.queue = .resume :: rest →
    s.step (.target .applyCommand) = some s' →
      s.target.tracer.suspended = true ∧ s'.target.tracer.suspended = false ∧
        s'.target.tracer.parked = false
  /-- No line is passed before its step was counted. -/
  counted : linesPassed (localHistory history) ≤ s.controller.steps
  inFlight : s.target.link.events.queue.countP TargetEvent.isStep ≤ 1
  /-- A thread that waits in the start or in a line will be released, or has been and was
  notified. -/
  parked : s.target.main = .parkedAtStart ∨ s.target.main = .parkedAtLine →
    s.target.tracer.suspended = true ∧ s.credits = 1 ∨
      s.target.tracer.suspended = false ∧ s.target.tracer.parked = false

/-- With steps that suspend, a controller and its target are in lock step in every state before a
verdict is taken, whatever the mode and however often the worker is interrupted meanwhile. -/
theorem lockStep_of_run (hpolicy : controller.suspend = .thread)
    (hrun : Execution step (launch controller worker) history s)
    (hhang : s.controller.hang = none) : s.LockStep history := by
  have h := inStep_of_run hrun hhang
  have hc := counted_of_run hrun hhang
  have hset := settings_of_run hrun
  have hcredits := credits_of_inStep h
  have hqueued (hmem : ControlCommand.resume ∈ s.target.link.commands.queue) :
      .resume ∈ s.due := by
    refine List.mem_append_left _ (List.mem_append_left _ ?_)
    exact List.mem_filter.mpr ⟨hmem, rfl⟩
  -- every step suspends, and so is a credit
  have hsteps : s.target.link.events.queue.countP TargetEvent.isStep ≤ s.credits := by
    refine Nat.le_trans (List.countP_mono_left fun event hmem hstep => ?_)
      (Nat.le_trans (Nat.le_add_right _ _) (Nat.le_add_right _ _))
    cases event with
    | step thread location suspended =>
      rw [TargetEvent.isSuspending, hc.suspending _ _ _ hmem, hset, hpolicy]
      rfl
    | _ => cases hstep
  have hone : s.credits ≤ 1 := hcredits ▸ Bool.toNat_le _
  refine ⟨?_, ?_, ?_, ?_, ?_, ?_, Nat.le_trans hsteps hone, ?_⟩
  · rw [hcredits]
    cases s.target.tracer.suspended <;> decide
  · rw [hcredits]
    cases s.target.tracer.suspended <;> decide
  · intro rest hphase
    have hmem : ControlCommand.resume ∈ s.due := by
      simp [due, hphase, ControllerPhase.acts]
    exact (h.serving_of_due hmem).2.2
  · exact fun hmem => (h.serving_of_due (hqueued hmem)).2.2.1
  · intro rest s' hq hs
    refine ⟨(h.serving_of_due (hqueued (by simp [hq]))).1, ?_⟩
    obtain ⟨t, ht, rfl⟩ := of_targetStep hs
    exact Target.released_of_resume hq ht
  · have hcount := hc.count
    cases hmain : s.target.main with
    | parkedAtLine =>
      rw [hmain] at hcount
      simp only [MainPhase.isInLine, Bool.toNat_true] at hcount
      omega
    | entering | parkedAtStart =>
      have hnone := hc.unstarted (by simp [hmain])
      omega
    | working | ended =>
      -- the thread is not suspended, so no step is in flight
      rw [hcredits, h.released (by simp [hmain])] at hsteps
      rw [hmain] at hcount
      simp only [MainPhase.isInLine, Bool.toNat_false] at hcount hsteps
      omega
  · intro _
    cases hsuspended : s.target.tracer.suspended with
    | true => exact .inl ⟨rfl, by rw [hcredits, hsuspended]; rfl⟩
    | false => exact .inr ⟨rfl, h.unparked hsuspended⟩

/-- The worker has passed its first line and waits in the second. -/
theorem lockStep_of_run_second :
    ∃ history s,
      Execution step (launch ⟨.precise, .ofMillis 100, .thread, .ofMillis 1, .ofMillis 5000⟩
        ⟨.precise, 1, .ofMillis 10, .ofMillis 1⟩) history s ∧
      s.controller.hang = none ∧ s.target.main = .parkedAtLine ∧ s.credits = 1 ∧
      linesPassed (localHistory history) = 1 ∧ 1 ≤ s.controller.steps := by
  let event : SupervisedMove := .controller (.receive default)
  let act : SupervisedMove := .controller .act
  let apply : SupervisedMove := .target .applyCommand
  let main : SupervisedMove := .target .main
  have hrun := Execution.of_replay (.nil : Execution step
      (launch ⟨.precise, .ofMillis 100, .thread, .ofMillis 1, .ofMillis 5000⟩
        ⟨.precise, 1, .ofMillis 10, .ofMillis 1⟩) [] _)
    [event, act, act, apply, apply, main, main, main, event, act, apply, main, main] rfl
  have hlock := lockStep_of_run rfl hrun rfl
  exact ⟨_, _, hrun, rfl, rfl, hlock.suspended.mp rfl, rfl, hlock.counted⟩

end Supervised

end InterruptStress
