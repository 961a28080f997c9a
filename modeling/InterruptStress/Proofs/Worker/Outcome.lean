import InterruptStress.Proofs.Worker.Accounting

/-!
# How a worker's run ends

A run is regular if its threads start and do not panic, its tokens are of the usual make, and in
precise mode nobody but the generator interrupts the worker.  The history of a regular run
explains its failure (`LocalRun.Explained`): the probe was detached at a line, or a sleep ran to
its end.  In precise mode a run that does not fail ends with all accounts settled
(`LocalRun.precise_outcome`).
-/

namespace InterruptStress

/-! ## Regular runs -/

/-- The moves of regular runs. -/
def LocalMove.isRegular (mode : Mode) : LocalMove → Bool
  | .interrupt => mode ≠ .precise
  | m => m.isOwn

theorem LocalMove.isRegular_of_isOwn {mode : Mode} {m : LocalMove} (h : m.isOwn = true) :
    m.isRegular mode = true := by
  cases m <;> first | exact h | cases h

theorem LocalMove.isSound_of_isRegular {mode : Mode} {m : LocalMove}
    (h : m.isRegular mode = true) : m.isSound = true := by
  cases m <;> first | rfl | cases h

namespace LocalRun

variable {s s' : LocalRun} {m : LocalMove}

/-- A worker without a generator of its own. -/
structure Alone (s : LocalRun) : Prop where
  generator : s.generator = none
  sound : s.rendezvous.poisoned = false
  begun : s.worker.phase ≠ .starting

theorem Alone.withWorker (h : s.Alone) {w : Worker} (hw : w.phase ≠ .starting) :
    Alone { s with worker := w } :=
  ⟨h.generator, h.sound, hw⟩

theorem begun_endLoop (w : Worker) (failure : Option WorkerError) :
    (w.endLoop failure).phase ≠ .starting := by
  unfold Worker.endLoop
  split <;> simp

theorem begun_afterLine (w : Worker) (line : WorkerLine) :
    (w.afterLine line).phase ≠ .starting := by
  cases line with
  | check =>
    simp only [Worker.afterLine]
    split
    · simp [Worker.resumeLoop]
    · exact begun_endLoop _ _
  | done => exact begun_endLoop _ _
  | _ => simp [Worker.afterLine]

/-- Whatever happens, a worker alone stays so. -/
theorem alone_transition (h : s.Alone) (ht : s.Transition m s') : s'.Alone := by
  have hnone {g : Generator} (hg : s.generator = some g) : False := by
    rw [h.generator] at hg
    cases hg
  cases ht with
  | start hw => exact absurd hw h.begun
  | failStart _ hw => exact absurd hw h.begun
  | takeLine line => exact h.withWorker (begun_afterLine _ line)
  | refuseLine => exact h.withWorker (begun_endLoop _ _)
  | endSleep result w hw hs =>
    rcases Worker.step_slept hw hs with ⟨e, -, rfl⟩ | ⟨-, rfl⟩ | ⟨-, rfl⟩
    · exact h.withWorker (begun_endLoop _ _)
    · exact h.withWorker (by simp)
    · exact h.withWorker (by simp)
  | read _ _ _ hw w hs =>
    rcases Worker.step_read hw hs with ⟨-, -, rfl⟩ | ⟨-, -, rfl⟩ | ⟨-, rfl⟩
    · exact h.withWorker (begun_endLoop _ _)
    · exact h.withWorker (by simp)
    · exact h.withWorker (by simp)
  | failAcknowledge => exact h.withWorker (begun_endLoop _ _)
  | stop failure hw r hr =>
    refine ⟨h.generator, ?_, (by simp)⟩
    rcases hr with ⟨-, -, hsound, rfl⟩ | ⟨-, rfl⟩
    · exact hsound
    · exact h.sound
  | doze | wake | oversleep | acknowledge | failStop => exact ⟨h.generator, h.sound, (by simp)⟩
  | dozeOn | interrupt | stirWorker => exact ⟨h.generator, h.sound, h.begun⟩
  | join _ _ _ hg | failJoin _ _ _ hg | enter _ hg | reenter _ hg | failEnter _ hg | send _ hg
  | seeAck _ hg | seeStop _ hg | park _ hg | pause _ hg | pauseOn _ hg | pauseOver _ hg
  | stirPause _ hg | stirParked _ hg | crash _ hg => exact (hnone hg).elim
  | breakPause _ _ _ _ hg => exact (hnone hg).elim

/-- What every state of a regular run has. -/
structure Regular (s : LocalRun) : Prop where
  course : s.worker.OnCourse
  order : s.mode.hasLocalGenerator = true → s.InOrder
  alone : s.mode.hasLocalGenerator = false → s.Alone
  balance : s.mode = .precise → s.InBalance

theorem regular_start (settings : WorkerSettings) : (LocalRun.start settings).Regular where
  course := Worker.onCourse_start settings
  order := fun hlocal => by
    have hmode : settings.mode.hasLocalGenerator = true := by
      simpa [mode, start, Worker.start, apply_ite] using hlocal
    simp [InOrder, start, Worker.start, mode, hmode]
  alone := fun hlocal => by
    have hmode : settings.mode.hasLocalGenerator = false := by
      simpa [mode, start, Worker.start, apply_ite] using hlocal
    exact ⟨rfl, rfl, by simp [start, Worker.start, hmode, Worker.resumeLoop]⟩
  balance := fun _ => rfl

theorem mode_transition (ht : s.Transition m s') : s'.mode = s.mode :=
  congrArg WorkerSettings.mode (settings_transition ht)

theorem regular_transition (h : s.Regular) (ht : s.Transition m s')
    (hm : m.isRegular s.mode = true) : s'.Regular where
  course := onCourse_transition h.course ht
  order := fun hlocal => by
    rw [mode_transition ht] at hlocal
    exact inOrder_transition (h.order hlocal) ht (LocalMove.isSound_of_isRegular hm)
  alone := fun hlocal => by
    rw [mode_transition ht] at hlocal
    exact alone_transition (h.alone hlocal) ht
  balance := fun hmode => by
    rw [mode_transition ht] at hmode
    have hown : m.isOwn = true := by
      cases m <;> simp_all [LocalMove.isRegular]
    exact inBalance_transition (h.balance hmode) (h.order (by simp [hmode, Mode.hasLocalGenerator]))
      h.course hmode ht hown

/-! ## What went wrong -/

/-- A sleep of the worker ran to its end. -/
def Overslept (history : List (LocalRun × LocalMove)) : Prop :=
  ∃ e ∈ history, e.2 = .expire .worker ∧ e.1.token.pending = false

/-- The worker's probe was detached at a line. -/
def Refused (history : List (LocalRun × LocalMove)) : Prop :=
  ∃ e ∈ history, e.2 = .report false

end LocalRun

namespace Worker

variable {w : Worker}

/-- The worker is about to find that its sleep was not interrupted. -/
def hasMissed (w : Worker) : Bool :=
  match w.phase with
  | .reporting .check => !w.interrupted
  | _ => false

@[simp] theorem hasMissed_resumeLoop : w.resumeLoop.hasMissed = false := by
  simp only [resumeLoop, nextLine]
  split <;> rfl

@[simp] theorem hasMissed_endLoop (failure : Option WorkerError) :
    (w.endLoop failure).hasMissed = false := by
  unfold endLoop
  split <;> rfl

@[simp] theorem hasMissed_afterLine (line : WorkerLine) :
    (w.afterLine line).hasMissed = false := by
  cases line with
  | check =>
    simp only [afterLine]
    split <;> simp
  | done => exact hasMissed_endLoop _
  | _ => rfl

/-- Whatever happens next to a worker that has missed an interrupt makes it fail. -/
theorem failure?_of_hasMissed {event : WorkerEvent} {w' : Worker} (h : w.hasMissed = true)
    (hs : w.step event = some w') : w'.failure?.isSome = true := by
  unfold hasMissed at h
  split at h
  next hw =>
    have hcaught : w.interrupted = false := by simpa using h
    cases event with
    | reported accepted =>
      cases accepted with
      | true =>
        obtain rfl : w.afterLine .check = w' := by simpa [step, hw] using hs
        simp [failure?_afterLine_check hcaught]
      | false =>
        obtain rfl : w.endLoop (some .detached) = w' := by simpa [step, hw] using hs
        simp
    | _ => simp [step, hw] at hs
  next => cases h

end Worker

namespace LocalRun

variable {s s' : LocalRun} {m : LocalMove}

/-- Only a sleep that runs to its end is missed. -/
theorem missed_transition (h : s.Regular) (ht : s.Transition m s')
    (hm : m.isRegular s.mode = true) (hmissed : s'.worker.hasMissed = true) :
    s.worker.hasMissed = true ∨ m = .expire .worker ∧ s.token.pending = false := by
  cases ht with
  | takeLine line => simp at hmissed
  | refuseLine => simp at hmissed
  | oversleep _ hclear => exact .inr ⟨rfl, hclear⟩
  | endSleep => cases hm
  | read _ _ _ hw w hs =>
    rcases Worker.step_read hw hs with ⟨-, -, rfl⟩ | ⟨-, -, rfl⟩ | ⟨-, rfl⟩
    · simp at hmissed
    · cases hmissed
    · simp [Worker.hasMissed, (h.course.awake (.inl hw)).2.2] at hmissed
  | acknowledge hw => simp [Worker.hasMissed, (h.course.awake (.inr hw)).2.2] at hmissed
  | failAcknowledge => simp at hmissed
  | start => simp at hmissed
  | failStart | doze | wake | stop | failStop | join | failJoin => cases hmissed
  | _ => exact .inl hmissed

/-- A sleep that runs to its end is missed. -/
theorem hasMissed_of_oversleep (h : s.Regular) (ht : s.Transition (.expire .worker) s')
    (hclear : s.token.pending = false) : s'.worker.hasMissed = true := by
  cases ht with
  | wake _ _ _ hset => simp [hclear] at hset
  | oversleep hw => simp [Worker.hasMissed, (h.course.asleep hw).2.2]
  | read _ _ hm => rcases hm with ⟨hm, -⟩ | hm <;> cases hm
  | breakPause _ hm => rcases hm with hm | hm <;> cases hm

/-! ## Failures explained -/

theorem Regular.sound (h : s.Regular) : s.rendezvous.poisoned = false := by
  cases hlocal : s.mode.hasLocalGenerator with
  | false => exact (h.alone hlocal).sound
  | true =>
    have ho := h.order hlocal
    cases hg : s.generator with
    | none => exact (ho.starting hg).2.2.1 ▸ rfl
    | some g => exact (ho.coordinated hg).sound

/-- The generator of a regular run ends well. -/
theorem Regular.succeeds (h : s.Regular) {g : Generator} (hg : s.generator = some g)
    {result : Except GeneratorError Nat} (hp : g.phase = .finished result) :
    result = .ok g.sent := by
  cases hlocal : s.mode.hasLocalGenerator with
  | false => cases (h.alone hlocal).generator.symm.trans hg
  | true => exact ((h.order hlocal).coordinated hg).succeeds _ hp

/-- The errors that are left when nothing is wrong with the threads and with the handing over. -/
theorem Regular.fault (h : s.Regular) (hm : m.isRegular s.mode = true) {e : WorkerError}
    (hnone : s.worker.failure? = none) (hf : s.Fault m e) :
    m = .report false ∧ e = .detached ∨
      s.worker.hasMissed = true ∧ e = .violation (.notInterrupted s.worker.iteration) := by
  have hlocal (hmode : s.mode = .precise) : s.mode.hasLocalGenerator = true := by
    rw [hmode]
    rfl
  have hbalanced (hmode : s.mode = .precise) (hw : s.worker.phase ≠ .starting) :
      ∃ g, s.generator = some g ∧ Balanced s.worker g s.token.pending s.rendezvous.acked := by
    obtain ⟨g, hg⟩ := (h.order (hlocal hmode)).exists_generator hw
    exact ⟨g, hg, (h.balance hmode).balanced hg hnone⟩
  cases hf with
  | refused => exact .inl ⟨rfl, rfl⟩
  | uninterrupted hw hcaught => exact .inr ⟨by simp [Worker.hasMissed, hw, hcaught], rfl⟩
  | uncleared m hread hw hmode =>
    -- the worker has the baton, so its token has not
    have hset : s.token.pending = true := by
      rcases hread with ⟨-, hset⟩ | rfl
      · exact hset
      · cases hm
    obtain ⟨g, -, hb⟩ := hbalanced hmode (by simp [hw])
    have hbaton := hb.baton
    simp [hset, Worker.owesAck, hw] at hbaton
    omega
  | unaccounted g sent hw hg hp hmode hsent =>
    obtain ⟨g', hg', hb⟩ := hbalanced hmode (by simp [hw])
    obtain rfl : g = g' := Option.some.inj (hg.symm.trans hg')
    have hcourse := h.course.counters
    unfold Worker.CountersAgree at hcourse
    rw [hw] at hcourse
    have hdone : sent = g.sent := Except.ok.inj (h.succeeds hg hp)
    have hacked : s.rendezvous.acked = false := hb.settled (by simp [Generator.result?, hp])
    have hcount := hb.count
    simp [Generator.aboutToSend, hp, hacked, Worker.acks, hw] at hcount
    omega
  | poisoned hpoisoned => simp [h.sound] at hpoisoned
  | badSleep => cases hm
  | badGenerator g e hg hp => cases h.succeeds hg hp
  | unstarted => cases hm

/-- The history explains why the worker failed, if it did, and leaves it no choice. -/
structure Explained (history : List (LocalRun × LocalMove)) (s : LocalRun) : Prop where
  failed : ∀ e, s.worker.failure? = some e →
    e = .detached ∧ Refused history ∨
      (∃ iteration, e = .violation (.notInterrupted iteration)) ∧ Overslept history
  missed : s.worker.hasMissed = true → Overslept history
  overslept : Overslept history → s.worker.hasMissed = true ∨ s.worker.failure?.isSome = true
  refused : Refused history → s.worker.failure?.isSome = true

theorem explained_start (settings : WorkerSettings) : Explained [] (.start settings) := by
  have hfresh : (Worker.start settings).failure? = none ∧
      (Worker.start settings).hasMissed = false := by
    unfold Worker.start
    split
    · exact ⟨rfl, rfl⟩
    · exact ⟨Worker.failure?_resumeLoop, Worker.hasMissed_resumeLoop⟩
  refine ⟨fun e he => ?_, fun hmissed => ?_, ?_, ?_⟩
  · simp [start, hfresh.1] at he
  · simp [start, hfresh.2] at hmissed
  · rintro ⟨e, he, -⟩
    cases he
  · rintro ⟨e, he, -⟩
    cases he

theorem Overslept.cons {history : List (LocalRun × LocalMove)} (h : Overslept history)
    (e : LocalRun × LocalMove) : Overslept (e :: history) := by
  obtain ⟨e', he, h⟩ := h
  exact ⟨e', .tail _ he, h⟩

theorem Refused.cons {history : List (LocalRun × LocalMove)} (h : Refused history)
    (e : LocalRun × LocalMove) : Refused (e :: history) := by
  obtain ⟨e', he, h⟩ := h
  exact ⟨e', .tail _ he, h⟩

/-- A worker that has failed does not recover. -/
theorem failed_transition (ht : s.Transition m s') (hfailed : s.worker.failure?.isSome = true) :
    s'.worker.failure?.isSome = true := by
  rcases failure_transition ht with h | ⟨h, -⟩
  · rwa [h]
  · simp [h] at hfailed

theorem explained_transition {history : List (LocalRun × LocalMove)} (h : Explained history s)
    (hregular : s.Regular) (ht : s.Transition m s') (hm : m.isRegular s.mode = true) :
    Explained ((s, m) :: history) s' where
  failed := by
    intro e he
    rcases failure_transition ht with hsame | ⟨hnone, e', he', hf⟩
    · rcases h.failed e (hsame ▸ he) with ⟨hdetached, hrefused⟩ | ⟨hmissed, hslept⟩
      · exact .inl ⟨hdetached, hrefused.cons _⟩
      · exact .inr ⟨hmissed, hslept.cons _⟩
    · obtain rfl : e' = e := Option.some.inj (he'.symm.trans he)
      rcases hregular.fault hm hnone hf with ⟨rfl, rfl⟩ | ⟨hmissed, rfl⟩
      · exact .inl ⟨rfl, (s, .report false), .head _, rfl⟩
      · exact .inr ⟨⟨_, rfl⟩, (h.missed hmissed).cons _⟩
  missed := by
    intro hmissed
    rcases missed_transition hregular ht hm hmissed with hmissed | ⟨rfl, hclear⟩
    · exact (h.missed hmissed).cons _
    · exact ⟨_, .head _, rfl, hclear⟩
  overslept := by
    rintro ⟨e, he, hslept, hclear⟩
    rcases List.mem_cons.mp he with rfl | he
    · obtain rfl : m = .expire .worker := hslept
      exact .inl (hasMissed_of_oversleep hregular ht hclear)
    · rcases h.overslept ⟨e, he, hslept, hclear⟩ with hmissed | hfailed
      · rcases worker_transition ht with hw | ⟨event, hs⟩
        · exact .inl (hw ▸ hmissed)
        · exact .inr (Worker.failure?_of_hasMissed hmissed hs)
      · exact .inr (failed_transition ht hfailed)
  refused := by
    rintro ⟨e, he, hrefused⟩
    rcases List.mem_cons.mp he with rfl | he
    · obtain rfl : m = .report false := hrefused
      cases ht with
      | refuseLine => simp
      | wake _ hm => rcases hm with hm | hm <;> cases hm
      | read _ _ hm => rcases hm with ⟨hm, -⟩ | hm <;> cases hm
      | breakPause _ hm => rcases hm with hm | hm <;> cases hm
    · exact failed_transition ht (h.refused ⟨e, he, hrefused⟩)

/-- Every state of a regular run is regular and explained. -/
theorem regular_and_explained {settings : WorkerSettings} {history : List (LocalRun × LocalMove)}
    (hrun : Execution LocalRun.step (.start settings) history s)
    (hregular : ∀ e ∈ history, e.2.isRegular settings.mode = true) :
    s.worker.settings = settings ∧ s.Regular ∧ Explained history s := by
  refine hrun.invariant (P := fun history s => s.worker.settings = settings ∧ s.Regular ∧
    Explained history s) hregular ⟨?_, regular_start settings, explained_start settings⟩ ?_
  · simp [start, Worker.start, apply_ite]
  · rintro history s m s' hm ⟨hset, hr, hx⟩ hs
    have ht := transition_of_step hs
    have hm : m.isRegular s.mode = true := by
      rw [mode, hset]
      exact hm
    exact ⟨(settings_transition ht).trans hset, regular_transition hr ht hm,
      explained_transition hx hr ht hm⟩

/-! ## Precise runs -/

variable {settings : WorkerSettings} {history : List (LocalRun × LocalMove)}

/-- A run that has ended well has ended its generator too, and reports what that has sent. -/
theorem Regular.reports (h : s.Regular) (hlocal : s.mode.hasLocalGenerator = true)
    {report : WorkerReport} (hp : s.worker.phase = .finished (.ok report)) :
    ∃ g, s.generator = some g ∧ g.phase = .finished (.ok g.sent) ∧
      report.interruptsSent = some (.ofNat g.sent) := by
  obtain ⟨g, hg⟩ := (h.order hlocal).exists_generator (by simp [hp])
  have hc := (h.order hlocal).coordinated hg
  obtain ⟨result, hresult⟩ := Option.isSome_iff_exists.mp
    (hc.returned (by simp [Worker.result?, hp]))
  have hphase := Generator.phase_of_result? hresult
  rw [hc.succeeds result hphase] at hphase
  exact ⟨g, hg, hphase, hc.reports report hp⟩

/-- Once a precise run has ended well, one interrupt more was sent than there are iterations, and
that one is left. -/
theorem Regular.settled (h : s.Regular) (hmode : s.mode = .precise) {report : WorkerReport}
    (hp : s.worker.phase = .finished (.ok report)) :
    ∃ g, s.generator = some g ∧ g.sent = s.worker.iterations + 1 ∧
      g.phase = .finished (.ok g.sent) ∧ s.token.pending = true ∧
      report.interruptsSent = some (.ofNat g.sent) := by
  obtain ⟨g, hg, hphase, hreports⟩ := h.reports (by rw [hmode]; rfl) hp
  obtain ⟨hbaton, hcount, hsettled⟩ :=
    (h.balance hmode).balanced hg (by simp [Worker.failure?, hp])
  have hcompleted := (h.course.finished hp).1
  -- nobody else can have the baton any more
  have hidle : g.aboutToSend = false ∧ s.worker.owesAck = false ∧ s.rendezvous.acked = false :=
    ⟨by simp [Generator.aboutToSend, hphase], by simp [Worker.owesAck, hp],
      hsettled (by simp [Generator.result?, hphase])⟩
  have hacks : s.worker.acks = s.worker.completed := by simp [Worker.acks, hp]
  simp only [hidle, Bool.toNat_false] at hbaton hcount
  refine ⟨g, hg, by omega, hphase, ?_, hreports⟩
  cases hpending : s.token.pending with
  | true => rfl
  | false => simp [hpending] at hbaton

/-- However the worker, its generator, spurious wakeups, sleeps that end and a probe that detaches
are interleaved: a precise run never fails for its accounts or for its status.  If it ends well,
all its iterations were run, each with one interrupt, one interrupt more was sent, and that one is
still pending.  Else the probe was detached, or a sleep ran to its end. -/
theorem precise_outcome (hmode : settings.mode = .precise)
    (hrun : Execution LocalRun.step (.start settings) history s)
    (hown : ∀ e ∈ history, e.2.isOwn = true) {result : Except WorkerError WorkerReport}
    (hresult : s.worker.result? = some result) :
    (∀ iteration, result ≠ .error (.violation (.statusNotCleared iteration))) ∧
    (∀ sent observed, result ≠ .error (.violation (.accountingMismatch sent observed))) ∧
    (∀ report, result = .ok report →
      report.iterationsCompleted = settings.iterations ∧
      report.interruptsObserved.toNat = settings.iterations.toNat ∧
      report.interruptsSent.map UInt64.toNat = some (settings.iterations.toNat + 1) ∧
      s.token.pending = true ∧
      s.worker.observed = settings.iterations.toNat ∧
      ∃ g, s.generator = some g ∧
        g.phase = .finished (.ok (settings.iterations.toNat + 1))) ∧
    (∀ e, result = .error e →
      (∃ iteration, e = .violation (.notInterrupted iteration)) ∧ Overslept history ∨
        e = .detached ∧ Refused history) := by
  obtain ⟨rfl, hr, hx⟩ := regular_and_explained hrun fun e he =>
    LocalMove.isRegular_of_isOwn (hown e he)
  have hp : s.worker.phase = .finished result := Worker.phase_of_result? hresult
  cases result with
  | error e =>
    have hwhy := hx.failed e (by simp [Worker.failure?, hp])
    refine ⟨?_, ?_, by simp, ?_⟩
    · rintro iteration ⟨⟩
      rcases hwhy with ⟨h, -⟩ | ⟨⟨_, h⟩, -⟩ <;> cases h
    · rintro sent observed ⟨⟩
      rcases hwhy with ⟨h, -⟩ | ⟨⟨_, h⟩, -⟩ <;> cases h
    · rintro e ⟨⟩
      exact hwhy.symm
  | ok report =>
    obtain ⟨g, hg, hsent, hdone, hpending, hreport⟩ := hr.settled hmode hp
    obtain ⟨hcompleted, hobserved⟩ := hr.course.report hp
    have hcounted := (hr.course.finished hp).2.1
    have hlt : s.worker.iterations + 1 < 2 ^ 64 := by
      have := s.worker.settings.iterations.toNat_lt
      unfold Worker.iterations
      omega
    refine ⟨by simp, by simp, ?_, by simp⟩
    rintro report ⟨⟩
    refine ⟨hcompleted, hobserved, ?_, hpending, hcounted, g, hg, ?_⟩
    · rw [hreport, hsent]
      exact congrArg some (Nat.mod_eq_of_lt hlt)
    · rw [hdone, hsent]
      rfl

/-- A precise run of one iteration in which worker and generator both have to wait. -/
theorem precise_outcome_once :
    ∃ history s,
      Execution LocalRun.step (.start ⟨.precise, 1, .ofMillis 10, .ofMillis 1⟩) history s ∧
      s.worker.result? = some (.ok ⟨.precise, 1, 1, some 2⟩) ∧ s.token.pending = true := by
  let worker : LocalMove := .advance .worker
  let generator : LocalMove := .advance .generator
  let line : LocalMove := .report true
  have hrun := Execution.of_replay (.nil : Execution LocalRun.step
      (.start ⟨.precise, 1, .ofMillis 10, .ofMillis 1⟩) [] _)
    [worker, line, line, worker, generator, generator, worker, line, worker, line, generator,
      worker, generator, generator, generator, generator, line, line, worker, generator,
      generator, worker] rfl
  refine ⟨_, _, hrun, rfl, ?_⟩
  exact ((precise_outcome rfl hrun (by decide) rfl).2.2.1 _ rfl).2.2.2.1

end LocalRun

end InterruptStress
