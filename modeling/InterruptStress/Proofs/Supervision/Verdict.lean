import InterruptStress.Proofs.Supervision.Signalling
import InterruptStress.Report

/-!
# The verdict on a run

A controller's report passes its run if and only if the watchdog's verdict was not taken and no
sleep of the worker ran to its end, and then all its counts are right
(`Supervised.verdict_of_run`).  Until a verdict is taken the run of the target is a regular run of
the worker (`Supervised.regular_of_run`) whose result is the exit that the controller reports
(`Supervised.exit_of_run`).
-/

namespace InterruptStress

/-! ## Reports -/

/-- A report passes its run if there was no hang, the target ended well, and so did the
controller's generator if there was one. -/
theorem RunReport.passed_iff (r : RunReport) :
    r.passed = true ↔
      r.hang = none ∧ (∃ exit, r.exit = some exit ∧ exit.isSuccess = true) ∧
        ∀ reason, r.remote ≠ some (.error reason) := by
  have hhang : r.hangFailures = [] ↔ r.hang = none := by
    cases h : r.hang <;> simp [hangFailures, h]
  have hexit : r.exitFailures = [] ↔ ∃ exit, r.exit = some exit ∧ exit.isSuccess = true := by
    cases h : r.exit with
    | none => simp [exitFailures, h]
    | some exit => cases hok : exit.isSuccess <;> simp [exitFailures, h, hok]
  have hremote : r.remoteFailures = [] ↔ ∀ reason, r.remote ≠ some (.error reason) := by
    rcases h : r.remote with _ | _ | _ <;> simp [remoteFailures, h]
  simp only [passed, failures, List.isEmpty_iff, List.append_eq_nil_iff, hhang, hexit, hremote,
    and_assoc]

theorem Target.isSuccess_exitFor (result : Except WorkerError WorkerReport) :
    (exitFor result).isSuccess = true ↔ ∃ report, result = .ok report := by
  cases result with
  | ok report => exact iff_of_true rfl ⟨report, rfl⟩
  | error e =>
    have hfailed : (exitFor (.error e)).isSuccess = false := rfl
    simp [hfailed]

/-- A worker that has finished does nothing more. -/
theorem LocalRun.worker_of_finished {s s' : LocalRun} {m : LocalMove}
    {result : Except WorkerError WorkerReport} (ht : s.Transition m s')
    (hp : s.worker.phase = .finished result) : s'.worker = s.worker := by
  rcases worker_transition ht with hsame | ⟨event, hs⟩
  · exact hsame
  · cases event <;> simp [Worker.step, hp] at hs

namespace Supervised

variable {s s' : Supervised} {controller : ControllerSettings} {worker : WorkerSettings}
  {history : List (Supervised × SupervisedMove)}

/-! ## The worker's run -/

/-- The target's moves are moves of its worker's and its generator's, or interrupts. -/
theorem own_or_interrupt {m : TargetMove} {move : LocalMove} {t : Target}
    (ht : s.target.Transition m (some move) t) :
    move.isOwn = true ∨ move = .interrupt := by
  cases ht with
  | goLocal m move run hm =>
    rcases hm with ⟨-, -, rfl⟩ | ⟨-, rfl⟩ | ⟨_, -, rfl⟩ | ⟨_, -, rfl⟩ <;> exact .inl rfl
  | interrupt | interruptMain => exact .inr rfl
  | step | pass | lose | refuse | goOn => exact .inl rfl

theorem own_or_interrupt_of_run (hrun : Execution step (launch controller worker) history s) :
    ∀ e ∈ localHistory history, e.2.isOwn = true ∨ e.2 = .interrupt := by
  induction hrun with
  | nil => simp [localHistory]
  | @cons history s s' m _ hs ih =>
    cases hmove : s.localMove? m with
    | none => rwa [localHistory_cons_of_none hmove]
    | some move =>
      rw [localHistory_cons_of_some hmove]
      refine List.forall_mem_cons.mpr ⟨?_, ih⟩
      cases m with
      | controller m => cases hmove
      | target m =>
        obtain ⟨t, ht, -⟩ := of_targetStep hs
        rw [show s.target.localMove? m = some move from hmove] at ht
        exact own_or_interrupt ht

/-- Only a controller in remote mode interrupts from outside. -/
theorem Signalling.eq_zero {others : Nat} (hsig : s.Signalling others)
    (hlocal : s.controller.settings.mode.hasLocalGenerator = true) : others = 0 := by
  have hearned := hsig.earned
  have hopening := hsig.opening
  rw [Controller.signalled] at hearned
  generalize s.controller.sessions = sessions at hearned hopening
  cases hopening with
  | awaited => simpa using Nat.le_trans (Nat.le_add_right _ _) hearned
  | answered session _ hacts =>
    have hnone : session.generator = none := by
      cases hg : session.generator with
      | none => rfl
      | some g => simp [hlocal, hg] at hacts
    have hzero : session.sent = 0 := by rw [Session.sent, hnone]
    simpa [hzero] using Nat.le_trans (Nat.le_add_right _ _) hearned

/-- Until a verdict is taken, the target's run is a regular run of its worker. -/
theorem regular_of_run (hmode : controller.mode = worker.mode)
    (hrun : Execution step (launch controller worker) history s)
    (hhang : s.controller.hang = none) :
    ∀ e ∈ localHistory history, e.2.isRegular worker.mode = true := by
  intro e he
  rcases own_or_interrupt_of_run hrun e he with hown | hinterrupt
  · exact LocalMove.isRegular_of_isOwn hown
  · have hsome : 0 < interruptsByOthers (localHistory history) :=
      List.countP_pos_iff.mpr ⟨e, he, by rw [hinterrupt]; rfl⟩
    have hremote : worker.mode ≠ .precise := by
      intro hprecise
      have hlocal : s.controller.settings.mode.hasLocalGenerator = true := by
        rw [settings_of_run hrun, hmode, hprecise]
        rfl
      rw [(signalling_of_run hrun hhang).eq_zero hlocal] at hsome
      cases hsome
    simp [hinterrupt, LocalMove.isRegular, hremote]

/-- No line is refused before a verdict is taken. -/
theorem not_refused_of_run (hrun : Execution step (launch controller worker) history s)
    (hhang : s.controller.hang = none) : ¬ LocalRun.Refused (localHistory history) := by
  refine unhung_induction (P := fun history _ => ¬ LocalRun.Refused (localHistory history))
    ?_ ?_ ?_ hrun hhang
  · simp [LocalRun.Refused, localHistory]
  · intro history s m t h hgood ht
    cases hmove : s.target.localMove? m with
    | none => rwa [localHistory_cons_of_none (m := .target m) hmove]
    | some move =>
      rw [localHistory_cons_of_some (m := .target m) hmove]
      rintro ⟨e, he, hrefused⟩
      rcases List.mem_cons.mp he with rfl | he
      · exact not_refused h ht (hrefused ▸ hmove)
      · exact hgood ⟨e, he, hrefused⟩
  · intro history s m c link _ hgood _ _
    rwa [localHistory_cons_of_none rfl]

/-! ## The exit -/

/-- The main thread has ended with its worker. -/
def Ended (s : Supervised) : Prop :=
  ∀ exit, s.target.main = .ended exit →
    ∃ result, s.target.run.worker.phase = .finished result ∧ exit = Target.exitFor result

theorem ended_target {m : TargetMove} {move : Option LocalMove} {t : Target} (h : s.InStep)
    (hended : s.Ended) (ht : s.target.Transition m move t) : Ended { s with target := t } := by
  intro exit hmain
  cases ht with
  | finish result _ hw => exact ⟨result, hw, (MainPhase.ended.inj hmain).symm⟩
  | goLocal m move run hm hs =>
    obtain ⟨result, hw, rfl⟩ := hended exit hmain
    have hsame := LocalRun.worker_of_finished (LocalRun.transition_of_step hs) hw
    exact ⟨result, hsame ▸ hw, rfl⟩
  | refuseStart _ hdetached => simp [h.attached] at hdetached
  | waitForStart | begin | suspend | refuse | goOn => cases hmain
  | step _ _ hworking | pass _ _ hworking | lose _ _ _ hworking => cases hworking.symm.trans hmain
  | _ => exact hended exit hmain

theorem ended_of_run (hrun : Execution step (launch controller worker) history s)
    (hhang : s.controller.hang = none) : s.Ended := by
  refine unhung_induction (P := fun _ s => s.Ended) ?_ ?_ ?_ hrun hhang
  · intro exit hmain
    cases hmain
  · intro history s m t h hended ht
    exact ended_target h hended ht
  · intro history s m c link _ hended _ _
    exact hended

/-- A controller that has ended without a verdict reports how the worker ended. -/
theorem exit_of_run (hrun : Execution step (launch controller worker) history s)
    (hhang : s.controller.hang = none) (hend : s.controller.phase = .finished) :
    ∃ result, s.target.run.worker.phase = .finished result ∧
      s.target.main = .ended (Target.exitFor result) ∧
      s.controller.exit = some (Target.exitFor result) ∧ s.target.link.events.queue = [] := by
  have h := inStep_of_run hrun hhang
  obtain ⟨exit, _, -, hmain, hexit, hq, -⟩ := h.left (by simp [hend, ControllerPhase.isOpen])
  obtain ⟨result, hw, rfl⟩ := ended_of_run hrun hhang exit hmain
  exact ⟨result, hw, hmain, hexit, hq⟩

/-- A controller that has ended without a verdict has run a generator in remote mode only, and
that has ended well. -/
theorem remoteResult_of_run (hrun : Execution step (launch controller worker) history s)
    (hhang : s.controller.hang = none) (hend : s.controller.phase = .finished) :
    if controller.mode = .remote then
      ∃ session g, s.controller.sessions = [session] ∧ session.generator = some g ∧
        interruptsByOthers (localHistory history) ≤ g.sent ∧
        s.controller.remoteResult = some (.ok (Generator.report .remote g.sent))
    else s.controller.remoteResult = none := by
  have hset := settings_of_run hrun
  obtain ⟨hopening, hremote, hjoined, hearned⟩ := signalling_of_run hrun hhang
  obtain ⟨_, -, -, -, hq⟩ := exit_of_run hrun hhang hend
  rw [hset, hend, hq] at hopening
  rw [Controller.signalled] at hearned
  simp only [Controller.remoteResult]
  generalize s.controller.sessions = sessions at *
  cases hopening with
  | awaited hstarts => cases hstarts
  | answered session _ hacts =>
    have hacts : session.generator.isSome.toNat = (!controller.mode.hasLocalGenerator).toNat :=
      (Nat.zero_add _).symm.trans hacts
    split
    · next hmode =>
      rw [hmode] at hacts
      cases hg : session.generator with
      | none => simp [hg, Mode.hasLocalGenerator] at hacts
      | some g =>
        have hmem : session ∈ [session] := List.mem_singleton.mpr rfl
        obtain ⟨hstrategy, hsucceeds⟩ := hremote session hmem g hg
        have hphase : g.phase = .finished (.ok g.sent) := by
          obtain ⟨result, hresult⟩ := Option.isSome_iff_exists.mp (hjoined hend session hmem g hg)
          have hp := g.phase_of_result? hresult
          rw [hp, hsucceeds result hp]
        refine ⟨session, g, rfl, hg, ?_, ?_⟩
        · simpa [Session.sent_of hg] using Nat.le_trans (Nat.le_add_right _ _) hearned
        · simp [hg, Generator.result?, hphase, hstrategy]
    · next hmode =>
      have hlocal : controller.mode.hasLocalGenerator = true := by
        cases hm : controller.mode <;> first | rfl | exact absurd hm hmode
      have hnone : session.generator = none := by
        cases hg : session.generator with
        | none => rfl
        | some g => simp [hg, hlocal] at hacts
      simp [hnone]

/-- Before a verdict, a worker fails if and only if a sleep of it runs to its end. -/
theorem succeeds_iff (hmode : controller.mode = worker.mode)
    (hrun : Execution step (launch controller worker) history s)
    (hhang : s.controller.hang = none) {result : Except WorkerError WorkerReport}
    (hp : s.target.run.worker.phase = .finished result) :
    (∃ counts, result = .ok counts) ↔ ¬ LocalRun.Overslept (localHistory history) := by
  obtain ⟨-, -, hx⟩ :=
    LocalRun.regular_and_explained (localExecution hrun) (regular_of_run hmode hrun hhang)
  cases result with
  | ok counts =>
    refine iff_of_true ⟨counts, rfl⟩ fun hslept => ?_
    rcases hx.overslept hslept with hmissed | hfailed
    · simp [Worker.hasMissed, hp] at hmissed
    · simp [Worker.failure?, hp] at hfailed
  | error e =>
    refine iff_of_false (by simp) (not_not_intro ?_)
    rcases hx.failed e (by simp [Worker.failure?, hp]) with ⟨-, hrefused⟩ | ⟨-, hslept⟩
    · exact absurd hrefused (not_refused_of_run hrun hhang)
    · exact hslept

/-! ## The accounts -/

/-- What is reported of a generator that has sent at least so many interrupts: its count, which is
kept in 64 bits and so is right until it overflows. -/
structure ReportsSent (g : Generator) (least : Nat) (reported : UInt64) : Prop where
  counted : reported = .ofNat g.sent
  sent : least ≤ g.sent
  fits : g.sent < UInt64.size → least ≤ reported.toNat

theorem reportsSent {g : Generator} {least : Nat} (h : least ≤ g.sent) :
    ReportsSent g least (.ofNat g.sent) where
  counted := rfl
  sent := h
  fits := fun hlt => Nat.le_trans h (Nat.le_of_eq (Nat.mod_eq_of_lt hlt).symm)

/-- What a report that passes its run says about it. -/
structure Accounts (worker : WorkerSettings) (s : Supervised) (report : RunReport)
    (counts : WorkerReport) : Prop where
  iterations : counts.iterationsCompleted = worker.iterations
  observed : counts.interruptsObserved.toNat = worker.iterations.toNat
  precise : worker.mode = .precise →
    counts.interruptsSent.map UInt64.toNat = some (worker.iterations.toNat + 1) ∧
      report.steps.toNat = 5 * worker.iterations.toNat + 1
  aggressive : worker.mode = .aggressive →
    (∃ g sent, s.target.run.generator = some g ∧ counts.interruptsSent = some sent ∧
      ReportsSent g (max worker.iterations.toNat 1) sent) ∧
      report.steps.toNat = 4 * worker.iterations.toNat + 1
  remote : worker.mode = .remote →
    (∃ session g result, s.controller.sessions = [session] ∧ session.generator = some g ∧
      report.remote = some (.ok result) ∧
      ReportsSent g worker.iterations.toNat result.interruptsSent) ∧
      report.steps.toNat = 4 * worker.iterations.toNat + 1

/-- A worker that has ended well has passed all its lines, and each of them was counted. -/
theorem steps_of_run (hmode : controller.mode = worker.mode)
    (hrun : Execution step (launch controller worker) history s)
    (hhang : s.controller.hang = none) (hend : s.controller.phase = .finished)
    {counts : WorkerReport} (hp : s.target.run.worker.phase = .finished (.ok counts)) :
    s.controller.steps = worker.mode.linesPerIteration * worker.iterations.toNat + 1 := by
  have hregular := regular_of_run hmode hrun hhang
  obtain ⟨hset, hr, -⟩ := LocalRun.regular_and_explained (localExecution hrun) hregular
  have hline := (LocalRun.tallies_of_run (localExecution hrun) hregular).1
  have hbehind := hline (by simp [Worker.failure?, hp]) (by simp [Worker.hasMissed, hp])
  obtain ⟨result, -, hmain, -, hq⟩ := exit_of_run hrun hhang hend
  have hcount := (counted_of_run hrun hhang).count
  rw [hq, hmain] at hcount
  have hiterations : s.target.run.worker.completed = worker.iterations.toNat := by
    rw [(hr.course.finished hp).1, Worker.iterations, hset]
  calc s.controller.steps
      = linesPassed (localHistory history) := hcount
    _ = s.target.run.worker.linesBehind := hbehind
    _ = worker.mode.linesPerIteration * worker.iterations.toNat + 1 := by
      rw [Worker.linesBehind, hp, hset, hiterations]
      rfl

/-- All the counts of a run whose worker has ended well are right. -/
theorem accounts_of_run (hmode : controller.mode = worker.mode)
    (hrun : Execution step (launch controller worker) history s)
    (hhang : s.controller.hang = none) (hend : s.controller.phase = .finished) (runId : String)
    {counts : WorkerReport} (hp : s.target.run.worker.phase = .finished (.ok counts)) :
    Accounts worker s (s.controller.report runId) counts := by
  have hregular := regular_of_run hmode hrun hhang
  obtain ⟨hset, hr, -⟩ := LocalRun.regular_and_explained (localExecution hrun) hregular
  have hearned := (LocalRun.tallies_of_run (localExecution hrun) hregular).2
  have hsettings : s.controller.settings.mode = worker.mode := by
    rw [settings_of_run hrun, hmode]
  have hothers (hlocal : worker.mode.hasLocalGenerator = true) :
      interruptsByOthers (localHistory history) = 0 :=
    (signalling_of_run hrun hhang).eq_zero (hsettings ▸ hlocal)
  have hlocal (m : Mode) (hm : worker.mode = m) : s.target.run.mode = m := by
    rw [LocalRun.mode, hset, hm]
  have hiterations : s.target.run.worker.iterations = worker.iterations.toNat := by
    rw [Worker.iterations, hset]
  have hfew := worker.iterations.toNat_lt
  have hsteps (m : Mode) (hm : worker.mode = m) : (s.controller.report runId).steps.toNat =
      m.linesPerIteration * worker.iterations.toNat + 1 := by
    have hlt : m.linesPerIteration * worker.iterations.toNat + 1 < 2 ^ 64 := by
      cases m <;> simp only [Mode.linesPerIteration] <;> omega
    simp only [Controller.report, steps_of_run hmode hrun hhang hend hp, hm]
    exact Nat.mod_eq_of_lt hlt
  obtain ⟨hcompleted, hobserved⟩ := hr.course.report hp
  rw [hset] at hcompleted
  rw [hiterations] at hobserved
  refine ⟨hcompleted, hobserved, fun hm => ⟨?_, hsteps _ hm⟩, fun hm => ⟨?_, hsteps _ hm⟩,
    fun hm => ⟨?_, hsteps _ hm⟩⟩
  · obtain ⟨g, -, hsent, -, -, hreports⟩ := hr.settled (hlocal _ hm) hp
    have hlt : worker.iterations.toNat + 1 < 2 ^ 64 := by omega
    rw [hreports, hsent, hiterations]
    exact congrArg some (Nat.mod_eq_of_lt hlt)
  · rw [hothers (by rw [hm]; rfl)] at hearned
    obtain ⟨g, hg, hsent, hreports⟩ := hearned.reports hr (by rw [hlocal _ hm]; rfl) hp
    rw [hiterations] at hsent
    exact ⟨g, _, hg, hreports, reportsSent hsent⟩
  · have hremote := remoteResult_of_run hrun hhang hend
    rw [if_pos (hmode.trans hm)] at hremote
    obtain ⟨session, g, hsessions, hg, hsent, hresult⟩ := hremote
    have hall := hearned.le_others hr (by rw [hlocal _ hm]; rfl) hp
    rw [hiterations] at hall
    exact ⟨session, g, _, hsessions, hg, hresult, reportsSent (Nat.le_trans hall hsent)⟩

/-- Whatever the mode, the number of iterations, the suspend policy and the interleaving: the
report of a run that has ended passes it if and only if no verdict was taken and no sleep of the
worker ran to its end.  If it passes, the target ended with code 0, and all counts are right. -/
theorem verdict_of_run (hmode : controller.mode = worker.mode)
    (hrun : Execution step (launch controller worker) history s)
    (hend : s.controller.phase = .finished) (runId : String) :
    ((s.controller.report runId).passed = true ↔
      verdictTaken history = false ∧ ¬ LocalRun.Overslept (localHistory history)) ∧
    ((s.controller.report runId).passed = true →
      ∃ exit counts, (s.controller.report runId).exit = some exit ∧ exit.code = 0 ∧
        exit.report = some counts ∧ Accounts worker s (s.controller.report runId) counts) := by
  have hverdict := hang_isSome hrun
  cases hhang : s.controller.hang with
  | some hang =>
    have hfailed : (s.controller.report runId).passed ≠ true := by
      rw [ne_eq, RunReport.passed_iff]
      rintro ⟨hnone, -⟩
      cases hnone.symm.trans hhang
    rw [hhang] at hverdict
    refine ⟨iff_of_false hfailed ?_, fun hpassed => absurd hpassed hfailed⟩
    rintro ⟨hnot, -⟩
    cases hnot.symm.trans hverdict.symm
  | none =>
    rw [hhang] at hverdict
    obtain ⟨result, hp, -, hexit, -⟩ := exit_of_run hrun hhang hend
    have hremote : ∀ reason, s.controller.remoteResult ≠ some (.error reason) := by
      have hresult := remoteResult_of_run hrun hhang hend
      split at hresult
      · obtain ⟨_, _, -, -, -, hok⟩ := hresult
        simp [hok]
      · simp [hresult]
    have hpassed : (s.controller.report runId).passed = true ↔ ∃ counts, result = .ok counts := by
      rw [RunReport.passed_iff, ← Target.isSuccess_exitFor]
      constructor
      · rintro ⟨-, ⟨exit, hsame, hok⟩, -⟩
        obtain rfl : Target.exitFor result = exit := Option.some.inj (hexit.symm.trans hsame)
        exact hok
      · exact fun hok => ⟨hhang, ⟨_, hexit, hok⟩, hremote⟩
    refine ⟨?_, fun h => ?_⟩
    · rw [hpassed, succeeds_iff hmode hrun hhang hp, ← hverdict]
      exact (and_iff_right rfl).symm
    · obtain ⟨counts, rfl⟩ := hpassed.mp h
      exact ⟨_, counts, hexit, rfl, rfl, accounts_of_run hmode hrun hhang hend runId hp⟩

/-- A remote run of one iteration, whose generator finds in the end that its target has gone. -/
theorem verdict_of_run_remote :
    ∃ history s,
      Execution step (launch ⟨.remote, .ofMillis 100, .none, .ofMillis 1, .ofMillis 5000⟩
        ⟨.remote, 1, .ofMillis 10, .ofMillis 1⟩) history s ∧
      s.controller.phase = .finished ∧ (s.controller.report "one").passed = true ∧
      verdictTaken history = false ∧ ¬ LocalRun.Overslept (localHistory history) ∧
      (s.controller.report "one").steps = 5 := by
  let take : SupervisedMove := .controller (.receive default)
  let act : SupervisedMove := .controller .act
  let signal : SupervisedMove := .controller (.generator 0)
  let apply : SupervisedMove := .target .applyCommand
  let main : SupervisedMove := .target .main
  let leave : SupervisedMove := .target .farewell
  have hrun := Execution.of_replay (.nil : Execution step
      (launch ⟨.remote, .ofMillis 100, .none, .ofMillis 1, .ofMillis 5000⟩
        ⟨.remote, 1, .ofMillis 10, .ofMillis 1⟩) [] _)
    [take, act, act, act, apply, apply, main, main, main, main, signal, apply, main, main, main,
      main, main, main, .target .noticeExit, leave, leave, leave, leave, take, take, take, take,
      take, take, take, take, act, signal, .controller (.wake 0), signal, act] rfl
  have hpassed := (verdict_of_run rfl hrun rfl "one").1
  obtain ⟨htaken, hslept⟩ := hpassed.mp rfl
  exact ⟨_, _, hrun, rfl, rfl, htaken, hslept, rfl⟩

end Supervised

end InterruptStress
