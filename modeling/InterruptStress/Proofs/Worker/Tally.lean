import InterruptStress.Proofs.Worker.Outcome

/-!
# What a regular run amounts to

Two tallies of a regular run.  How many lines the worker has passed is fixed by where it stands
in its loop, as long as nothing went wrong (`LocalRun.onLine_transition`).  And it has taken no
more interrupts than its generator and others have sent (`LocalRun.earned_transition`).
-/

namespace InterruptStress

/-! ## Lines -/

/-- The worker passes a line that it has reported. -/
def LocalMove.isPassing : LocalMove → Bool
  | .report accepted => accepted
  | _ => false

@[simp] theorem LocalMove.isPassing_report (accepted : Bool) :
    (LocalMove.report accepted).isPassing = accepted := rfl

/-- How many lines the worker has passed. -/
def linesPassed (history : List (LocalRun × LocalMove)) : Nat :=
  history.countP (·.2.isPassing)

/-- How many lines a worker passes in each iteration. -/
def Mode.linesPerIteration : Mode → Nat
  | precise => 5
  | aggressive | remote => 4

/-- How many lines of its iteration a worker in this phase has passed; after its loop, the last
line. -/
def WorkerPhase.linesBehind (perIteration : Nat) : WorkerPhase → Nat
  | .starting | .reporting .loop | .reporting .done => 0
  | .reporting .sleep => 1
  | .sleeping | .asleep | .reporting .caught => 2
  | .reading => 3
  | .reporting .acknowledge => perIteration - 2
  | .acknowledging | .reporting .check => perIteration - 1
  | .stopping _ | .joining _ | .finished _ => 1

namespace Worker

variable {w : Worker}

/-- How many lines the worker has passed if nothing has gone wrong. -/
def linesBehind (w : Worker) : Nat :=
  w.settings.mode.linesPerIteration * w.completed +
    w.phase.linesBehind w.settings.mode.linesPerIteration

theorem linesBehind_resumeLoop :
    w.resumeLoop.linesBehind = w.settings.mode.linesPerIteration * w.completed := by
  simp only [resumeLoop, nextLine]
  split <;> rfl

theorem linesBehind_endLoop (failure : Option WorkerError) :
    (w.endLoop failure).linesBehind = w.settings.mode.linesPerIteration * w.completed + 1 := by
  unfold endLoop
  split <;> rfl

/-- A line that is passed counts, unless the worker fails with it. -/
theorem linesBehind_afterLine {line : WorkerLine} (hw : w.phase = .reporting line)
    (hok : line = .check → w.interrupted = true) :
    (w.afterLine line).linesBehind = w.linesBehind + 1 := by
  have hper : 4 ≤ w.settings.mode.linesPerIteration := by cases w.settings.mode <;> decide
  have hbehind : w.linesBehind = w.settings.mode.linesPerIteration * w.completed +
      (WorkerPhase.reporting line).linesBehind w.settings.mode.linesPerIteration := by
    rw [linesBehind, hw]
  rw [hbehind]
  cases line with
  | check =>
    simp only [afterLine, hok rfl, if_true, linesBehind_resumeLoop, WorkerPhase.linesBehind,
      Nat.mul_add]
    omega
  | done => exact linesBehind_endLoop none
  | acknowledge =>
    simp only [afterLine, linesBehind, WorkerPhase.linesBehind]
    omega
  | _ => rfl

end Worker

namespace LocalRun

variable {s s' : LocalRun} {m : LocalMove}

/-- The worker has passed the lines that lie behind it, unless something has gone wrong. -/
def OnLine (passed : Nat) (s : LocalRun) : Prop :=
  s.worker.failure? = none → s.worker.hasMissed = false → passed = s.worker.linesBehind

theorem onLine_start (settings : WorkerSettings) : (LocalRun.start settings).OnLine 0 := by
  intro _ _
  have hnone : settings.mode.linesPerIteration * 0 = 0 := Nat.mul_zero _
  simp only [start, Worker.start]
  split
  · exact hnone.symm
  · rw [Worker.linesBehind_resumeLoop]
    exact hnone.symm

/-- Every move of a regular run keeps count of the lines. -/
theorem onLine_transition {passed : Nat} (h : s.OnLine passed) (hr : s.Regular)
    (ht : s.Transition m s') (hm : m.isRegular s.mode = true) :
    s'.OnLine (passed + m.isPassing.toNat) := by
  intro hnone hmissed
  have hgood : s.worker.failure? = none := by
    rcases failure_transition ht with hsame | ⟨hgood, -⟩
    · exact hsame.symm.trans hnone
    · exact hgood
  have hbehind (hnot : s.worker.hasMissed = false) : passed = s.worker.linesBehind := h hgood hnot
  -- a worker that goes on without passing a line leaves none behind
  have hgoing {w : Worker} (hnot : s.worker.hasMissed = false)
      (hsame : w.settings = s.worker.settings ∧ w.completed = s.worker.completed)
      (hphase : s.worker.phase.linesBehind s.worker.settings.mode.linesPerIteration =
        w.phase.linesBehind s.worker.settings.mode.linesPerIteration) :
      passed = w.linesBehind := by
    rw [hbehind hnot, Worker.linesBehind, Worker.linesBehind, hsame.1, hsame.2, hphase]
  have hcourse := hr.course.counters
  unfold Worker.CountersAgree at hcourse
  cases ht with
  | start hw =>
    refine (hbehind (by simp [Worker.hasMissed, hw])).trans ?_
    rw [Worker.linesBehind_resumeLoop, Worker.linesBehind, hw]
    rfl
  | takeLine line hw =>
    have hok : line = .check → s.worker.interrupted = true := by
      rintro rfl
      refine eq_true_of_ne_false fun hcaught => ?_
      simp [Worker.failure?_afterLine_check hcaught] at hnone
    have hnot : s.worker.hasMissed = false := by
      cases line with
      | check => simp [Worker.hasMissed, hw, hok rfl]
      | _ => simp [Worker.hasMissed, hw]
    rw [Worker.linesBehind_afterLine hw hok, hbehind hnot]
    rfl
  | refuseLine | failAcknowledge => simp at hnone
  | failStop | failJoin => simp [Worker.failure?] at hnone
  | failStart | endSleep | crash => cases hm
  | doze hw | acknowledge hw | stop _ hw | join _ hw =>
    exact hgoing (by simp [Worker.hasMissed, hw]) ⟨rfl, rfl⟩ (by rw [hw]; rfl)
  | wake m hmove hw =>
    have hquiet : m.isPassing = false := by rcases hmove with rfl | rfl <;> rfl
    rw [hquiet]
    rcases hw with hw | hw
    · exact hgoing (by simp [Worker.hasMissed, hw]) ⟨rfl, rfl⟩ (by rw [hw]; rfl)
    · exact hgoing (by simp [Worker.hasMissed, hw]) ⟨rfl, rfl⟩ (by rw [hw]; rfl)
  | oversleep hw =>
    have hcaught : s.worker.interrupted = false := by
      rcases hw with hw | hw <;> rw [hw] at hcourse <;> exact hcourse.2.2
    simp [Worker.hasMissed, hcaught] at hmissed
  | read m told hread hw w hs =>
    have hquiet : m.isPassing = false := by rcases hread with ⟨rfl, -⟩ | rfl <;> rfl
    have hnot : s.worker.hasMissed = false := by simp [Worker.hasMissed, hw]
    rw [hquiet]
    rcases Worker.step_read hw hs with ⟨-, -, rfl⟩ | ⟨hmode, -, rfl⟩ | ⟨hmode, rfl⟩
    · simp at hnone
    · exact hgoing hnot ⟨rfl, rfl⟩ (by rw [hw, hmode]; rfl)
    · have hper : s.worker.settings.mode.linesPerIteration = 4 := by
        cases hlines : s.worker.settings.mode with
        | precise => exact absurd hlines hmode
        | aggressive | remote => rfl
      exact hgoing hnot ⟨rfl, rfl⟩ (by rw [hw, hper]; rfl)
  | breakPause m hmove =>
    have hquiet : m.isPassing = false := by rcases hmove with rfl | rfl <;> rfl
    rw [hquiet]
    exact hbehind hmissed
  | _ => exact hbehind hmissed

end LocalRun

/-! ## Interrupts -/

/-- Somebody else interrupts the worker. -/
def LocalMove.isInterrupt : LocalMove → Bool
  | .interrupt => true
  | _ => false

/-- How often others than its generator have interrupted the worker. -/
def interruptsByOthers (history : List (LocalRun × LocalMove)) : Nat :=
  history.countP (·.2.isInterrupt)

/-- The generator has sent an interrupt. -/
def GeneratorEvent.isSending : GeneratorEvent → Bool
  | .sent | .crashed | .signalled (.ok ()) => true
  | _ => false

/-- A generator counts what it sends. -/
theorem Generator.sent_step {g g' : Generator} {event : GeneratorEvent}
    (hs : g.step event = some g') :
    g'.strategy = g.strategy ∧ g'.sent = g.sent + event.isSending.toNat := by
  have hdone {g₁ : Generator} (h : some g₁ = some g')
      (hsame : g₁.strategy = g.strategy ∧ g₁.sent = g.sent + event.isSending.toNat) :
      g'.strategy = g.strategy ∧ g'.sent = g.sent + event.isSending.toNat := by
    obtain rfl := Option.some.inj h
    exact hsame
  cases event with
  | sent | crashed | dozed =>
    simp only [step] at hs
    split at hs
    · exact hdone hs ⟨rfl, rfl⟩
    · cases hs
  | entered result =>
    simp only [step] at hs
    split at hs
    · cases result <;> exact hdone hs ⟨rfl, rfl⟩
    · cases hs
  | signalled result =>
    simp only [step] at hs
    split at hs
    · cases result with
      | ok => exact hdone hs ⟨rfl, rfl⟩
      | error e =>
        simp only at hs
        split at hs <;> exact hdone hs ⟨rfl, rfl⟩
    · cases hs
  | looked wakeup =>
    simp only [step] at hs
    split at hs
    · rcases wakeup with _ | _ | _ <;> exact hdone hs ⟨rfl, rfl⟩
    · cases hs
  | slept result =>
    simp only [step] at hs
    split at hs
    · rcases result with e | _ | _
      · exact hdone hs ⟨rfl, rfl⟩
      · exact hdone hs ⟨rfl, rfl⟩
      · simp only at hs
        split at hs <;> exact hdone hs ⟨rfl, rfl⟩
    · cases hs

namespace Worker

variable {w : Worker}

/-- How many interrupts have ended a sleep of the worker. -/
def taken (w : Worker) : Nat :=
  match w.phase with
  | .reporting .caught => w.observed + 1
  | _ => w.observed

@[simp] theorem taken_resumeLoop : w.resumeLoop.taken = w.observed := by
  simp only [resumeLoop, nextLine]
  split <;> rfl

@[simp] theorem taken_endLoop (failure : Option WorkerError) :
    (w.endLoop failure).taken = w.observed := by
  unfold endLoop
  split <;> rfl

theorem observed_le_taken (w : Worker) : w.observed ≤ w.taken := by
  unfold taken
  split
  · exact Nat.le_succ _
  · exact Nat.le_refl _

theorem taken_of_ne (h : w.phase ≠ .reporting .caught) : w.taken = w.observed := by
  unfold taken
  split
  · next hcaught => exact absurd hcaught h
  · rfl

/-- A line takes no interrupt. -/
theorem taken_afterLine {line : WorkerLine} (hw : w.phase = .reporting line) :
    (w.afterLine line).taken = w.taken := by
  cases line with
  | check =>
    have hobserved : w.taken = w.observed := taken_of_ne (by simp [hw])
    rw [hobserved]
    simp only [afterLine]
    split <;> simp
  | done =>
    have hobserved : w.taken = w.observed := taken_of_ne (by simp [hw])
    rw [hobserved]
    exact taken_endLoop none
  | _ => simp [afterLine, taken, hw]

end Worker

namespace LocalRun

variable {s s' : LocalRun} {m : LocalMove} {others : Nat}

/-- How many interrupts the worker's own generator has sent. -/
def sent (s : LocalRun) : Nat :=
  match s.generator with
  | none => 0
  | some g => g.sent

theorem sent_of {g : Generator} (hg : s.generator = some g) : s.sent = g.sent := by
  rw [sent, hg]

/-- Every interrupt that the worker has taken, or is about to take, was sent. -/
structure Earned (others : Nat) (s : LocalRun) : Prop where
  taken : s.worker.taken + s.token.pending.toNat ≤ s.sent + others
  /-- A generator does not rest before it has sent an interrupt. -/
  sends : ∀ g, s.generator = some g → g.sent = 0 → g.aboutToSend = true

theorem earned_start (settings : WorkerSettings) : (LocalRun.start settings).Earned 0 where
  taken := by
    simp only [start, Worker.start]
    split
    · exact Nat.le_refl 0
    · rw [Worker.taken_resumeLoop]
      exact Nat.le_refl 0
  sends := by simp [start]

/-- A move of the worker that takes no interrupt. -/
theorem Earned.withWorker (h : s.Earned others) {w : Worker} (hw : w.taken ≤ s.worker.taken) :
    Earned others { s with worker := w } where
  taken := Nat.le_trans (Nat.add_le_add_right hw _) h.taken
  sends := h.sends

/-- A move of the generator that sends no interrupt. -/
theorem Earned.withGenerator (h : s.Earned others) {g g' : Generator}
    (hg : s.generator = some g) (hsent : g'.sent = g.sent)
    (hsends : g.aboutToSend = false ∨ g'.aboutToSend = true) (stop : Token) (r : Rendezvous) :
    Earned others { s with stop, rendezvous := r, generator := some g' } where
  taken := by
    have htaken := h.taken
    rw [sent_of hg] at htaken
    rw [sent_of rfl, hsent]
    exact htaken
  sends := by
    intro g₁ hg₁ hzero
    obtain rfl := Option.some.inj hg₁
    rcases hsends with hresting | hsends
    · simp [h.sends g hg (hsent ▸ hzero)] at hresting
    · exact hsends

/-- A worker that is yet to start its generator has none. -/
theorem Regular.unstarted (h : s.Regular) (hw : s.worker.phase = .starting) :
    s.generator = none := by
  cases hlocal : s.mode.hasLocalGenerator with
  | false => exact (h.alone hlocal).generator
  | true => exact (h.order hlocal).unstarted hw

/-- Every move of a regular run keeps track of the interrupts. -/
theorem earned_transition (h : s.Earned others) (hr : s.Regular) (ht : s.Transition m s')
    (hm : m.isRegular s.mode = true) : s'.Earned (others + m.isInterrupt.toNat) := by
  have htaken := h.taken
  have hsound := hr.sound
  cases ht with
  | start hw =>
    have hnone : s.sent = 0 := by rw [sent, hr.unstarted hw]
    constructor
    · rw [hnone, Worker.taken, hw] at htaken
      rw [sent_of rfl, Worker.taken_resumeLoop]
      exact htaken
    · rintro g ⟨⟩ -
      by_cases hmode : s.mode = .precise <;> simp [Generator.start, Generator.aboutToSend, hmode]
  | takeLine line hw => exact h.withWorker (Nat.le_of_eq (Worker.taken_afterLine hw))
  | refuseLine | failAcknowledge =>
    refine h.withWorker ?_
    rw [Worker.taken_endLoop]
    exact Worker.observed_le_taken _
  | doze hw hclear =>
    rw [Worker.taken, hw, hclear] at htaken
    exact ⟨by simpa [Worker.taken, sent, LocalMove.isInterrupt] using htaken, h.sends⟩
  | dozeOn hw hclear =>
    rw [hclear] at htaken
    exact ⟨by simpa [sent, LocalMove.isInterrupt] using htaken, h.sends⟩
  | wake m hmove hw hset =>
    -- the interrupt goes from the token to the worker
    have hquiet : m.isInterrupt = false := by rcases hmove with rfl | rfl <;> rfl
    have hobserved : s.worker.taken = s.worker.observed :=
      Worker.taken_of_ne (by rcases hw with hw | hw <;> simp [hw])
    rw [hset, hobserved] at htaken
    exact ⟨by simpa [Worker.taken, sent, hquiet] using htaken, h.sends⟩
  | oversleep hw hclear =>
    have hobserved : s.worker.taken = s.worker.observed :=
      Worker.taken_of_ne (by rcases hw with hw | hw <;> simp [hw])
    rw [hclear, hobserved] at htaken
    exact ⟨by simpa [Worker.taken, sent, LocalMove.isInterrupt] using htaken, h.sends⟩
  | read m told hread hw w hs =>
    have hquiet : m.isInterrupt = false := by rcases hread with ⟨rfl, -⟩ | rfl <;> rfl
    have hobserved : s.worker.taken = s.worker.observed := Worker.taken_of_ne (by simp [hw])
    rw [hquiet]
    refine h.withWorker ?_
    rw [hobserved]
    rcases Worker.step_read hw hs with ⟨-, -, rfl⟩ | ⟨-, -, rfl⟩ | ⟨-, rfl⟩
    · exact Nat.le_of_eq (Worker.taken_endLoop _)
    · exact Nat.le_refl _
    · exact Nat.le_refl _
  | acknowledge hw | stop _ hw =>
    rw [Worker.taken, hw] at htaken
    exact ⟨htaken, h.sends⟩
  | failStop _ hw | join _ hw | failJoin _ hw =>
    have hobserved : s.worker.taken = s.worker.observed := Worker.taken_of_ne (by simp [hw])
    refine h.withWorker ?_
    rw [hobserved]
    exact Nat.le_refl _
  | failStart | endSleep | crash => cases hm
  | enter g hg | seeAck g hg | pauseOver g hg =>
    exact h.withGenerator hg (by simp) (.inr (by simp [Generator.aboutToSend])) _ _
  | reenter g hg hp | park g hg hp | pause g hg hp | seeStop g hg hp =>
    exact h.withGenerator hg (by simp) (.inl (by simp [Generator.aboutToSend, hp])) _ _
  | breakPause m hmove g g' hg hp hset expired hs =>
    have hquiet : m.isInterrupt = false := by rcases hmove with rfl | rfl <;> rfl
    have hsent : g'.sent = g.sent := (Generator.sent_step hs).2
    have hresting : g.aboutToSend = false := by
      rcases hp with hp | hp <;> simp [Generator.aboutToSend, hp]
    rw [hquiet]
    exact h.withGenerator hg hsent (.inl hresting) _ _
  | failEnter _ _ _ _ hpoisoned => simp [hsound] at hpoisoned
  | send g hg hp =>
    rw [sent_of hg] at htaken
    refine ⟨?_, by simp⟩
    rw [sent_of rfl]
    calc s.worker.taken + s.token.interrupt.pending.toNat
        = s.worker.taken + 1 := rfl
      _ ≤ g.sent + others + 1 := Nat.succ_le_succ (Nat.le_trans (Nat.le_add_right _ _) htaken)
      _ = g.sent + 1 + others := Nat.add_right_comm _ _ _
  | interrupt =>
    refine ⟨?_, h.sends⟩
    exact Nat.succ_le_succ (Nat.le_trans (Nat.le_add_right _ _) htaken)
  | pauseOn | stirWorker | stirPause | stirParked => exact ⟨htaken, h.sends⟩

/-- A worker that has ended well has taken an interrupt in each iteration. -/
theorem Earned.iterations_le (h : s.Earned others) (hr : s.Regular) {report : WorkerReport}
    (hp : s.worker.phase = .finished (.ok report)) :
    s.worker.iterations ≤ s.sent + others := by
  have hobserved : s.worker.observed = s.worker.iterations := (hr.course.finished hp).2.1
  calc s.worker.iterations
      = s.worker.observed := hobserved.symm
    _ ≤ s.worker.taken := Worker.observed_le_taken _
    _ ≤ s.sent + others := Nat.le_trans (Nat.le_add_right _ _) h.taken

/-- A worker that nobody else has interrupted reports that its own generator has sent at least as
many interrupts as it has taken, and at least one. -/
theorem Earned.reports (h : s.Earned 0) (hr : s.Regular)
    (hlocal : s.mode.hasLocalGenerator = true) {report : WorkerReport}
    (hp : s.worker.phase = .finished (.ok report)) :
    ∃ g, s.generator = some g ∧ max s.worker.iterations 1 ≤ g.sent ∧
      report.interruptsSent = some (.ofNat g.sent) := by
  obtain ⟨g, hg, hphase, hreports⟩ := hr.reports hlocal hp
  have hall : s.worker.iterations ≤ g.sent := sent_of hg ▸ h.iterations_le hr hp
  have hsome : 1 ≤ g.sent := by
    refine Nat.one_le_iff_ne_zero.mpr fun hzero => ?_
    have hsends := h.sends g hg hzero
    simp [Generator.aboutToSend, hphase] at hsends
  exact ⟨g, hg, Nat.max_le.mpr ⟨hall, hsome⟩, hreports⟩

/-- A worker without a generator of its own has taken what others have sent. -/
theorem Earned.le_others (h : s.Earned others) (hr : s.Regular)
    (hremote : s.mode.hasLocalGenerator = false) {report : WorkerReport}
    (hp : s.worker.phase = .finished (.ok report)) : s.worker.iterations ≤ others := by
  have hnone : s.sent = 0 := by rw [sent, (hr.alone hremote).generator]
  have hall := h.iterations_le hr hp
  rwa [hnone, Nat.zero_add] at hall

/-! ## Whole runs -/

/-- Every state of a regular run agrees with what has been counted on the way to it. -/
theorem tallies_of_run {settings : WorkerSettings} {history : List (LocalRun × LocalMove)}
    (hrun : Execution LocalRun.step (.start settings) history s)
    (hregular : ∀ e ∈ history, e.2.isRegular settings.mode = true) :
    s.OnLine (linesPassed history) ∧ s.Earned (interruptsByOthers history) := by
  induction hrun with
  | nil => exact ⟨onLine_start settings, earned_start settings⟩
  | @cons history s s' m hbefore hs ih =>
    obtain ⟨hm, hrest⟩ := List.forall_mem_cons.mp hregular
    obtain ⟨hset, hr, -⟩ := regular_and_explained hbefore hrest
    obtain ⟨hline, hearned⟩ := ih hrest
    have ht := transition_of_step hs
    have hm : m.isRegular s.mode = true := by
      rw [mode, hset]
      exact hm
    rw [linesPassed, interruptsByOthers, Execution.countP_history_cons,
      Execution.countP_history_cons]
    exact ⟨onLine_transition hline hr ht hm, earned_transition hearned hr ht hm⟩

end LocalRun

end InterruptStress
