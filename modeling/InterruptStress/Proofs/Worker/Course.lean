import InterruptStress.Proofs.Execution
import InterruptStress.Proofs.Worker.Transition

/-!
# The course of the worker's loop

Where a worker stands in its loop fixes its counters (`Worker.CountersAgree`), and the loop numbers
the iterations as they are completed, so that an error names the iteration that was not.  That is
`Worker.OnCourse`; every event keeps it (`Worker.onCourse_step`), whatever the token, the probe and
the generator answered.  A worker whose loop has failed keeps only the bounds.
-/

namespace InterruptStress

namespace Worker

/-- How many iterations the worker has to run. -/
def iterations (w : Worker) : Nat := w.settings.iterations.toNat

/-- The counters agree with the phase. -/
def CountersAgree (w : Worker) : Prop :=
  match w.phase with
  | .starting => w.completed = 0 ∧ w.observed = 0
  -- the interrupt of this iteration has not been counted yet
  | .reporting .loop | .reporting .sleep | .sleeping | .asleep | .reporting .caught =>
    w.completed < w.iterations ∧ w.observed = w.completed ∧ w.interrupted = false
  | .reading | .reporting .acknowledge | .acknowledging =>
    w.completed < w.iterations ∧ w.observed = w.completed + 1 ∧ w.interrupted = true
  | .reporting .check =>
    w.completed < w.iterations ∧ w.observed = w.completed + w.interrupted.toNat
  | .reporting .done | .stopping none | .joining none =>
    w.completed = w.iterations ∧ w.observed = w.iterations
  | .finished (.ok report) =>
    w.completed = w.iterations ∧ w.observed = w.iterations ∧
      ∃ sent, w.conclude none sent = .ok report
  | .stopping (some _) | .joining (some _) | .finished (.error _) =>
    w.completed ≤ w.iterations ∧ w.completed ≤ w.observed ∧ w.observed ≤ w.completed + 1

/-- The counters agree with the phase, and the loop with the counters. -/
structure OnCourse (w : Worker) : Prop where
  /-- An iteration has the number of those that were completed before it. -/
  numbered : w.iteration = w.completed
  counters : w.CountersAgree

variable {w w' : Worker}

/-- Wherever the worker is, at most one interrupt more has been observed than iterations have
been completed. -/
theorem OnCourse.bounds (h : w.OnCourse) :
    w.completed ≤ w.iterations ∧ w.completed ≤ w.observed ∧ w.observed ≤ w.completed + 1 := by
  have hcaught := Bool.toNat_le w.interrupted
  have hcounters := h.counters
  unfold CountersAgree at hcounters
  split at hcounters <;> omega

theorem OnCourse.starting (h : w.OnCourse) (hw : w.phase = .starting) :
    w.completed = 0 ∧ w.observed = 0 := by
  have hcounters := h.counters
  unfold CountersAgree at hcounters
  rwa [hw] at hcounters

/-- The interrupt that ends a sleep has not been counted before. -/
theorem OnCourse.asleep (h : w.OnCourse) (hw : w.phase = .sleeping ∨ w.phase = .asleep) :
    w.completed < w.iterations ∧ w.observed = w.completed ∧ w.interrupted = false := by
  have hcounters := h.counters
  unfold CountersAgree at hcounters
  rcases hw with hw | hw <;> rwa [hw] at hcounters

/-- It has been when the worker deals with it. -/
theorem OnCourse.awake (h : w.OnCourse) (hw : w.phase = .reading ∨ w.phase = .acknowledging) :
    w.completed < w.iterations ∧ w.observed = w.completed + 1 ∧ w.interrupted = true := by
  have hcounters := h.counters
  unfold CountersAgree at hcounters
  rcases hw with hw | hw <;> rwa [hw] at hcounters

/-- A loop that goes on has iterations left exactly if not all of them were completed. -/
theorem onCourse_resumeLoop (hn : w.iteration = w.completed) (hc : w.completed ≤ w.iterations)
    (ho : w.observed = w.completed) : w.resumeLoop.OnCourse := by
  refine ⟨hn, ?_⟩
  simp only [resumeLoop, nextLine, hn]
  split
  · next h => exact ⟨h, ho, rfl⟩
  · next h =>
    have hall : w.completed = w.iterations := Nat.le_antisymm hc (Nat.le_of_not_lt h)
    exact ⟨hall, ho.trans hall⟩

theorem onCourse_start (settings : WorkerSettings) : (Worker.start settings).OnCourse := by
  unfold start
  split
  · exact ⟨rfl, rfl, rfl⟩
  · exact onCourse_resumeLoop rfl (Nat.zero_le _) rfl

/-- A loop that fails leaves the counters within their bounds. -/
theorem onCourse_endLoop_failed (h : w.OnCourse) (e : WorkerError) :
    (w.endLoop (some e)).OnCourse := by
  unfold endLoop
  split <;> exact ⟨h.numbered, h.bounds⟩

theorem onCourse_endLoop_done (hn : w.iteration = w.completed) (hc : w.completed = w.iterations)
    (ho : w.observed = w.iterations) : (w.endLoop none).OnCourse := by
  unfold endLoop
  split
  · exact ⟨hn, hc, ho⟩
  · refine ⟨hn, ?_⟩
    cases hr : w.conclude none none with
    | ok report => exact ⟨hc, ho, none, hr⟩
    | error e =>
      have heven : w.observed = w.completed := ho.trans hc.symm
      exact ⟨Nat.le_of_eq hc, Nat.le_of_eq heven.symm, Nat.le_succ_of_le (Nat.le_of_eq heven)⟩

theorem onCourse_afterLine {line : WorkerLine} (hw : w.phase = .reporting line)
    (h : w.OnCourse) : (w.afterLine line).OnCourse := by
  have hcounters := h.counters
  unfold CountersAgree at hcounters
  rw [hw] at hcounters
  cases line with
  | loop | sleep | acknowledge => exact ⟨h.numbered, hcounters⟩
  | caught =>
    obtain ⟨hc, ho, -⟩ := hcounters
    exact ⟨h.numbered, hc, congrArg (· + 1) ho, rfl⟩
  | check =>
    obtain ⟨hc, ho⟩ := hcounters
    cases hcaught : w.interrupted with
    | true =>
      simp only [afterLine, hcaught, if_true]
      rw [hcaught] at ho
      exact onCourse_resumeLoop (congrArg (· + 1) h.numbered) hc ho
    | false =>
      simp only [afterLine, hcaught, Bool.false_eq_true, if_false]
      exact onCourse_endLoop_failed h _
  | done => exact onCourse_endLoop_done h.numbered hcounters.1 hcounters.2

/-- The report of a run that ended well says what was counted. -/
theorem report_of_conclude {failure : Option WorkerError} {sent : Option Nat}
    {report : WorkerReport} (h : w.conclude failure sent = .ok report) :
    report = ⟨w.settings.mode, .ofNat w.completed, .ofNat w.observed, sent.map .ofNat⟩ := by
  cases failure with
  | some e => cases h
  | none =>
    simp only [conclude] at h
    split at h
    · cases h
    · exact (Except.ok.inj h).symm

/-- A run that has ended, for better or worse. -/
theorem onCourse_finish {failure : Option WorkerError} (sent : Option Nat)
    (h : w.phase = .joining failure) (hw : w.OnCourse) :
    Worker.OnCourse { w with phase := .finished (w.conclude failure sent) } := by
  refine ⟨hw.numbered, ?_⟩
  cases failure with
  | some e => exact hw.bounds
  | none =>
    have hcounters := hw.counters
    unfold CountersAgree at hcounters
    rw [h] at hcounters
    obtain ⟨hc, ho⟩ := hcounters
    cases hr : w.conclude none sent with
    | ok report => exact ⟨hc, ho, sent, hr⟩
    | error e =>
      have heven : w.observed = w.completed := ho.trans hc.symm
      exact ⟨Nat.le_of_eq hc, Nat.le_of_eq heven.symm, Nat.le_succ_of_le (Nat.le_of_eq heven)⟩

/-- A sleep ends on course, whatever ended it. -/
theorem onCourse_slept {result : Except WaitError SleepOutcome}
    (hw : w.phase = .sleeping ∨ w.phase = .asleep) (h : w.OnCourse)
    (hs : w.step (.slept result) = some w') : w'.OnCourse := by
  have hcourse := h.asleep hw
  cases result with
  | error e =>
    obtain rfl : w.endLoop (some (.wait e)) = w' := by
      rcases hw with hw | hw <;> simpa [step, hw] using hs
    exact onCourse_endLoop_failed h _
  | ok outcome =>
    cases outcome with
    | completed =>
      obtain rfl : { w with phase := .reporting .check } = w' := by
        rcases hw with hw | hw <;> simpa [step, hw] using hs
      exact ⟨h.numbered, hcourse.1, by simp [hcourse.2]⟩
    | interrupted =>
      obtain rfl : { w with phase := .reporting .caught } = w' := by
        rcases hw with hw | hw <;> simpa [step, hw] using hs
      exact ⟨h.numbered, hcourse⟩

/-- A run that ends well has run, and observed, all its iterations. -/
theorem OnCourse.finished (h : w.OnCourse) {report : WorkerReport}
    (hp : w.phase = .finished (.ok report)) :
    w.completed = w.iterations ∧ w.observed = w.iterations ∧
      ∃ sent, w.conclude none sent = .ok report := by
  have hcounters := h.counters
  unfold CountersAgree at hcounters
  rwa [hp] at hcounters

/-- The report of a run that ends well says so. -/
theorem OnCourse.report (h : w.OnCourse) {report : WorkerReport}
    (hp : w.phase = .finished (.ok report)) :
    report.iterationsCompleted = w.settings.iterations ∧
      report.interruptsObserved.toNat = w.iterations := by
  obtain ⟨hc, ho, sent, hr⟩ := h.finished hp
  obtain rfl := report_of_conclude hr
  have hlt : w.iterations < 2 ^ 64 :=
    Nat.lt_trans w.settings.iterations.toNat_lt (by decide)
  constructor
  · simp [hc, iterations]
  · rw [ho]
    exact Nat.mod_eq_of_lt hlt

/-- Every event keeps the counters and the phase in agreement. -/
theorem onCourse_step {event : WorkerEvent} (h : w.OnCourse) (hs : w.step event = some w') :
    w'.OnCourse := by
  have hfail (e : WorkerError) : (w.endLoop (some e)).OnCourse := onCourse_endLoop_failed h e
  have hat := h.counters
  unfold CountersAgree at hat
  unfold step at hs
  split at hs
  next hw =>
    obtain rfl := Option.some.inj hs
    obtain ⟨hc, ho⟩ := h.starting hw
    exact onCourse_resumeLoop h.numbered (hc ▸ Nat.zero_le _) (ho.trans hc.symm)
  next =>
    obtain rfl := Option.some.inj hs
    exact ⟨h.numbered, h.bounds⟩
  next line hw =>
    obtain rfl := Option.some.inj hs
    exact onCourse_afterLine hw h
  next =>
    obtain rfl := Option.some.inj hs
    exact hfail _
  next hw =>
    obtain rfl := Option.some.inj hs
    rw [hw] at hat
    exact ⟨h.numbered, hat⟩
  next hw => exact onCourse_slept (.inl hw) h (by simpa [step, hw] using hs)
  next hw => exact onCourse_slept (.inr hw) h (by simpa [step, hw] using hs)
  next pending hw =>
    rw [hw] at hat
    split at hs
    · split at hs
      · obtain rfl := Option.some.inj hs
        exact hfail _
      · obtain rfl := Option.some.inj hs
        exact ⟨h.numbered, hat⟩
    · obtain rfl := Option.some.inj hs
      exact ⟨h.numbered, hat.1, by simp [hat.2]⟩
  next hw =>
    obtain rfl := Option.some.inj hs
    rw [hw] at hat
    exact ⟨h.numbered, hat.1, by simp [hat.2]⟩
  next =>
    obtain rfl := Option.some.inj hs
    exact hfail _
  next failure hw =>
    obtain rfl := Option.some.inj hs
    rw [hw] at hat
    cases failure <;> exact ⟨h.numbered, hat⟩
  next =>
    obtain rfl := Option.some.inj hs
    exact ⟨h.numbered, h.bounds⟩
  next failure sent hw =>
    obtain rfl := Option.some.inj hs
    exact onCourse_finish (some sent) hw h
  next =>
    obtain rfl := Option.some.inj hs
    exact ⟨h.numbered, h.bounds⟩
  next => cases hs

end Worker

namespace LocalRun

variable {s s' : LocalRun} {m : LocalMove}

theorem onCourse_transition (h : s.worker.OnCourse) (ht : s.Transition m s') :
    s'.worker.OnCourse := by
  rcases worker_transition ht with hw | ⟨event, hs⟩
  · rwa [hw]
  · exact Worker.onCourse_step h hs

theorem settings_transition (ht : s.Transition m s') :
    s'.worker.settings = s.worker.settings := by
  rcases worker_transition ht with hw | ⟨event, hs⟩
  · rw [hw]
  · exact Worker.settings_step hs

end LocalRun

end InterruptStress
