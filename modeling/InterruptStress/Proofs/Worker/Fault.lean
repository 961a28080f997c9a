import InterruptStress.Proofs.Worker.Coordination

/-!
# Why a worker fails

`LocalRun.Fault` lists the moves that make a worker fail and the error that each of them gives.
A worker that has failed keeps its first failure (`LocalRun.failure_transition`), so the failure
of a run is always that of one of its moves.  Of a worker whose threads are sound and whose token
is its own, what remains is that its probe was detached, that a sleep ran to its end, or, in
precise mode, that the handing over went wrong.
-/

namespace InterruptStress

namespace Worker

/-- What the loop or the run has failed with. -/
def failure? (w : Worker) : Option WorkerError :=
  match w.phase with
  | .stopping failure | .joining failure => failure
  | .finished (.error e) => some e
  | _ => none

variable {w w' : Worker}

@[simp] theorem failure?_resumeLoop : w.resumeLoop.failure? = none := rfl

/-- Without a failure a run without a local generator ends well, since only precise mode settles
accounts. -/
theorem conclude_of_not_local (hmode : w.settings.mode.hasLocalGenerator = false) :
    w.conclude none none =
      .ok ⟨w.settings.mode, UInt32.ofNat w.completed, UInt64.ofNat w.observed, none⟩ := by
  have hne : w.settings.mode ≠ .precise := by
    rintro hmode'
    simp [hmode', Mode.hasLocalGenerator] at hmode
  simp [conclude, hne]

@[simp] theorem failure?_endLoop (failure : Option WorkerError) :
    (w.endLoop failure).failure? = failure := by
  cases hlocal : w.settings.mode.hasLocalGenerator with
  | true => simp [endLoop, hlocal, failure?]
  | false =>
    cases failure with
    | some e => simp [endLoop, hlocal, failure?, conclude]
    | none =>
      simp only [endLoop, hlocal, Bool.false_eq_true, if_false, conclude_of_not_local hlocal]
      rfl

theorem failure?_afterLine_check (hcaught : w.interrupted = false) :
    (w.afterLine .check).failure? = some (.violation (.notInterrupted w.iteration)) := by
  simp [afterLine, hcaught]

/-- No other line makes a worker fail by being taken. -/
theorem failure?_afterLine {line : WorkerLine} (h : line = .check → w.interrupted = true) :
    (w.afterLine line).failure? = none := by
  cases line with
  | check => simp [afterLine, h rfl]
  | done => simp [afterLine]
  | _ => rfl

/-- A run that has been settled fails with what the loop failed with, or else in precise mode with
a count that is not one more than was observed. -/
theorem failure?_conclude (failure : Option WorkerError) (sent : Nat) :
    Worker.failure? { w with phase := .finished (w.conclude failure (some sent)) } = failure ∨
      failure = none ∧ w.settings.mode = .precise ∧ sent ≠ w.observed + 1 ∧
        Worker.failure? { w with phase := .finished (w.conclude failure (some sent)) } =
          some (.violation (.accountingMismatch sent w.observed)) := by
  cases failure with
  | some e => exact .inl rfl
  | none =>
    by_cases hbad : w.settings.mode = .precise ∧ sent ≠ w.observed + 1
    · refine .inr ⟨rfl, hbad.1, hbad.2, ?_⟩
      simp [conclude, hbad, failure?]
    · refine .inl ?_
      simp only [conclude, Option.getD_some, if_neg hbad]
      rfl

end Worker

namespace LocalRun

/-- The moves that make a worker fail, each with the error that it gives. -/
inductive Fault (s : LocalRun) : LocalMove → WorkerError → Prop where
  | refused (line : WorkerLine) (hw : s.worker.phase = .reporting line) :
      Fault s (.report false) .detached
  | uninterrupted (hw : s.worker.phase = .reporting .check)
      (hcaught : s.worker.interrupted = false) :
      Fault s (.report true) (.violation (.notInterrupted s.worker.iteration))
  | uncleared (m : LocalMove)
      (hm : m = .advance .worker ∧ s.token.pending = true ∨ m = .tellStatus true)
      (hw : s.worker.phase = .reading) (hmode : s.mode = .precise) :
      Fault s m (.violation (.statusNotCleared s.worker.iteration))
  | unaccounted (g : Generator) (sent : Nat) (hw : s.worker.phase = .joining none)
      (hg : s.generator = some g) (hp : g.phase = .finished (.ok sent))
      (hmode : s.mode = .precise) (hsent : sent ≠ s.worker.observed + 1) :
      Fault s (.advance .worker) (.violation (.accountingMismatch sent s.worker.observed))
  | poisoned (hpoisoned : s.rendezvous.poisoned = true) :
      Fault s (.advance .worker) (.wait (.poisoned .rendezvous))
  | badSleep (e : WaitError) : Fault s (.endSleep (.error e)) (.wait e)
  | badGenerator (g : Generator) (e : GeneratorError) (hg : s.generator = some g)
      (hp : g.phase = .finished (.error e)) : Fault s (.advance .worker) (.generator e)
  | unstarted (text : String) : Fault s (.failStart text) (.spawn text)

variable {s s' : LocalRun} {m : LocalMove}

/-- A move leaves the worker's failure as it is, or is the one that makes it fail. -/
theorem failure_transition (ht : s.Transition m s') :
    s'.worker.failure? = s.worker.failure? ∨
      s.worker.failure? = none ∧ ∃ e, s'.worker.failure? = some e ∧ s.Fault m e := by
  cases ht with
  | start hw => exact .inl (by simp [Worker.failure?, hw, Worker.resumeLoop])
  | failStart text hw =>
    exact .inr ⟨by simp [Worker.failure?, hw], _, rfl, .unstarted text⟩
  | takeLine line hw =>
    have hnone : s.worker.failure? = none := by simp [Worker.failure?, hw]
    by_cases hcheck : line = .check ∧ s.worker.interrupted = false
    · obtain ⟨rfl, hcaught⟩ := hcheck
      exact .inr ⟨hnone, _, Worker.failure?_afterLine_check hcaught, .uninterrupted hw hcaught⟩
    · refine .inl ((Worker.failure?_afterLine fun hline => ?_).trans hnone.symm)
      simpa [hline] using hcheck
  | refuseLine line hw =>
    exact .inr ⟨by simp [Worker.failure?, hw], _, by simp, .refused line hw⟩
  | doze hw => exact .inl (by simp [Worker.failure?, hw])
  | wake _ _ hw => exact .inl (by rcases hw with hw | hw <;> simp [Worker.failure?, hw])
  | oversleep hw => exact .inl (by rcases hw with hw | hw <;> simp [Worker.failure?, hw])
  | endSleep result w hw hs =>
    have hnone : s.worker.failure? = none := by
      rcases hw with hw | hw <;> simp [Worker.failure?, hw]
    rcases Worker.step_slept hw hs with ⟨e, rfl, rfl⟩ | ⟨-, rfl⟩ | ⟨-, rfl⟩
    · exact .inr ⟨hnone, _, by simp, .badSleep e⟩
    · exact .inl hnone.symm
    · exact .inl hnone.symm
  | read m told hm hw w hs =>
    have hnone : s.worker.failure? = none := by simp [Worker.failure?, hw]
    rcases Worker.step_read hw hs with ⟨hmode, rfl, rfl⟩ | ⟨-, -, rfl⟩ | ⟨-, rfl⟩
    · refine .inr ⟨hnone, _, by simp, .uncleared m ?_ hw hmode⟩
      exact hm.imp_left fun hread => ⟨hread.1, hread.2.symm⟩
    · exact .inl hnone.symm
    · exact .inl hnone.symm
  | acknowledge hw => exact .inl (by simp [Worker.failure?, hw])
  | failAcknowledge hw _ hpoisoned =>
    exact .inr ⟨by simp [Worker.failure?, hw], _, by simp, .poisoned hpoisoned⟩
  | stop failure hw => exact .inl (by simp [Worker.failure?, hw])
  | failStop failure hw _ _ hpoisoned =>
    cases failure with
    | some e => exact .inl (by simp [Worker.failure?, hw])
    | none => exact .inr ⟨by simp [Worker.failure?, hw], _, rfl, .poisoned hpoisoned⟩
  | join failure hw g hg sent hp =>
    rcases Worker.failure?_conclude failure sent with h | ⟨rfl, hmode, hsent, h⟩
    · exact .inl (h.trans (by simp [Worker.failure?, hw]))
    · exact .inr ⟨by simp [Worker.failure?, hw], _, h, .unaccounted g sent hw hg hp hmode hsent⟩
  | failJoin failure hw g hg e hp =>
    cases failure with
    | some e => exact .inl (by simp [Worker.failure?, hw])
    | none => exact .inr ⟨by simp [Worker.failure?, hw], _, rfl, .badGenerator g e hg hp⟩
  | _ => exact .inl rfl

end LocalRun

end InterruptStress
