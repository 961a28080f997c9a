import InterruptStress.Proofs.Supervision.Verdict
import InterruptStress.Proofs.Target.Lifecycle

/-!
# When a target's end counts as a success

A success is read off the exit's code alone, and there are three makers of exits.  Code 0 is the
code of a worker that finished cleanly, 1 that of a worker that failed; a target that is abandoned
ends with -1, but one that is told to exit ends with whatever code it is told.  So of all that can
end a target, whatever it is sent and in whatever order, two things count as a success: the
worker's own clean finish, with all its iterations completed, and a command to exit with code 0
(`Attended.isSuccess_iff_of_run`).  The second is no clean finish, it has neither a report nor a
worker's result, and the report of its run passes nonetheless (`Attended.isSuccess_of_exit_zero`).
-/

namespace InterruptStress

namespace EndCause

/-- No report comes with an end that was forced, and its code is 0 only if it was told to be. -/
theorem isSuccess_iff (cause : EndCause) :
    cause.exit.isSuccess = true ↔
      cause = .exited 0 ∨ ∃ exit, cause = .ended exit ∧ exit.isSuccess = true := by
  cases cause with
  | ended exit => simp [EndCause.exit]
  | exited code => simp [EndCause.exit, Target.exitedOnCommand, TargetExit.forced,
      TargetExit.isSuccess, TargetExit.passedCode]
  | abandoned =>
    have hfailed : (EndCause.exit .abandoned).isSuccess = false := rfl
    simp [hfailed]

end EndCause

namespace Attended

variable {s s' : Attended} {m : AttendedMove} {history : List (Attended × AttendedMove)}
  {settings : WorkerSettings} {exit : TargetExit}

/-- Whatever happens to an attended target happens to its worker by a move of its own. -/
theorem run_of_step (hs : s.step m = some s') :
    s'.target.run = s.target.run ∨ ∃ l, s.target.run.Transition l s'.target.run := by
  cases m with
  | target m =>
    obtain ⟨t, ht, rfl⟩ := Option.map_eq_some_iff.mp hs
    rcases Target.run_transition (Target.transition_of_step ht) with ⟨-, hsame⟩ | ⟨l, -, hl⟩
    · exact .inl hsame
    · exact .inr ⟨l, LocalRun.transition_of_step hl⟩
  | failStart text =>
    simp only [step] at hs
    split at hs
    · obtain ⟨t, ht, rfl⟩ := Option.map_eq_some_iff.mp hs
      obtain ⟨run, hrun, rfl⟩ := Target.of_onRun ht
      exact .inr ⟨_, LocalRun.transition_of_step hrun⟩
    · cases hs
  | send command =>
    simp only [step] at hs
    split at hs
    · obtain rfl := Option.some.inj hs
      exact .inl rfl
    · cases hs
  | hangUp =>
    obtain rfl := Option.some.inj hs
    exact .inl rfl
  | receive =>
    obtain ⟨event, rest, hq, rfl⟩ := of_receive hs
    exact .inl rfl

theorem course_of_run (hrun : Execution step (launch settings) history s) :
    s.target.run.worker.settings = settings ∧ s.target.run.worker.OnCourse := by
  induction hrun with
  | nil =>
    refine ⟨?_, Worker.onCourse_start settings⟩
    simp [launch, Target.launch, LocalRun.start, Worker.start, apply_ite]
  | cons _ hs ih =>
    rcases run_of_step hs with hsame | ⟨l, ht⟩
    · rwa [hsame]
    · exact ⟨(LocalRun.settings_transition ht).trans ih.1, LocalRun.onCourse_transition ih.2 ht⟩

/-- What a death that was told was caused by. -/
theorem cause_of_death (hrun : Execution step (launch settings) history s)
    (hdeath : .death exit ∈ s.said) :
    ∃ cause, endCauses history = [cause] ∧ exit = cause.exit ∧
      ∀ exit, cause = .ended exit → ∃ result,
        s.target.run.worker.phase = .finished result ∧ exit = Target.exitFor result := by
  obtain ⟨steps, farewell, hsaid, hsteps, hservice⟩ := (orderly_of_run hrun).spoken
  rw [hsaid] at hdeath
  have hfarewell : .death exit ∈ farewell := by
    rcases List.mem_cons.mp hdeath with hstart | hlater
    · cases hstart
    · rcases List.mem_append.mp hlater with hstep | hfarewell
      · cases hsteps _ hstep
      · exact hfarewell
  obtain ⟨cause, hcause, hexit, -, hown⟩ := hservice.of_death hfarewell
  exact ⟨cause, hcause, hexit, hown⟩

/-- The exit is that of a worker that has finished cleanly, all its iterations completed. -/
def IsCleanFinish (s : Attended) (settings : WorkerSettings) (exit : TargetExit) : Prop :=
  ∃ report, s.target.run.worker.result? = some (.ok report) ∧ exit = .passed report ∧
    report.iterationsCompleted = settings.iterations ∧
    report.interruptsObserved.toNat = settings.iterations.toNat

/-- Whatever a target is sent, in whatever order, and whenever its last sender goes: the end that
it tells counts as a success if and only if its worker has finished cleanly or it was told to exit
with code 0, and the report of a run that has ended so passes for no other reason. -/
theorem isSuccess_iff_of_run (hrun : Execution step (launch settings) history s)
    (hdeath : .death exit ∈ s.said) :
    (exit.isSuccess = true ↔
      s.IsCleanFinish settings exit ∨ .exited 0 ∈ endCauses history) ∧
    ∀ r : RunReport, r.exit = some exit → r.passed = true →
      s.IsCleanFinish settings exit ∨ .exited 0 ∈ endCauses history := by
  have hsuccess : exit.isSuccess = true ↔
      s.IsCleanFinish settings exit ∨ .exited 0 ∈ endCauses history := by
    obtain ⟨cause, hcause, rfl, hown⟩ := cause_of_death hrun hdeath
    obtain ⟨rfl, hcourse⟩ := course_of_run hrun
    rw [hcause, List.mem_singleton]
    constructor
    · intro hok
      rcases cause.isSuccess_iff.mp hok with rfl | ⟨exit, rfl, hok⟩
      · exact .inr rfl
      · obtain ⟨result, hp, rfl⟩ := hown exit rfl
        obtain ⟨report, rfl⟩ := (Target.isSuccess_exitFor result).mp hok
        obtain ⟨hcompleted, hobserved⟩ := hcourse.report hp
        exact .inl ⟨report, by simp [Worker.result?, hp], rfl, hcompleted, hobserved⟩
    · rintro (⟨report, -, hexit, -⟩ | rfl)
      · rw [hexit]
        rfl
      · rfl
  refine ⟨hsuccess, fun r hexit hpassed => hsuccess.mp ?_⟩
  obtain ⟨-, ⟨exit', hsame, hok⟩, -⟩ := (RunReport.passed_iff r).mp hpassed
  rwa [Option.some.inj (hexit.symm.trans hsame)]

/-- A remote worker of one iteration that finishes cleanly. -/
theorem isSuccess_iff_of_run_finished :
    ∃ history s exit, Execution step (launch ⟨.remote, 1, .ofMillis 10, .ofMillis 1⟩) history s ∧
      .death exit ∈ s.said ∧
      s.IsCleanFinish ⟨.remote, 1, .ofMillis 10, .ofMillis 1⟩ exit := by
  let main : AttendedMove := .target .main
  let apply : AttendedMove := .target .applyCommand
  let farewell : AttendedMove := .target .farewell
  have hrun := Execution.of_replay (.nil : Execution step
      (launch ⟨.remote, 1, .ofMillis 10, .ofMillis 1⟩) [] _)
    [.send .resume, apply, main, main, main, .send (.interrupt .main), apply, main, main, main,
      main, main, main, .target .noticeExit, farewell, farewell] rfl
  have hsuccess := (isSuccess_iff_of_run hrun (.tail _ (.tail _ (.head _)))).1
  exact ⟨_, _, _, hrun, .tail _ (.tail _ (.head _)),
    (hsuccess.mp rfl).resolve_right (by decide)⟩

/-- A target that is told to exit with code 0 before its start: its end counts as a success
without a result of its worker, and the report of the run passes. -/
theorem isSuccess_of_exit_zero :
    ∃ history s exit, Execution step (launch ⟨.precise, 1, .ofMillis 10, .ofMillis 1⟩) history s ∧
      .death exit ∈ s.said ∧ exit.isSuccess = true ∧
      s.target.run.worker.result? = none ∧ exit.report = none ∧
      exit.failure = some "terminated by controller" ∧
      (⟨"terminated", .precise, 0, none, some exit, none⟩ : RunReport).passed = true := by
  let farewell : AttendedMove := .target .farewell
  have hrun := Execution.of_replay (.nil : Execution step
      (launch ⟨.precise, 1, .ofMillis 10, .ofMillis 1⟩) [] _)
    [.send (.exit 0), .target .applyCommand, farewell, farewell] rfl
  exact ⟨_, _, _, hrun, .tail _ (.head _), rfl, rfl, rfl, rfl, rfl⟩

end Attended

end InterruptStress
