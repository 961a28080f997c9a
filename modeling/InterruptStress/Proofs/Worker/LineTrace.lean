import InterruptStress.Proofs.Worker.Escape

/-!
# The lines of a worker's loop

What a worker hands to its probe mirrors its counters.  The lines of an iteration are the same in
every iteration that completes; behind the completed ones stands what has been handed over of the
present one (`Worker.linesGiven`), and once the loop has returned, what it was when it did.  So
behind as many full iterations as were completed stands the last line alone, or less than an
iteration, or the three lines of an iteration whose sleep was not interrupted
(`WorkerSettings.IsTail`).

Nothing is assumed of the worker's token, of its probe and of its generator: every event that can
happen to a worker keeps this (`Worker.traced_step`), and which of the tails it is tells what the
loop returns (`LocalRun.trace_of_run`).
-/

namespace InterruptStress

/-! ## Lines -/

/-- The lines of an iteration whose sleep is interrupted. -/
def Mode.iterationLines : Mode → List WorkerLine
  | precise => [.loop, .sleep, .caught, .acknowledge, .check]
  | aggressive | remote => [.loop, .sleep, .caught, .check]

/-- The lines of so many iterations. -/
def Mode.linesOf (mode : Mode) (iterations : Nat) : List WorkerLine :=
  (List.replicate iterations mode.iterationLines).flatten

theorem Mode.linesOf_succ (mode : Mode) (iterations : Nat) :
    mode.linesOf (iterations + 1) = mode.linesOf iterations ++ mode.iterationLines := by
  simp [linesOf, List.replicate_succ']

/-- The lines of an iteration whose sleep runs to its end. -/
def WorkerLine.missed : List WorkerLine := [.loop, .sleep, .check]

/-- What may stand behind the lines of the iterations that were completed. -/
def WorkerSettings.IsTail (settings : WorkerSettings) (completed : Nat)
    (lines : List WorkerLine) : Prop :=
  lines = [.done] ∧ completed = settings.iterations.toNat ∨
    completed < settings.iterations.toNat ∧
      (lines <+: settings.mode.iterationLines ∨ lines = WorkerLine.missed)

/-- Without its last line a tail is one too, unless nothing is left. -/
theorem WorkerSettings.IsTail.of_append {settings : WorkerSettings} {completed : Nat}
    {lines : List WorkerLine} {line : WorkerLine}
    (h : settings.IsTail completed (lines ++ [line])) :
    lines = [] ∨ settings.IsTail completed lines := by
  rcases h with ⟨hdone, -⟩ | ⟨hmore, hpart | hmissed⟩
  · have hnothing : lines ++ [line] = [] ++ [.done] := hdone
    exact .inl (List.append_inj_left' hnothing rfl)
  · exact .inr (.inr ⟨hmore, .inl ((List.prefix_append lines [line]).trans hpart)⟩)
  · have hsplit : lines ++ [line] = [.loop, .sleep] ++ [.check] := hmissed
    obtain rfl : lines = [.loop, .sleep] := List.append_inj_left' hsplit rfl
    refine .inr (.inr ⟨hmore, .inl ?_⟩)
    cases settings.mode <;> simp [Mode.iterationLines]

namespace Worker

/-- The line that an event hands to the probe, whether the probe takes it or not. -/
def handed? (w : Worker) : WorkerEvent → Option WorkerLine
  | .reported _ =>
    match w.phase with
    | .reporting line => some line
    | _ => none
  | _ => none

/-- The lines of the present iteration that a worker in its loop has handed over. -/
def linesGiven (w : Worker) : List WorkerLine :=
  match w.phase with
  | .reporting .sleep => [.loop]
  | .sleeping | .asleep | .reporting .caught => [.loop, .sleep]
  | .reading | .reporting .acknowledge => [.loop, .sleep, .caught]
  | .acknowledging => [.loop, .sleep, .caught, .acknowledge]
  | .reporting .check =>
    if w.interrupted then w.settings.mode.iterationLines.dropLast else [.loop, .sleep]
  | _ => []

variable {w w' : Worker} {event : WorkerEvent} {line : WorkerLine}

theorem linesGiven_resumeLoop : w.resumeLoop.linesGiven = [] := by
  simp only [resumeLoop, nextLine]
  split <;> rfl

theorem isLooping_endLoop (failure : Option WorkerError) :
    (w.endLoop failure).isLooping = false := by
  unfold endLoop
  split <;> rfl

theorem completed_endLoop (failure : Option WorkerError) :
    (w.endLoop failure).completed = w.completed := by
  unfold endLoop
  split <;> rfl

theorem handed?_of_reporting (hw : w.phase = .reporting line) (accepted : Bool) :
    w.handed? (.reported accepted) = some line := by
  simp [handed?, hw]

/-! ## Tails -/

/-- The line that a worker has reached goes on with the iteration, or is the last one. -/
theorem isTail_of_reporting (hc : w.OnCourse) (hm : w.InMode) (hw : w.phase = .reporting line) :
    w.settings.IsTail w.completed (w.linesGiven ++ [line]) := by
  have hcounters := hc.counters
  unfold CountersAgree at hcounters
  unfold InMode at hm
  rw [hw] at hcounters hm
  cases line with
  | done => exact .inl ⟨by simp [linesGiven, hw], hcounters.1⟩
  | check =>
    refine .inr ⟨hcounters.1, ?_⟩
    cases hcaught : w.interrupted with
    | true =>
      have hall : w.linesGiven ++ [.check] = w.settings.mode.iterationLines := by
        cases hmode : w.settings.mode <;>
          simp [linesGiven, hw, hcaught, hmode, Mode.iterationLines]
      exact .inl (hall ▸ List.prefix_rfl)
    | false => exact .inr (by simp [linesGiven, hw, hcaught, WorkerLine.missed])
  | acknowledge =>
    refine .inr ⟨hcounters.1, .inl ⟨[.check], ?_⟩⟩
    have hprecise : w.settings.mode = .precise := hm
    simp [linesGiven, hw, hprecise, Mode.iterationLines]
  | loop | sleep | caught =>
    refine .inr ⟨hcounters.1, .inl ?_⟩
    cases hmode : w.settings.mode <;> simp [linesGiven, hw, Mode.iterationLines]

/-- So does whatever it does between two lines. -/
theorem isTail_of_looping (hc : w.OnCourse) (hm : w.InMode) (hloop : w.isLooping = true)
    (hbetween : ∀ line, w.phase ≠ .reporting line) :
    w.settings.IsTail w.completed w.linesGiven := by
  unfold InMode at hm
  cases hw : w.phase with
  | reporting line => exact absurd hw (hbetween line)
  | acknowledging =>
    rw [hw] at hm
    refine .inr ⟨(hc.awake (.inr hw)).1, .inl ⟨[.check], ?_⟩⟩
    have hprecise : w.settings.mode = .precise := hm
    simp [linesGiven, hw, hprecise, Mode.iterationLines]
  | sleeping | asleep =>
    refine .inr ⟨(hc.asleep (by simp [hw])).1, .inl ?_⟩
    cases hmode : w.settings.mode <;> simp [linesGiven, hw, Mode.iterationLines]
  | reading =>
    refine .inr ⟨(hc.awake (.inl hw)).1, .inl ?_⟩
    cases hmode : w.settings.mode <;> simp [linesGiven, hw, Mode.iterationLines]
  | _ => simp [isLooping, hw] at hloop

/-! ## How the loop ends -/

/-- The events that end a worker's loop, each with the failure that it ends it with. -/
inductive LoopEnd (w : Worker) : WorkerEvent → Option WorkerError → Prop where
  | done (hw : w.phase = .reporting .done) : LoopEnd w (.reported true) none
  | refused (line : WorkerLine) (hw : w.phase = .reporting line) :
      LoopEnd w (.reported false) (some .detached)
  | missed (hw : w.phase = .reporting .check) (hcaught : w.interrupted = false) :
      LoopEnd w (.reported true) (some (.violation (.notInterrupted w.iteration)))
  | badSleep (e : WaitError) (hw : w.phase = .sleeping ∨ w.phase = .asleep) :
      LoopEnd w (.slept (.error e)) (some (.wait e))
  | uncleared (hw : w.phase = .reading) (hmode : w.settings.mode = .precise) :
      LoopEnd w (.read true) (some (.violation (.statusNotCleared w.iteration)))
  | badAcknowledge (e : WaitError) (hw : w.phase = .acknowledging) :
      LoopEnd w (.acknowledged (.error e)) (some (.wait e))

/-- The loop goes on, and the lines that it has handed over with it. -/
def GoesOn (w : Worker) (event : WorkerEvent) (w' : Worker) : Prop :=
  w'.isLooping = true ∧
    w'.settings.mode.linesOf w'.completed ++ w'.linesGiven =
      w.settings.mode.linesOf w.completed ++ (w.linesGiven ++ (w.handed? event).toList)

/-- Within an iteration the lines grow by the one that was handed over. -/
theorem goesOn_within (hloop : w'.isLooping = true) (hset : w'.settings = w.settings)
    (hc : w'.completed = w.completed)
    (hlines : w'.linesGiven = w.linesGiven ++ (w.handed? event).toList) :
    w.GoesOn event w' :=
  ⟨hloop, by rw [hset, hc, hlines]⟩

theorem goesOn_or_ends_afterLine (hw : w.phase = .reporting line) :
    w.GoesOn (.reported true) (w.afterLine line) ∨
      ∃ failure, w.LoopEnd (.reported true) failure ∧ w.afterLine line = w.endLoop failure := by
  cases line with
  | done => exact .inr ⟨none, .done hw, rfl⟩
  | check =>
    cases hcaught : w.interrupted with
    | false => exact .inr ⟨_, .missed hw hcaught, by simp [afterLine, hcaught]⟩
    | true =>
      -- the iteration is complete
      have hall : w.linesGiven ++ [.check] = w.settings.mode.iterationLines := by
        cases hmode : w.settings.mode <;>
          simp [linesGiven, hw, hcaught, hmode, Mode.iterationLines]
      have hafter : w.afterLine .check =
          { w with completed := w.completed + 1, iteration := w.iteration + 1 }.resumeLoop := by
        simp [afterLine, hcaught]
      refine .inl ⟨by rw [hafter]; rfl, ?_⟩
      rw [hafter, linesGiven_resumeLoop, handed?_of_reporting hw, Option.toList_some, hall,
        List.append_nil]
      exact Mode.linesOf_succ _ _
  | loop | sleep | caught | acknowledge =>
    exact .inl (goesOn_within rfl rfl rfl
      (by simp [afterLine, linesGiven, handed?_of_reporting hw, hw]))

theorem goesOn_or_ends_slept {result : Except WaitError SleepOutcome} (hc : w.OnCourse)
    (hw : w.phase = .sleeping ∨ w.phase = .asleep) (hs : w.step (.slept result) = some w') :
    w.GoesOn (.slept result) w' ∨
      ∃ failure, w.LoopEnd (.slept result) failure ∧ w' = w.endLoop failure := by
  have hgiven : w.linesGiven = [.loop, .sleep] := by
    rcases hw with hw | hw <;> simp [linesGiven, hw]
  have hcaught := (hc.asleep hw).2.2
  rcases step_slept hw hs with ⟨e, rfl, rfl⟩ | ⟨-, rfl⟩ | ⟨-, rfl⟩
  · exact .inr ⟨_, .badSleep e hw, rfl⟩
  · exact .inl (goesOn_within rfl rfl rfl (by rw [hgiven]; simp [linesGiven, handed?, hcaught]))
  · exact .inl (goesOn_within rfl rfl rfl (by rw [hgiven]; simp [linesGiven, handed?]))

theorem goesOn_or_ends_read {told : Bool} (hc : w.OnCourse) (hw : w.phase = .reading)
    (hs : w.step (.read told) = some w') :
    w.GoesOn (.read told) w' ∨
      ∃ failure, w.LoopEnd (.read told) failure ∧ w' = w.endLoop failure := by
  have hcaught := (hc.awake (.inl hw)).2.2
  rcases step_read hw hs with ⟨hmode, rfl, rfl⟩ | ⟨-, -, rfl⟩ | ⟨hmode, rfl⟩
  · exact .inr ⟨_, .uncleared hw hmode, rfl⟩
  · exact .inl (goesOn_within rfl rfl rfl (by simp [linesGiven, handed?, hw]))
  · refine .inl (goesOn_within rfl rfl rfl ?_)
    cases hother : w.settings.mode with
    | precise => exact absurd hother hmode
    | aggressive | remote => simp [linesGiven, handed?, hw, hcaught, hother, Mode.iterationLines]

/-- Whatever happens to a worker in its loop, the loop goes on with its lines or ends. -/
theorem goesOn_or_ends (hc : w.OnCourse) (hm : w.InMode) (hloop : w.isLooping = true)
    (hs : w.step event = some w') :
    w.GoesOn event w' ∨ ∃ failure, w.LoopEnd event failure ∧ w' = w.endLoop failure := by
  cases hw : w.phase with
  | starting | stopping | joining | finished => simp [isLooping, hw] at hloop
  | reporting line =>
    cases event with
    | reported accepted =>
      cases accepted with
      | true =>
        obtain rfl : w.afterLine line = w' := by simpa [step, hw] using hs
        exact goesOn_or_ends_afterLine hw
      | false =>
        obtain rfl : w.endLoop (some .detached) = w' := by simpa [step, hw] using hs
        exact .inr ⟨_, .refused line hw, rfl⟩
    | _ => simp [step, hw] at hs
  | sleeping =>
    cases event with
    | dozed =>
      obtain rfl : { w with phase := .asleep } = w' := by simpa [step, hw] using hs
      exact .inl (goesOn_within rfl rfl rfl (by simp [linesGiven, handed?, hw]))
    | slept result => exact goesOn_or_ends_slept hc (.inl hw) hs
    | _ => simp [step, hw] at hs
  | asleep =>
    cases event with
    | slept result => exact goesOn_or_ends_slept hc (.inr hw) hs
    | _ => simp [step, hw] at hs
  | reading =>
    cases event with
    | read told => exact goesOn_or_ends_read hc hw hs
    | _ => simp [step, hw] at hs
  | acknowledging =>
    cases event with
    | acknowledged result =>
      cases result with
      | error e =>
        obtain rfl : w.endLoop (some (.wait e)) = w' := by simpa [step, hw] using hs
        exact .inr ⟨_, .badAcknowledge e hw, rfl⟩
      | ok _ =>
        have hcaught := (hc.awake (.inr hw)).2.2
        unfold InMode at hm
        rw [hw] at hm
        have hprecise : w.settings.mode = .precise := hm
        obtain rfl : { w with phase := .reporting .check } = w' := by simpa [step, hw] using hs
        refine .inl (goesOn_within rfl rfl rfl ?_)
        simp [linesGiven, handed?, hw, hcaught, hprecise, Mode.iterationLines]
    | _ => simp [step, hw] at hs

/-- What has been handed over when the loop ends. -/
theorem LoopEnd.isTail {failure : Option WorkerError} (h : w.LoopEnd event failure)
    (hc : w.OnCourse) (hm : w.InMode) :
    w.settings.IsTail w.completed (w.linesGiven ++ (w.handed? event).toList) := by
  have hreporting {line : WorkerLine} (accepted : Bool) (hw : w.phase = .reporting line) :
      w.settings.IsTail w.completed
        (w.linesGiven ++ (w.handed? (.reported accepted)).toList) := by
    rw [handed?_of_reporting hw]
    exact isTail_of_reporting hc hm hw
  have hbetween (hlines : w.handed? event = none) (hloop : w.isLooping = true)
      (hnot : ∀ line, w.phase ≠ .reporting line) :
      w.settings.IsTail w.completed (w.linesGiven ++ (w.handed? event).toList) := by
    rw [hlines, Option.toList_none, List.append_nil]
    exact isTail_of_looping hc hm hloop hnot
  cases h with
  | done hw => exact hreporting _ hw
  | refused line hw => exact hreporting _ hw
  | missed hw => exact hreporting _ hw
  | badSleep e hw =>
    rcases hw with hw | hw <;> exact hbetween rfl (by simp [isLooping, hw]) (by simp [hw])
  | uncleared hw | badAcknowledge _ hw =>
    exact hbetween rfl (by simp [isLooping, hw]) (by simp [hw])

/-- The loop ends well exactly with its last line, taken. -/
theorem LoopEnd.failure_eq_none_iff {failure : Option WorkerError} (h : w.LoopEnd event failure) :
    failure = none ↔
      w.linesGiven ++ (w.handed? event).toList = [.done] ∧ event = .reported true := by
  cases h with
  | done hw => simp [linesGiven, handed?, hw]
  | missed hw hcaught => simp [linesGiven, hw, hcaught]
  | _ => simp

theorem LoopEnd.of_notInterrupted {iteration : Nat} (hc : w.OnCourse)
    (h : w.LoopEnd event (some (.violation (.notInterrupted iteration)))) :
    iteration = w.completed ∧
      w.linesGiven ++ (w.handed? event).toList = WorkerLine.missed := by
  cases h with
  | missed hw hcaught =>
    exact ⟨hc.numbered, by simp [linesGiven, handed?, hw, hcaught, WorkerLine.missed]⟩

theorem LoopEnd.of_statusNotCleared {iteration : Nat} (hc : w.OnCourse)
    (h : w.LoopEnd event (some (.violation (.statusNotCleared iteration)))) :
    iteration = w.completed := by
  cases h with
  | uncleared => exact hc.numbered

/-! ## What becomes of the lines -/

/-- The lines that a worker has handed over: in its loop those of the iterations that it has
completed and of the present one, and behind its loop a tail, unless it has not entered it. -/
structure Traced (w : Worker) (lines : List WorkerLine) : Prop where
  starting : w.phase = .starting → lines = []
  looping : w.isLooping = true →
    lines = w.settings.mode.linesOf w.completed ++ w.linesGiven
  idle : w.isLooping = false → ∃ rest, lines = w.settings.mode.linesOf w.completed ++ rest ∧
    (rest = [] ∨ w.settings.IsTail w.completed rest)

/-- A worker about to enter its loop has handed over nothing. -/
theorem traced_resumeLoop (hc : w.completed = 0) : w.resumeLoop.Traced [] where
  starting := nofun
  looping _ := by
    rw [linesGiven_resumeLoop, show w.resumeLoop.completed = 0 from hc]
    rfl
  idle := nofun

theorem traced_start (settings : WorkerSettings) : (Worker.start settings).Traced [] := by
  unfold start
  split
  · exact ⟨fun _ => rfl, nofun, fun _ => ⟨[], rfl, .inl rfl⟩⟩
  · exact traced_resumeLoop rfl

/-- A worker outside its loop hands nothing over, and enters its loop at most. -/
theorem step_of_idle (hidle : w.isLooping = false) (hs : w.step event = some w') :
    w.handed? event = none ∧
      (w.phase = .starting ∧ w' = w.resumeLoop ∨
        w'.isLooping = false ∧ w'.phase ≠ .starting ∧ w'.settings = w.settings ∧
          w'.completed = w.completed) := by
  cases hw : w.phase with
  | starting =>
    cases event with
    | started result =>
      cases result with
      | error text =>
        obtain rfl : { w with phase := .finished (.error (.spawn text)) } = w' := by
          simpa [step, hw] using hs
        exact ⟨rfl, .inr ⟨rfl, by simp, rfl, rfl⟩⟩
      | ok _ =>
        obtain rfl : w.resumeLoop = w' := by simpa [step, hw] using hs
        exact ⟨rfl, .inl ⟨rfl, rfl⟩⟩
    | _ => simp [step, hw] at hs
  | stopping failure =>
    cases event with
    | stopped result =>
      rcases result with e | _ <;> obtain rfl : _ = w' := by simpa [step, hw] using hs
      · exact ⟨rfl, .inr ⟨rfl, by simp, rfl, rfl⟩⟩
      · exact ⟨rfl, .inr ⟨rfl, by simp, rfl, rfl⟩⟩
    | _ => simp [step, hw] at hs
  | joining failure =>
    cases event with
    | joined result =>
      rcases result with e | sent <;> obtain rfl : _ = w' := by simpa [step, hw] using hs
      · exact ⟨rfl, .inr ⟨rfl, by simp, rfl, rfl⟩⟩
      · exact ⟨rfl, .inr ⟨rfl, by simp, rfl, rfl⟩⟩
    | _ => simp [step, hw] at hs
  | finished result => simp [step, hw] at hs
  | _ => simp [isLooping, hw] at hidle

/-- Every event keeps the lines that were handed over in agreement with the counters. -/
theorem traced_step {lines : List WorkerLine} (h : w.Traced lines) (hc : w.OnCourse)
    (hm : w.InMode) (hs : w.step event = some w') :
    w'.Traced (lines ++ (w.handed? event).toList) := by
  cases hloop : w.isLooping with
  | true =>
    rw [h.looping hloop, List.append_assoc]
    rcases goesOn_or_ends hc hm hloop hs with ⟨hloop', hlines⟩ | ⟨failure, hend, rfl⟩
    · refine ⟨fun hw => ?_, fun _ => hlines.symm, fun hidle => ?_⟩
      · simp [isLooping, hw] at hloop'
      · simp [hloop'] at hidle
    · refine ⟨fun hw => absurd hw (LocalRun.begun_endLoop w failure), fun hloop' => ?_, fun _ => ?_⟩
      · simp [isLooping_endLoop] at hloop'
      · rw [settings_endLoop, completed_endLoop]
        exact ⟨_, rfl, .inr (hend.isTail hc hm)⟩
  | false =>
    obtain ⟨hnone, hstep⟩ := step_of_idle hloop hs
    rw [hnone, Option.toList_none, List.append_nil]
    rcases hstep with ⟨hw, rfl⟩ | ⟨hidle, hbegun, hset, hcompleted⟩
    · rw [h.starting hw]
      exact traced_resumeLoop (hc.starting hw).1
    · refine ⟨fun hw => absurd hw hbegun, fun hloop' => ?_, fun _ => ?_⟩
      · simp [hidle] at hloop'
      · rw [hset, hcompleted]
        exact h.idle hloop

end Worker

namespace LocalRun

variable {s s' : LocalRun} {m : LocalMove} {settings : WorkerSettings}
  {history : List (LocalRun × LocalMove)}

/-- The line that a move hands to the probe. -/
def handed? : LocalRun × LocalMove → Option WorkerLine
  | (s, .report accepted) => s.worker.handed? (.reported accepted)
  | _ => none

/-- The lines that the worker has handed to its probe, in their order. -/
def linesHanded (history : List (LocalRun × LocalMove)) : List WorkerLine :=
  history.reverse.filterMap handed?

theorem linesHanded_cons (e : LocalRun × LocalMove) :
    linesHanded (e :: history) = linesHanded history ++ (handed? e).toList := by
  rw [linesHanded, List.reverse_cons, List.filterMap_append]
  cases h : handed? e <;> simp [h, linesHanded]

/-- A move is an event of the worker, or leaves it as it is; it hands a line over if the event
does. -/
theorem event_of_step (hs : s.step m = some s') :
    (s'.worker = s.worker ∧ handed? (s, m) = none) ∨
      ∃ event, s.worker.step event = some s'.worker ∧ handed? (s, m) = s.worker.handed? event ∧
        (m = .report true ↔ event = .reported true) := by
  by_cases hm : ∃ accepted, m = .report accepted
  · obtain ⟨accepted, rfl⟩ := hm
    obtain ⟨w, hw, rfl⟩ := Option.map_eq_some_iff.mp hs
    exact .inr ⟨.reported accepted, hw, rfl, by simp⟩
  · have hnone : handed? (s, m) = none := by
      unfold handed?
      split
      · next heq => exact absurd ⟨_, (Prod.mk.inj heq).2⟩ hm
      · rfl
    have hnot (accepted : Bool) : m ≠ .report accepted := fun h => hm ⟨accepted, h⟩
    have ht := transition_of_step hs
    rcases worker_transition ht with hsame | ⟨event, hw⟩
    · exact .inl ⟨hsame, hnone⟩
    by_cases hreporting : ∃ line, s.worker.phase = .reporting line
    · obtain ⟨line, hline⟩ := hreporting
      exact .inl ⟨worker_of_reporting hline ht hnot, hnone⟩
    · -- away from a line nothing is reported
      have hquiet (accepted : Bool) : event ≠ .reported accepted := by
        rintro rfl
        unfold Worker.step at hw
        split at hw <;> simp_all
      refine .inr ⟨event, hw, ?_, iff_of_false (hnot true) (hquiet true)⟩
      rw [hnone]
      cases event with
      | reported accepted => exact absurd rfl (hquiet accepted)
      | _ => rfl

theorem inMode_of_run (hrun : Execution step (.start settings) history s) : s.worker.InMode := by
  induction hrun with
  | nil => exact Worker.inMode_start settings
  | cons _ hs ih =>
    rcases worker_transition (transition_of_step hs) with hsame | ⟨event, hw⟩
    · rwa [hsame]
    · exact Worker.inMode_step ih hw

theorem traced_of_run (hrun : Execution step (.start settings) history s) :
    s.worker.Traced (linesHanded history) := by
  induction hrun with
  | nil => exact Worker.traced_start settings
  | cons hearlier hs ih =>
    rw [linesHanded_cons]
    rcases event_of_step hs with ⟨hsame, hnone⟩ | ⟨event, hw, hlines, -⟩
    · rwa [hsame, hnone, Option.toList_none, List.append_nil]
    · rw [hlines]
      exact Worker.traced_step ih (course_of_run hearlier).2 (inMode_of_run hearlier) hw

/-- A move ends the worker's loop, well or with a failure. -/
def LoopReturns (s : LocalRun) (m : LocalMove) (s' : LocalRun) (failure : Option WorkerError) :
    Prop :=
  s.step m = some s' ∧ s.worker.isLooping = true ∧ s'.worker.isLooping = false ∧
    s'.worker.failure? = failure

/-- What ends the loop is the end of the worker's loop by some event. -/
theorem loopEnd_of_returns (hrun : Execution step (.start settings) history s)
    {failure : Option WorkerError} (h : s.LoopReturns m s' failure) :
    ∃ event, s.worker.LoopEnd event failure ∧ s'.worker = s.worker.endLoop failure ∧
      handed? (s, m) = s.worker.handed? event ∧ (m = .report true ↔ event = .reported true) := by
  obtain ⟨hs, hloop, hidle, hfailure⟩ := h
  rcases event_of_step hs with ⟨hsame, -⟩ | ⟨event, hw, hlines, hreport⟩
  · simp [hsame, hloop] at hidle
  rcases Worker.goesOn_or_ends (course_of_run hrun).2 (inMode_of_run hrun) hloop hw with
    ⟨hloop', -⟩ | ⟨failure', hend, hended⟩
  · simp [hloop'] at hidle
  · obtain rfl : failure' = failure := by rw [← hfailure, hended, Worker.failure?_endLoop]
    exact ⟨event, hend, hended, hlines, hreport⟩

/-- Whatever the worker's token and its probe answer, and whatever its generator does: at any time
the worker has handed over the lines of the iterations that it has completed, and behind them the
beginning of one more, or what its loop has ended with; the line that it hands over next goes on
with that.  It has completed no more iterations than it has to and observed one interrupt more at
most, so that no counter overflows.  When its loop returns, what is behind the completed iterations
is the last line after all of them, or else fewer were completed and it is a part of an iteration or
a missed one.  The loop returns well exactly if that last line was taken, and its errors name the
iteration that was not completed. -/
theorem trace_of_run (hrun : Execution step (.start settings) history s) :
    (s.worker.completed ≤ s.worker.observed ∧ s.worker.observed ≤ s.worker.completed + 1 ∧
      s.worker.completed ≤ settings.iterations.toNat ∧
      s.worker.completed < UInt32.size ∧ s.worker.observed + 1 < UInt64.size) ∧
    (∃ rest, linesHanded history = settings.mode.linesOf s.worker.completed ++ rest ∧
      (rest = [] ∨ settings.IsTail s.worker.completed rest) ∧
      ∀ line, s.worker.phase = .reporting line →
        settings.IsTail s.worker.completed (rest ++ [line])) ∧
    ∀ m s' failure, s.LoopReturns m s' failure →
      ∃ rest, linesHanded ((s, m) :: history) =
          settings.mode.linesOf s'.worker.completed ++ rest ∧
        settings.IsTail s'.worker.completed rest ∧
        (failure = none ↔ rest = [.done] ∧ m = .report true) ∧
        (∀ iteration, failure = some (.violation (.notInterrupted iteration)) →
          iteration = s'.worker.completed ∧ rest = WorkerLine.missed) ∧
        ∀ iteration, failure = some (.violation (.statusNotCleared iteration)) →
          iteration = s'.worker.completed := by
  obtain ⟨rfl, hc⟩ := course_of_run hrun
  have hm := inMode_of_run hrun
  have htraced := traced_of_run hrun
  refine ⟨?_, ?_, ?_⟩
  · obtain ⟨hcompleted, hlow, hhigh⟩ := hc.bounds
    have hsize := s.worker.settings.iterations.toNat_lt
    unfold Worker.iterations at hcompleted
    refine ⟨hlow, hhigh, hcompleted, ?_, ?_⟩
    · rw [UInt32.size]
      omega
    · rw [UInt64.size]
      omega
  · cases hloop : s.worker.isLooping with
    | true =>
      refine ⟨_, htraced.looping hloop, ?_, fun line => Worker.isTail_of_reporting hc hm⟩
      by_cases hline : ∃ line, s.worker.phase = .reporting line
      · obtain ⟨line, hw⟩ := hline
        exact (Worker.isTail_of_reporting hc hm hw).of_append
      · exact .inr (Worker.isTail_of_looping hc hm hloop fun line hw => hline ⟨line, hw⟩)
    | false =>
      obtain ⟨rest, hlines, hrest⟩ := htraced.idle hloop
      refine ⟨rest, hlines, hrest, fun line hw => ?_⟩
      simp [Worker.isLooping, hw] at hloop
  · intro m s' failure hreturns
    obtain ⟨event, hend, hended, hlines, hreport⟩ := loopEnd_of_returns hrun hreturns
    refine ⟨s.worker.linesGiven ++ (s.worker.handed? event).toList, ?_, ?_, ?_, ?_, ?_⟩
    · rw [linesHanded_cons, hlines, htraced.looping hreturns.2.1, hended,
        Worker.completed_endLoop, List.append_assoc]
    · rw [hended, Worker.completed_endLoop]
      exact hend.isTail hc hm
    · rw [hreport]
      exact hend.failure_eq_none_iff
    · rintro iteration rfl
      rw [hended, Worker.completed_endLoop]
      exact hend.of_notInterrupted hc
    · rintro iteration rfl
      rw [hended, Worker.completed_endLoop]
      exact hend.of_statusNotCleared hc

/-- An aggressive run of three iterations whose second sleep runs to its end. -/
theorem trace_of_run_missed :
    ∃ history s m s', Execution LocalRun.step
        (.start ⟨.aggressive, 3, .ofMillis 10, .ofMillis 1⟩) history s ∧
      s.LoopReturns m s' (some (.violation (.notInterrupted 1))) ∧
      linesHanded ((s, m) :: history) =
        [.loop, .sleep, .caught, .check, .loop, .sleep, .check] := by
  let worker : LocalMove := .advance .worker
  let generator : LocalMove := .advance .generator
  let line : LocalMove := .report true
  obtain ⟨history, s, hrun, s', hreturns⟩ : ∃ history s, Execution LocalRun.step
      (.start ⟨.aggressive, 3, .ofMillis 10, .ofMillis 1⟩) history s ∧
      ∃ s', s.LoopReturns (.report true) s' (some (.violation (.notInterrupted 1))) :=
    ⟨_, _, .of_replay .nil [worker, line, line, generator, worker, line, worker, line, line, line,
      worker, .expire .worker] rfl, _, rfl, rfl, rfl, rfl⟩
  obtain ⟨rest, hlines, -, -, hmissed, -⟩ := (trace_of_run hrun).2.2 _ _ _ hreturns
  obtain ⟨hcompleted, rfl⟩ := hmissed 1 rfl
  exact ⟨history, s, _, s', hrun, hreturns, by rw [hlines, ← hcompleted]; rfl⟩

end LocalRun

end InterruptStress
