import InterruptStress.Proofs.Target.Lifecycle
import InterruptStress.Proofs.Worker.Escape

/-!
# A forced exit unblocks its target

A command to exit has two effects, under two locks: the tracer is detached, and then the worker's
token is interrupted.  The main thread may be anywhere at that moment, and the local generator and
whoever holds the command channel go on.  From the second effect on the main thread is dismissed
(`Target.Dismissed`): a line or a start that it waits in fails, a sleep finds the interrupt, and
nothing that can happen to the target takes that back (`Target.dismissed_undergo`).  So it says no
more, wakes up at most once, is held up by nobody but its own generator's turns, and ends within
five turns of its own, its generator before it (`Target.unblocked_of_exit`).

That needs both effects and their order: a sleep that began before the detachment is ended by the
interrupt, and none begins after it, since the line in front of it fails.
-/

namespace InterruptStress

/-- What can happen to a target, whatever its controller does. -/
inductive Incident where
  | move (m : TargetMove)
  /-- The generator's thread cannot be started. -/
  | failStart (text : String)
  | send (command : ControlCommand)
  /-- The last sender of commands goes. -/
  | hangUp
  /-- The first event that waits is received. -/
  | receive
  /-- The receiver of events goes. -/
  | stopReceiving

/-- It is the main thread that moves. -/
def Incident.isMainTurn : Incident → Bool
  | .move .main => true
  | _ => false

namespace Target

/-- What an incident makes of a target, if it can happen. -/
def undergo (t : Target) : Incident → Option Target
  | .move m => t.step m
  | .failStart text =>
    match t.main with
    | .working => t.onRun (.failStart text)
    | _ => none
  | .send command =>
    if t.link.commands.sending then
      some { t with link := { t.link with commands := t.link.commands.offer command } }
    else none
  | .hangUp => some { t with link := { t.link with commands := t.link.commands.hangUp } }
  | .receive =>
    match t.link.events.receive with
    | (.item _, events) => some { t with link := { t.link with events } }
    | _ => none
  | .stopReceiving => some { t with link := { t.link with events := t.link.events.close } }

/-- The events that an incident queues. -/
def emitted (t : Target) (i : Incident) : List TargetEvent :=
  match t.undergo i with
  | some t' => t'.link.events.queue.drop t.link.events.queue.length
  | none => []

/-- How the worker's sleeps ended in a history. -/
def sleepEnds (history : List (Target × Incident)) : List SleepOutcome :=
  history.filterMap fun e => (e.1.undergo e.2).bind fun t => e.1.run.sleepEnd? t.run

/-- How many turns the main thread takes at most to end, once it has been dismissed. -/
def turnsToEnd (t : Target) : Nat :=
  match t.main with
  | .entering | .parkedAtStart => 1
  | .working | .parkedAtLine => t.run.worker.escapeTurns + 1
  | .ended _ => 0

variable {t t' : Target} {i : Incident} {m : TargetMove} {move : Option LocalMove} {code : Int32}
  {history : List (Target × Incident)}

theorem turnsToEnd_le (t : Target) : t.turnsToEnd ≤ 5 := by
  have hturns := t.run.worker.escapeTurns_le
  unfold turnsToEnd
  split <;> omega

theorem turnsToEnd_le_of_unmoved (hmain : t'.main = t.main)
    (hturns : t'.run.worker.escapeTurns ≤ t.run.worker.escapeTurns) :
    t'.turnsToEnd ≤ t.turnsToEnd := by
  unfold turnsToEnd
  rw [hmain]
  split
  · exact Nat.le_refl _
  · exact Nat.le_refl _
  · exact Nat.succ_le_succ hturns
  · exact Nat.succ_le_succ hturns
  · exact Nat.le_refl _

/-- A worker in a line takes its answer. -/
theorem isSome_endLine {line : WorkerLine} (hw : t.run.worker.phase = .reporting line)
    (accepted : Bool) : (t.endLine accepted).isSome = true := by
  cases accepted <;>
    simp [endLine, onRun, LocalRun.step, LocalRun.onWorker, Worker.step, hw]

/-! ## What an incident can be -/

/-- A move of the target, a generator that cannot be started, or something about the link. -/
theorem of_undergo (h : t.undergo i = some t') :
    (∃ m, i = .move m ∧ t.Transition m (t.localMove? m) t') ∨
      (∃ text run, i = .failStart text ∧ t.main = .working ∧
        t.run.Transition (.failStart text) run ∧ t' = { t with run }) ∨
      (∃ link, i.isMainTurn = false ∧ t' = { t with link } ∧ t.emitted i = []) := by
  have hemitted : t.emitted i = t'.link.events.queue.drop t.link.events.queue.length := by
    simp [emitted, h]
  cases i with
  | move m => exact .inl ⟨m, rfl, transition_of_step h⟩
  | failStart text =>
    simp only [undergo] at h
    split at h
    · next hmain =>
      obtain ⟨run, hs, rfl⟩ := of_onRun h
      exact .inr (.inl ⟨text, run, rfl, hmain, LocalRun.transition_of_step hs, rfl⟩)
    · cases h
  | send command =>
    simp only [undergo] at h
    split at h
    · obtain rfl := Option.some.inj h
      exact .inr (.inr ⟨_, rfl, rfl, hemitted.trans (List.drop_length ..)⟩)
    · cases h
  | hangUp =>
    obtain rfl := Option.some.inj h
    exact .inr (.inr ⟨_, rfl, rfl, hemitted.trans (List.drop_length ..)⟩)
  | receive =>
    simp only [undergo, Channel.receive] at h
    cases hq : t.link.events.queue with
    | nil => cases hgone : t.link.events.sending <;> simp [hq, hgone] at h
    | cons event rest =>
      obtain rfl : _ = t' := by simpa [hq] using h
      refine .inr (.inr ⟨_, rfl, rfl, hemitted.trans ?_⟩)
      rw [hq]
      exact List.drop_eq_nil_of_le (Nat.le_succ _)
  | stopReceiving =>
    obtain rfl := Option.some.inj h
    exact .inr (.inr ⟨_, rfl, rfl, hemitted.trans List.drop_nil⟩)

/-- A target's threads and tokens are of its own make, and its worker moves in the main thread's
turns only. -/
theorem genuine_of_transition (h : t.Transition m move t') {l : LocalMove} (hl : move = some l) :
    l.isGenuine = true ∧ (l.isWorkerTurn = true → m = .main) := by
  cases h with
  | step | pass | lose | refuse | goOn =>
    obtain rfl := Option.some.inj hl
    exact ⟨rfl, fun _ => rfl⟩
  | interrupt | interruptMain =>
    obtain rfl := Option.some.inj hl
    exact ⟨rfl, nofun⟩
  | goLocal _ _ _ hm =>
    obtain rfl := Option.some.inj hl
    rcases hm with ⟨rfl, -, rfl⟩ | ⟨rfl, rfl⟩ | ⟨thread, rfl, rfl⟩ | ⟨thread, rfl, rfl⟩
    · exact ⟨rfl, fun _ => rfl⟩
    · exact ⟨rfl, nofun⟩
    · exact ⟨rfl, nofun⟩
    · exact ⟨rfl, nofun⟩
  | _ => cases hl

/-- The same of the worker beside its generator. -/
theorem run_of_transition (h : t.Transition m move t') :
    t'.run = t.run ∨ ∃ l : LocalMove, l.isGenuine = true ∧
      (l.isWorkerTurn = true → m = .main) ∧ t.run.Transition l t'.run := by
  rcases run_transition h with ⟨-, hsame⟩ | ⟨l, hl, hs⟩
  · exact .inl hsame
  · obtain ⟨hgenuine, hturn⟩ := genuine_of_transition h hl
    exact .inr ⟨l, hgenuine, hturn, LocalRun.transition_of_step hs⟩

/-! ## What every reachable state has -/

/-- What every state of a target has, whatever its controller does. -/
structure Steady (t : Target) : Prop where
  standing : t.run.Standing
  unreleased : t.main = .entering ∨ t.main = .parkedAtStart → t.run.generator = none
  inLine : t.main = .parkedAtLine → ∃ line, t.run.worker.phase = .reporting line
  ended : ∀ exit, t.main = .ended exit →
    t.run.generator = none ∨ t.run.worker.result?.isSome = true
  /-- The command to exit has detached the tracer, and so woken whoever waited in it. -/
  exiting : ∀ code, t.agent = .exiting code → t.tracer.detached = true ∧ t.tracer.parked = false

theorem steady_launch (settings : WorkerSettings) : (launch settings).Steady where
  standing := LocalRun.standing_start settings
  unreleased _ := rfl
  inLine := nofun
  ended := nofun
  exiting := nofun

namespace Steady

/-- While the worker runs there is little to keep. -/
theorem of_working (hmain : t.main = .working) (hstanding : t.run.Standing)
    (hexiting : ∀ code, t.agent = .exiting code →
      t.tracer.detached = true ∧ t.tracer.parked = false) : t.Steady := by
  refine ⟨hstanding, ?_, ?_, ?_, hexiting⟩ <;> simp [hmain]

/-- What moves neither the main thread nor its worker. -/
theorem of_unmoved (h : t.Steady) (hmain : t'.main = t.main) (hrun : t'.run = t.run)
    (hexiting : ∀ code, t'.agent = .exiting code →
      t'.tracer.detached = true ∧ t'.tracer.parked = false) : t'.Steady := by
  refine ⟨?_, ?_, ?_, ?_, hexiting⟩
  · exact hrun ▸ h.standing
  · exact hmain ▸ hrun ▸ h.unreleased
  · exact hmain ▸ hrun ▸ h.inLine
  · exact hmain ▸ hrun ▸ h.ended

/-- A move of the worker beside its generator in which the main thread does not move. -/
theorem of_local (h : t.Steady) {l : LocalMove} {run : LocalRun} (hl : l.isGenuine = true)
    (hturn : l.isWorkerTurn = true → t.main = .working) (ht : t.run.Transition l run) :
    Steady { t with run } := by
  have hstanding := LocalRun.standing_transition h.standing ht hl
  by_cases hworking : t.main = .working
  · exact .of_working hworking hstanding h.exiting
  have hne (m : LocalMove) (hm : m.isWorkerTurn = true) : l ≠ m := by
    rintro rfl
    exact hworking (hturn hm)
  have hnone (hg : t.run.generator = none) : run.generator = none :=
    LocalRun.generator_of_none hg ht (hne _ rfl)
  refine ⟨hstanding, fun hmain => hnone (h.unreleased hmain), fun hmain => ?_, fun exit hmain => ?_,
    h.exiting⟩
  · obtain ⟨line, hw⟩ := h.inLine hmain
    exact ⟨line, LocalRun.worker_of_reporting hw ht (fun accepted => hne _ rfl) ▸ hw⟩
  · rcases h.ended exit hmain with hg | hreturned
    · exact .inl (hnone hg)
    · exact .inr (LocalRun.worker_of_returned hreturned ht ▸ hreturned)

end Steady

/-- Once the tracer has been detached for good, nobody waits in it again. -/
theorem loose_transition (h : t.tracer.detached = true ∧ t.tracer.parked = false)
    (ht : t.Transition m move t') : t'.tracer.detached = true ∧ t'.tracer.parked = false := by
  obtain ⟨hdetached, hparked⟩ := h
  cases ht with
  | waitForStart _ hattached | begin _ hattached | waitOn _ _ hattached | goOn _ _ _ hattached =>
    simp [hdetached] at hattached
  | suspend _ _ _ hattached | step _ _ _ _ hattached | pass _ _ _ _ hattached
  | lose _ _ _ _ _ hattached => simp [hdetached] at hattached
  | exit | abandon => exact ⟨rfl, rfl⟩
  | stir | resume => exact ⟨hdetached, rfl⟩
  | _ => exact ⟨hdetached, hparked⟩

theorem steady_transition (h : t.Steady) (ht : t.Transition m move t') : t'.Steady := by
  have hstanding : t'.run.Standing := by
    rcases run_of_transition ht with hsame | ⟨l, hl, -, hs⟩
    · exact hsame ▸ h.standing
    · exact LocalRun.standing_transition h.standing hs hl
  have hexiting : ∀ code, t'.agent = .exiting code →
      t'.tracer.detached = true ∧ t'.tracer.parked = false := by
    intro code hagent
    by_cases hbefore : t.agent = .exiting code
    · exact loose_transition (h.exiting code hbefore) ht
    · cases ht with
      | exit => exact ⟨rfl, rfl⟩
      | abandon | noticeExit | interruptMain | announce | closeCommands => cases hagent
      | _ => exact absurd hagent hbefore
  cases ht with
  | waitForStart hmain =>
    refine ⟨hstanding, fun _ => h.unreleased (of_isEntering hmain), ?_, ?_, hexiting⟩ <;> simp
  | begin | refuse | goOn => exact .of_working rfl hstanding hexiting
  | refuseStart hmain =>
    have hnone := h.unreleased (of_isEntering hmain)
    refine ⟨hstanding, ?_, ?_, fun _ _ => .inl hnone, hexiting⟩ <;> simp
  | suspend line hmain hw =>
    refine ⟨hstanding, ?_, fun _ => ⟨line, hw⟩, ?_, hexiting⟩ <;> simp
  | step _ _ hmain | pass _ _ hmain | lose _ _ _ hmain =>
    exact .of_working hmain hstanding hexiting
  | finish result _ hw =>
    have hreturned : t.run.worker.result?.isSome = true := by simp [Worker.result?, hw]
    refine ⟨hstanding, ?_, ?_, fun _ _ => .inr hreturned, hexiting⟩ <;> simp
  | goLocal _ move run hm hs =>
    refine h.of_local ?_ ?_ (LocalRun.transition_of_step hs)
    · rcases hm with ⟨-, -, rfl⟩ | ⟨-, rfl⟩ | ⟨_, -, rfl⟩ | ⟨_, -, rfl⟩ <;> rfl
    · rcases hm with ⟨-, hmain, -⟩ | ⟨-, rfl⟩ | ⟨_, -, rfl⟩ | ⟨_, -, rfl⟩
      · exact fun _ => hmain
      · simp [LocalMove.isWorkerTurn]
      · simp [LocalMove.isWorkerTurn]
      · simp [LocalMove.isWorkerTurn]
  | interrupt | interruptMain =>
    have hinterrupted : Steady { t with run := { t.run with token := t.run.token.interrupt } } :=
      h.of_local (l := .interrupt) rfl (by simp [LocalMove.isWorkerTurn]) .interrupt
    exact hinterrupted.of_unmoved rfl rfl hexiting
  | _ => exact h.of_unmoved rfl rfl hexiting

theorem steady_undergo (h : t.Steady) (hs : t.undergo i = some t') : t'.Steady := by
  rcases of_undergo hs with ⟨m, -, ht⟩ | ⟨text, run, -, hmain, ht, rfl⟩ | ⟨link, -, rfl, -⟩
  · exact steady_transition h ht
  · exact h.of_local (l := .failStart text) rfl nofun ht
  · exact h.of_unmoved rfl rfl h.exiting

theorem steady_of_run {settings : WorkerSettings}
    (hrun : Execution undergo (launch settings) history t) : t.Steady := by
  induction hrun with
  | nil => exact steady_launch settings
  | cons _ hs ih => exact steady_undergo ih hs

/-! ## After the exit -/

/-- A target whose main thread has been told to leave: no line of it is taken any more, its token
has been interrupted, and the agent has nothing but its farewell to say. -/
structure Dismissed (t : Target) : Prop where
  steady : t.Steady
  detached : t.tracer.detached = true
  woken : t.tracer.parked = false
  roused : t.run.Roused
  leaving : ∃ rest, t.agent = .ending rest ∧
    ∀ event, .announce event ∈ rest → event.isStep = false

/-- Both effects of a command to exit dismiss the main thread. -/
theorem Steady.dismissed (h : t.Steady) (hexit : t.agent = .exiting code) :
    ∃ t', t.step .farewell = some t' ∧ t'.Dismissed := by
  obtain ⟨hdetached, hwoken⟩ := h.exiting code hexit
  have hstep : t.step .farewell = some { t with
      run := { t.run with token := t.run.token.interrupt }
      agent := farewells [.death (exitedOnCommand code)] } := by
    simp [step, Target.farewell, hexit]
  refine ⟨_, hstep, steady_transition h (transition_of_step hstep), hdetached, hwoken,
    fun _ => rfl, _, rfl, ?_⟩
  intro event hmem
  have hmem : event = .death (exitedOnCommand code) ∨ event = .disconnected := by simpa using hmem
  rcases hmem with rfl | rfl <;> rfl

namespace Dismissed

/-- No line is taken any more. -/
theorem not_taken (h : t.Dismissed) (ht : t.Transition m move t') : move ≠ some (.report true) := by
  cases ht with
  | step _ _ _ _ hattached | pass _ _ _ _ hattached | goOn _ _ _ hattached =>
    simp [h.detached] at hattached
  | goLocal _ l _ hm =>
    rcases hm with ⟨-, -, rfl⟩ | ⟨-, rfl⟩ | ⟨_, -, rfl⟩ | ⟨_, -, rfl⟩ <;> simp
  | _ => simp

/-- The worker in a move of a dismissed target. -/
theorem run_transition (h : t.Dismissed) (ht : t.Transition m move t') :
    t'.run = t.run ∨ ∃ l : LocalMove, l.isGenuine = true ∧ l ≠ .report true ∧
      move = some l ∧ t.run.Transition l t'.run := by
  rcases Target.run_transition ht with ⟨-, hsame⟩ | ⟨l, hl, hs⟩
  · exact .inl hsame
  · refine .inr ⟨l, (genuine_of_transition ht hl).1, ?_, hl, LocalRun.transition_of_step hs⟩
    rintro rfl
    exact h.not_taken ht hl

theorem of_transition (h : t.Dismissed) (ht : t.Transition m move t') : t'.Dismissed := by
  obtain ⟨hdetached, hwoken⟩ := loose_transition ⟨h.detached, h.woken⟩ ht
  refine ⟨steady_transition h.steady ht, hdetached, hwoken, ?_, ?_⟩
  · rcases h.run_transition ht with hsame | ⟨l, hl, hline, -, hs⟩
    · exact hsame ▸ h.roused
    · exact LocalRun.roused_transition h.roused hs hline hl
  · obtain ⟨rest, hagent, hrest⟩ := h.leaving
    cases ht with
    | announce _ _ hending | closeCommands _ hending =>
      obtain rfl := AgentPhase.ending.inj (hagent.symm.trans hending)
      exact ⟨_, rfl, fun event hmem => hrest event (List.mem_cons_of_mem _ hmem)⟩
    | exit _ _ hserving | abandon hserving | noticeExit _ hserving | interruptMain _ hserving =>
      simp [hagent] at hserving
    | _ => exact ⟨rest, hagent, hrest⟩

/-- A dismissed target queues nothing but what is left of its farewell. -/
theorem said_of_transition (h : t.Dismissed) (ht : t.Transition m move t') :
    ∀ event ∈ t'.link.events.queue.drop t.link.events.queue.length, event.isStep = false := by
  intro event hmem
  obtain ⟨rest, hagent, hrest⟩ := h.leaving
  cases ht with
  | suspend _ _ _ hattached | step _ _ _ _ hattached => simp [h.detached] at hattached
  | announce event' rest' hending =>
    obtain rfl := AgentPhase.ending.inj (hagent.symm.trans hending)
    obtain rfl : event = event' := by
      cases hheard : t.link.events.receiving with
      | false => simp [Channel.offer, Channel.send, hheard] at hmem
      | true => simpa [Channel.offer, Channel.send, hheard] using hmem
    exact hrest _ List.mem_cons_self
  | _ => simp at hmem

/-- Each turn of the main thread is one of those that it has left. -/
theorem turns_of_transition (h : t.Dismissed) (ht : t.Transition m move t') :
    t'.turnsToEnd + (Incident.move m).isMainTurn.toNat ≤ t.turnsToEnd := by
  have hattached (hattached : t.tracer.detached = false) : False := by
    simp [h.detached] at hattached
  cases ht with
  | waitForStart _ hnot | begin _ hnot | suspend _ _ _ hnot | step _ _ _ _ hnot
  | pass _ _ _ _ hnot | lose _ _ _ _ _ hnot | waitOn _ _ hnot | goOn _ _ _ hnot =>
    exact (hattached hnot).elim
  | refuseStart hmain =>
    rcases of_isEntering hmain with hmain | hmain <;>
      simp [turnsToEnd, hmain, Incident.isMainTurn]
  | refuse line run hmain _ hs =>
    have hescape := LocalRun.escape_transition h.roused (LocalRun.transition_of_step hs) (by simp)
    have hturns : t.turnsToEnd = t.run.worker.escapeTurns + 1 := by
      rcases hmain with ⟨hmain, -⟩ | ⟨hmain, -⟩ <;> simp [turnsToEnd, hmain]
    rw [hturns]
    exact Nat.succ_le_succ hescape
  | finish result hmain hw => simp [turnsToEnd, hmain, Incident.isMainTurn]
  | goLocal _ l run hm hs =>
    have hescape (hline : l ≠ .report true) :=
      LocalRun.escape_transition h.roused (LocalRun.transition_of_step hs) hline
    rcases hm with ⟨rfl, hmain, rfl⟩ | ⟨rfl, rfl⟩ | ⟨thread, rfl, rfl⟩ | ⟨thread, rfl, rfl⟩
    · simp only [turnsToEnd, hmain]
      exact Nat.succ_le_succ (hescape (by simp))
    · exact turnsToEnd_le_of_unmoved rfl (hescape (by simp))
    · exact turnsToEnd_le_of_unmoved rfl (hescape (by simp))
    · exact turnsToEnd_le_of_unmoved rfl (hescape (by simp))
  | _ => exact turnsToEnd_le_of_unmoved rfl (Nat.le_refl _)

/-- Until the main thread has ended, it can go on, or its generator can. -/
theorem canGoOn (h : t.Dismissed) (hrunning : ∀ exit, t.main ≠ .ended exit) :
    (t.step .main).isSome = true ∨ (t.step .generator).isSome = true := by
  cases hmain : t.main with
  | entering => exact .inl (by simp [step, moveMain, hmain])
  | parkedAtStart => exact .inl (by simp [step, moveMain, hmain, h.woken])
  | parkedAtLine =>
    obtain ⟨line, hw⟩ := h.steady.inLine hmain
    refine .inl ?_
    simp only [step, moveMain, hmain, h.woken, Bool.false_eq_true, if_false,
      Tracer.look_of_detached h.detached]
    exact isSome_endLine hw false
  | working =>
    by_cases hline : ∃ line, t.run.worker.phase = .reporting line
    · obtain ⟨line, hw⟩ := hline
      refine .inl ?_
      simp only [step, moveMain, hmain, hw, reportLine, Tracer.line, h.detached, if_true]
      exact isSome_endLine hw false
    have hnot (line : WorkerLine) : t.run.worker.phase ≠ .reporting line := fun hw =>
      hline ⟨line, hw⟩
    cases hresult : t.run.worker.result? with
    | some result =>
      exact .inl (by simp [step, moveMain, hmain, Worker.phase_of_result? hresult])
    | none =>
      obtain ⟨thread, hgo⟩ := h.steady.standing.canGoOn h.roused hnot hresult
      cases thread with
      | worker =>
        have hstep : t.step .main = t.onRun (.advance .worker) := by
          simp only [step, moveMain, hmain]
          split
          · next line hw => exact absurd hw (hnot line)
          · next result hw => simp [Worker.result?, hw] at hresult
          · rfl
        exact .inl (by simpa [hstep, onRun] using hgo)
      | generator => exact .inr (by simpa [step, onRun] using hgo)
  | ended exit => exact absurd hmain (hrunning exit)

/-- A main thread that has ended has left no generator behind. -/
theorem generator_of_ended (h : t.Dismissed) {exit : TargetExit} (hended : t.main = .ended exit)
    {g : Generator} (hg : t.run.generator = some g) : g.result?.isSome = true := by
  rcases h.steady.ended exit hended with hnone | hreturned
  · cases hnone.symm.trans hg
  · exact h.steady.standing.generator_of_returned hreturned hg

end Dismissed

/-- The main thread's sleep goes on, or not, or ends with an interrupt. -/
def SleepsOn (t t' : Target) : Prop :=
  t.run.sleepEnd? t'.run = none ∧ t'.run.worker.isSleeping = t.run.worker.isSleeping ∨
    t.run.sleepEnd? t'.run = some .interrupted ∧ t.run.worker.isSleeping = true ∧
      t'.run.worker.isSleeping = false

theorem Dismissed.sleepsOn (h : t.Dismissed) (ht : t.Transition m move t') : t.SleepsOn t' := by
  rcases h.run_transition ht with hsame | ⟨l, hl, hline, -, hs⟩
  · exact .inl ⟨LocalRun.sleepEnd?_of_unmoved (by rw [hsame]), by rw [hsame]⟩
  · exact LocalRun.sleepEnd?_transition h.roused hs hline hl

/-- Nothing that can happen to a dismissed target takes that back. -/
theorem dismissed_undergo (h : t.Dismissed) (hs : t.undergo i = some t') :
    t'.Dismissed ∧ (∀ event ∈ t.emitted i, event.isStep = false) ∧
      t'.turnsToEnd + i.isMainTurn.toNat ≤ t.turnsToEnd ∧ t.SleepsOn t' := by
  have hemitted : t.emitted i = t'.link.events.queue.drop t.link.events.queue.length := by
    simp [emitted, hs]
  rcases of_undergo hs with ⟨m, rfl, ht⟩ | ⟨text, run, rfl, -, ht, rfl⟩ | ⟨link, hi, rfl, hnothing⟩
  · refine ⟨h.of_transition ht, ?_, h.turns_of_transition ht, h.sleepsOn ht⟩
    rw [hemitted]
    exact h.said_of_transition ht
  · have hsteady : Steady { t with run } := h.steady.of_local (l := .failStart text) rfl nofun ht
    refine ⟨⟨hsteady, h.detached, h.woken, ?_, h.leaving⟩, ?_, ?_, ?_⟩
    · exact LocalRun.roused_transition h.roused ht (by simp) rfl
    · simp [hemitted]
    · exact turnsToEnd_le_of_unmoved rfl (LocalRun.escape_transition h.roused ht (by simp))
    · exact LocalRun.sleepEnd?_transition h.roused ht (by simp) rfl
  · refine ⟨⟨h.steady.of_unmoved rfl rfl h.steady.exiting, h.detached, h.woken, h.roused,
      h.leaving⟩, ?_, ?_, .inl ⟨LocalRun.sleepEnd?_of_unmoved rfl, rfl⟩⟩
    · simp [hnothing]
    · rw [hi]
      exact turnsToEnd_le_of_unmoved rfl (Nat.le_refl _)

/-- What is true after a forced exit, whatever has happened since. -/
structure Unblocked (later : List (Target × Incident)) (t : Target) : Prop where
  /-- The worker has emitted no step. -/
  silent : ∀ e ∈ later, ∀ event ∈ e.1.emitted e.2, event.isStep = false
  /-- At most one sleep has ended, and an interrupt has ended it. -/
  slept : sleepEnds later = [] ∨ sleepEnds later = [.interrupted]
  /-- The main thread has taken few turns. -/
  turns : later.countP (fun e => e.2.isMainTurn) ≤ 5
  /-- Until the main thread has ended, it can go on, or its generator can; no sleep has to run out
  of time for that. -/
  unhindered : (∀ exit, t.main ≠ .ended exit) →
    (t.step .main).isSome = true ∨ (t.step .generator).isSome = true
  /-- A main thread that has ended has left no generator behind. -/
  joined : ∀ exit g, t.main = .ended exit → t.run.generator = some g → g.result?.isSome = true

theorem sleepEnds_cons (hs : t.undergo i = some t') :
    sleepEnds ((t, i) :: history) = (t.run.sleepEnd? t'.run).toList ++ sleepEnds history := by
  unfold sleepEnds
  rw [List.filterMap_cons, hs, Option.bind_some]
  cases t.run.sleepEnd? t'.run <;> rfl

/-- Whatever happens after a dismissal. -/
theorem unblocked_of_dismissed (h : t.Dismissed) {later : List (Target × Incident)}
    (hrun : Execution undergo t later t') :
    t'.Dismissed ∧ (∀ e ∈ later, ∀ event ∈ e.1.emitted e.2, event.isStep = false) ∧
      t'.turnsToEnd + later.countP (fun e => e.2.isMainTurn) ≤ t.turnsToEnd ∧
      (sleepEnds later = [] ∨
        sleepEnds later = [.interrupted] ∧ t'.run.worker.isSleeping = false) := by
  induction hrun with
  | nil => exact ⟨h, by simp, Nat.le_refl _, .inl rfl⟩
  | cons _ hs ih =>
    obtain ⟨hbefore, hsilent, hturns, hslept⟩ := ih
    obtain ⟨hafter, hsaid, hturn, hsleep⟩ := dismissed_undergo hbefore hs
    refine ⟨hafter, fun e hmem => ?_, ?_, ?_⟩
    · rcases List.mem_cons.mp hmem with rfl | hmem
      · exact hsaid
      · exact hsilent e hmem
    · rw [Execution.countP_history_cons]
      omega
    · rw [sleepEnds_cons hs]
      rcases hsleep with ⟨hnone, hsame⟩ | ⟨hcaught, hsleeping, hawake⟩
      · rw [hnone, hsame]
        exact hslept
      · -- a sleep that ends now is the first to end
        rcases hslept with hnone | ⟨-, hawake'⟩
        · exact .inr ⟨by simp [hcaught, hnone], hawake⟩
        · cases hawake'.symm.trans hsleeping

/-- Whatever the mode, the number of iterations and the commands before, and wherever the main
thread and its generator are when the agent applies a command to exit: once both its effects have
been had, every continuation leaves the main thread unblocked. -/
theorem unblocked_of_exit {settings : WorkerSettings}
    (hrun : Execution undergo (launch settings) history t) (hexit : t.agent = .exiting code) :
    ∃ t₁, t.step .farewell = some t₁ ∧
      ∀ later t', Execution undergo t₁ later t' → t'.Unblocked later := by
  obtain ⟨t₁, hstep, hdismissed⟩ := (steady_of_run hrun).dismissed hexit
  refine ⟨t₁, hstep, fun later t' hlater => ?_⟩
  obtain ⟨h, hsilent, hturns, hslept⟩ := unblocked_of_dismissed hdismissed hlater
  have hfew := t₁.turnsToEnd_le
  exact ⟨hsilent, hslept.imp_right And.left, by omega, h.canGoOn,
    fun _ _ hended hg => h.generator_of_ended hended hg⟩

/-- A worker asleep in precise mode, its generator about to take the rendezvous: the exit ends the
sleep, and the worker stops its generator on the way out. -/
theorem unblocked_of_exit_asleep :
    ∃ history t t₁ later t',
      Execution undergo (launch ⟨.precise, 1, .ofMillis 10, .ofMillis 1⟩) history t ∧
      t.agent = .exiting 7 ∧ t.run.worker.phase = .asleep ∧ t.step .farewell = some t₁ ∧
      Execution undergo t₁ later t' ∧ t'.Unblocked later ∧ sleepEnds later = [.interrupted] ∧
      t'.main = .ended (exitFor (.error .detached)) := by
  let main : Incident := .move .main
  let generator : Incident := .move .generator
  let apply : Incident := .move .applyCommand
  have hrun := Execution.of_replay (.nil : Execution undergo
      (launch ⟨.precise, 1, .ofMillis 10, .ofMillis 1⟩) [] _)
    [.send .resume, .send (.exit 7), apply, main, main, main, main, main, apply] rfl
  obtain ⟨t₁, hstep, hlater⟩ := unblocked_of_exit hrun rfl
  have hstart : Execution undergo t₁ [] t₁ := .nil
  obtain rfl := Option.some.inj hstep
  have hrest := Execution.of_replay hstart
    [main, main, main, generator, generator, generator, main, main] rfl
  exact ⟨_, _, _, _, _, hrun, rfl, rfl, rfl, hrest, hlater _ _ hrest, rfl, rfl⟩

end Target

end InterruptStress
