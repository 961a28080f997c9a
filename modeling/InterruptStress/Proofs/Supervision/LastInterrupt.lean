import InterruptStress.Proofs.Supervision.Injected

/-!
# The last interrupt

A controller marks its reference to the target's main thread as dead when it learns of the thread's
death, and again when it leaves (`Injection.isMarking`).  From then on no check succeeds any more
(`Injection.Dead`).  The generator may have made its check before, so one more interrupt may still be
accepted; after that, whatever happens, each turn brings the generator nearer to its end, and only
its own pauses have to run out of time for that (`Injection.Spent`).
-/

namespace InterruptStress

/-! ## How far it is to the end -/

/-- How many interrupts can still be accepted although the reference is dead: the one whose check
was made before. -/
def SignalStage.allowance : SignalStage → Nat
  | .cleared => 1
  | _ => 0

theorem SignalStage.allowance_le (stage : SignalStage) : stage.allowance ≤ 1 := by
  cases stage <;> simp [allowance]

/-- How many turns a generator that has got so far takes at most to end, once its reference is
dead. -/
@[simp] def SignalStage.turnsLeft : SignalStage → Nat
  | .unchecked => 2
  | .cleared => 6
  | .answered (.ok ()) => 5
  | .answered (.error _) => 1

theorem SignalStage.turnsLeft_le (stage : SignalStage) : stage.turnsLeft ≤ 6 := by
  unfold turnsLeft
  split <;> omega

/-- How many turns a generator takes at most to end, once its reference is dead; whoever disturbs
its pause makes it take one more. -/
def Generator.lastTurns (g : Generator) (stage : SignalStage) (stop : Token) : Nat :=
  match g.phase with
  | .sending => stage.turnsLeft
  | .pausing => 4
  | .asleep => if stop.isWaiting LocalRun.owner then 3 else 4
  | _ => 0

theorem Generator.lastTurns_le (g : Generator) (stage : SignalStage) (stop : Token) :
    g.lastTurns stage stop ≤ 6 := by
  have hstage := stage.turnsLeft_le
  unfold lastTurns
  split
  · exact hstage
  · omega
  · split <;> omega
  · omega

theorem Generator.lastTurns_of_finished {g : Generator} (h : g.result?.isSome = true)
    (stage : SignalStage) (stop : Token) : g.lastTurns stage stop = 0 := by
  unfold result? at h
  unfold lastTurns
  cases hphase : g.phase <;> simp [hphase] at h ⊢

namespace Injection

variable {s s' : Injection} {m : InjectionMove} {session : Session} {others : List Session}
  {g g' : Generator} {started count : Nat} {c : Controller} {link : Link}
  {history : List (Injection × InjectionMove)}

/-- How many turns the generator of the latest start takes at most to end. -/
def turnsLeft (s : Injection) : Nat :=
  match s.generator? with
  | none => 0
  | some g => g.lastTurns s.stage s.stop

theorem turnsLeft_of (hg : s.generator? = some g) : s.turnsLeft = g.lastTurns s.stage s.stop := by
  rw [turnsLeft, hg]

theorem turnsLeft_le (s : Injection) : s.turnsLeft ≤ 6 := by
  unfold turnsLeft
  split
  · omega
  · exact Generator.lastTurns_le ..

/-! ## The mark -/

/-- The move marks the main thread as dead: the controller learns of its death, or leaves. -/
def isMarking (s : Injection) : InjectionMove → Bool
  | .controller (.receive _) =>
    match s.controller.phase, s.link.events.queue with
    | .listening, .threadDeath thread :: _ => s.controller.sessions.head?.any (·.ref.id = thread)
    | _, _ => false
  | .controller .act => s.controller.phase = .ending
  | _ => false

theorem of_isMarking (h : s.isMarking m = true) :
    (∃ writing thread rest, m = .controller (.receive writing) ∧
      s.controller.phase = .listening ∧ s.link.events.queue = .threadDeath thread :: rest ∧
      s.controller.sessions.head?.any (·.ref.id = thread) = true) ∨
    m = .controller .act ∧ s.controller.phase = .ending := by
  unfold isMarking at h
  split at h
  · next writing =>
    split at h
    · next thread rest hphase hq => exact .inl ⟨writing, thread, rest, rfl, hphase, hq, h⟩
    · cases h
  · exact .inr ⟨rfl, of_decide_eq_true h⟩
  · cases h

/-- The main thread is known to be dead, and no other start follows. -/
structure Dead (s : Injection) : Prop where
  refs : ∀ session ∈ s.controller.sessions, session.ref.alive = false
  acts : s.controller.phase.acts.count .startGenerator = 0
  last : s.controller.phase.isLeaving = true ∨ s.controller.sessions ≠ []

/-- A controller has marked every reference it has. -/
theorem Sound.refs_markDead (h : s.Sound started count) :
    ∀ session ∈ s.controller.markDead.sessions, session.ref.alive = false := by
  intro session hmem
  simp only [Controller.markDead, Controller.modifyLatest] at hmem
  cases hsessions : s.controller.sessions with
  | nil => simp [hsessions] at hmem
  | cons latest others =>
    obtain rfl : session = { latest with ref := latest.ref.markDead } := by
      simpa [h.sessions_eq hsessions] using hmem
    rfl

theorem markDead_ne_nil : c.markDead.sessions ≠ [] ↔ c.sessions ≠ [] := by
  simp [Controller.markDead, Controller.modifyLatest]

theorem generator?_markDead (c : Controller) :
    (c.markDead.sessions.head?.bind (·.generator)) = c.sessions.head?.bind (·.generator) := by
  simp only [Controller.markDead, Controller.modifyLatest]
  cases c.sessions <;> rfl

/-- A controller that does nothing to its session, or marks its reference again. -/
theorem Dead.frame (hdead : s.Dead) (h : s.Sound started count)
    (hsessions : c.sessions = s.controller.sessions ∨
      c.sessions = s.controller.markDead.sessions)
    (hacts : c.phase.acts.count .startGenerator = 0)
    (hphase : s.controller.phase.isLeaving = true → c.phase.isLeaving = true) :
    Dead { s with controller := c, link } ∧
      generator? { s with controller := c, link } = s.generator? := by
  have hlast := hdead.last.imp_left hphase
  rcases hsessions with hsame | hdying
  · refine ⟨⟨?_, hacts, ?_⟩, ?_⟩
    · simpa only [hsame] using hdead.refs
    · simpa only [hsame] using hlast
    · simp only [generator?, hsame]
  · refine ⟨⟨?_, hacts, ?_⟩, ?_⟩
    · simpa only [hdying] using h.refs_markDead
    · simpa only [hdying, markDead_ne_nil] using hlast
    · simp only [generator?, hdying, generator?_markDead]

theorem dead_controller {m : ControllerMove} (hdead : s.Dead) (h : s.Sound started count)
    (hone : started ≤ 1) (hm : m.isGenerators = false)
    (ht : s.controller.Transition s.link m c link) :
    Dead { s with controller := c, link } ∧
      generator? { s with controller := c, link } = s.generator? := by
  cases ht with
  | take writing event rest hphase hq =>
    cases hevent : event.isStart with
    | false =>
      obtain ⟨hcount, -, hsessions⟩ := Controller.handle_of_not_start { s.controller with
        log := s.controller.log.record event writing } hevent hphase
      exact hdead.frame h hsessions hcount (by simp [hphase, ControllerPhase.isLeaving])
    | true =>
      -- there has been a start already
      have hfresh := h.fresh
      rw [hq, List.countP_cons_of_pos hevent] at hfresh
      rcases hdead.last with hleaving | hsessions
      · simp [hphase, ControllerPhase.isLeaving] at hleaving
      · have hlength := List.length_pos_iff.mpr hsessions
        omega
  | takeLast writing event _ hphase =>
    refine hdead.frame h (.inl ?_) ?_ (by simp [hphase, ControllerPhase.isLeaving])
    · cases event <;> rfl
    · cases event <;> simp [Controller.drain, hphase, ControllerPhase.acts]
  | send command rest hphase =>
    refine hdead.frame h (.inl rfl) ?_ (by simp [hphase, ControllerPhase.isLeaving])
    have hacts := hdead.acts
    rw [hphase] at hacts
    rw [Controller.acts_acting, ← hacts]
    exact (List.count_cons_of_ne (by simp)).symm
  | startGenerator rest hphase =>
    have hacts := hdead.acts
    rw [hphase] at hacts
    simp [ControllerPhase.acts] at hacts
  | leave => exact hdead.frame h (.inr rfl) rfl fun _ => rfl
  | takeNone | finish => exact hdead.frame h (.inl rfl) rfl fun _ => rfl
  | giveUp => exact hdead.frame h (.inl rfl) rfl fun _ => rfl
  | force hphase | takeVerdict _ hphase =>
    exact hdead.frame h (.inl rfl) rfl (by simp [hphase, ControllerPhase.isLeaving])
  | beginWatch | look | bark => exact hdead.frame h (.inl rfl) hdead.acts id
  | signal | missSignal => cases hm
  | pause _ _ _ _ _ _ hpause => rcases hpause with ⟨rfl, -⟩ | ⟨rfl, -⟩ <;> cases hm

/-- Either way of marking leaves the main thread dead. -/
theorem Sound.dead (h : s.Sound started count) (hmarking : s.isMarking m = true)
    (ht : s.Transition m s') : s'.Dead := by
  rcases of_isMarking hmarking with ⟨writing, thread, rest, rfl, hphase, hq, hknown⟩ |
      ⟨rfl, hphase⟩
  · cases ht with
    | controller _ c link _ ht =>
      cases ht with
      | take _ event rest' _ hq' =>
        obtain ⟨rfl, rfl⟩ := List.cons.inj (hq'.symm.trans hq)
        have hsome : s.controller.sessions ≠ [] := by
          intro hnone
          simp [hnone] at hknown
        simp only [Controller.handle, hknown, if_true]
        refine ⟨h.refs_markDead, ?_, .inr (markDead_ne_nil.mpr hsome)⟩
        simp [Controller.markDead, Controller.modifyLatest, hphase, ControllerPhase.acts]
      | takeLast _ _ _ hphase' => cases hphase.symm.trans hphase'
      | takeNone _ _ hq' => cases hq.symm.trans hq'
      | pause _ _ _ _ _ _ hpause => rcases hpause with ⟨hm, -⟩ | ⟨hm, -⟩ <;> cases hm
    | turn _ _ _ _ _ _ _ ht => cases ht
  · cases ht with
    | controller _ c link _ ht =>
      cases ht with
      | leave => exact ⟨h.refs_markDead, rfl, .inl rfl⟩
      | send _ _ hphase' | startGenerator _ hphase' | force hphase' | finish hphase' =>
        cases hphase.symm.trans hphase'
      | pause _ _ _ _ _ _ hpause => rcases hpause with ⟨hm, -⟩ | ⟨hm, -⟩ <;> cases hm
    | turn _ _ _ _ _ _ _ ht => cases ht

/-- A generator that goes on, whatever its reference, is as dead as before. -/
theorem Dead.withGenerator (hdead : s.Dead)
    (hsessions : s.controller.sessions = session :: others) (g' : Generator) {stop : Token}
    {stage : SignalStage} : Dead ({ s with stop, stage }.withGenerator g') := by
  refine ⟨?_, hdead.acts, .inr ?_⟩
  · have hrefs := hdead.refs
    simpa [Injection.withGenerator, Controller.modifyLatest, hsessions] using hrefs
  · simp [Injection.withGenerator, Controller.modifyLatest, hsessions]

theorem generator?_of (hsessions : s.controller.sessions = session :: others)
    (hg : session.generator = some g) : s.generator? = some g := by
  simp [generator?, hsessions, hg]

theorem generator?_withGenerator (hsessions : s.controller.sessions = session :: others) :
    (s.withGenerator g').generator? = some g' := by
  simp [generator?, Injection.withGenerator, Controller.modifyLatest, hsessions]

theorem dead_turn (hdead : s.Dead) (h : s.Sound started count)
    (hsessions : s.controller.sessions = session :: others) (hg : session.generator = some g)
    (ht : s.Turn session.ref g m s') :
    s'.Dead ∧ s'.stage.allowance + s.interruptsTo s' ≤ s.stage.allowance ∧
      s'.turnsLeft + m.isTurn.toNat ≤ s.turnsLeft + m.isStir.toNat := by
  have hmem : session ∈ s.controller.sessions := hsessions ▸ .head _
  have hremote := (h.remote session hmem g hg).1
  have hbefore := generator?_of hsessions hg
  rw [turnsLeft_of hbefore]
  -- only the stage of the signal changes, or what the generator's own token knows
  have hstays {stage : SignalStage} {stop : Token} {link : Link} :
      Dead { s with stage, stop, link } ∧
        turnsLeft { s with stage, stop, link } = g.lastTurns stage stop :=
    ⟨⟨hdead.refs, hdead.acts, hdead.last⟩, turnsLeft_of hbefore⟩
  -- the generator goes on
  have hgoes {g' : Generator} {stage : SignalStage} {stop : Token} :
      Dead ({ s with stage, stop }.withGenerator g') ∧
        turnsLeft ({ s with stage, stop }.withGenerator g') = g'.lastTurns stage stop :=
    ⟨hdead.withGenerator hsessions g', turnsLeft_of
      (generator?_withGenerator (s := { s with stage, stop }) hsessions)⟩
  have hquiet (hqueue : s'.link.commands.queue = s.link.commands.queue)
      (hallowance : s'.stage.allowance ≤ s.stage.allowance) :
      s'.stage.allowance + s.interruptsTo s' ≤ s.stage.allowance := by
    rw [interruptsTo_of_queue hqueue]
    exact hallowance
  cases ht with
  | check _ _ halive => cases (hdead.refs session hmem).symm.trans halive
  | refuse hphase hstage =>
    refine ⟨hstays.1, hquiet rfl (Nat.zero_le _), ?_⟩
    rw [hstays.2]
    simp [Generator.lastTurns, hphase, hstage]
  | send hphase hstage =>
    refine ⟨hstays.1, ?_, ?_⟩
    · simp [interruptsTo, queuedTo, ControlCommand.isInterrupt, SignalStage.allowance, hstage]
    · rw [hstays.2]
      simp [Generator.lastTurns, hphase, hstage]
  | miss hphase hstage =>
    refine ⟨hstays.1, hquiet rfl (Nat.zero_le _), ?_⟩
    rw [hstays.2]
    simp [Generator.lastTurns, hphase, hstage]
  | conclude result g' _ hstage hs =>
    refine ⟨hgoes.1, hquiet rfl (Nat.zero_le _), ?_⟩
    rw [hgoes.2, hstage]
    cases Generator.remoteStep_of_step hremote hs (h.harmless hstage) with
    | send hphase hafter => simp [Generator.lastTurns, hphase, hafter]
    | quit e hphase hafter =>
      rw [Generator.lastTurns_of_finished hafter]
      simp [Generator.lastTurns, hphase]
  | doze g' stop _ hs _ hwaits =>
    refine ⟨hgoes.1, hquiet rfl (Nat.le_refl _), ?_⟩
    rw [hgoes.2]
    cases Generator.remoteStep_of_step hremote hs rfl with
    | doze hphase hafter => simp [Generator.lastTurns, hphase, hafter, hwaits]
  | wake g' stop hphase hs =>
    refine ⟨hgoes.1, hquiet rfl (Nat.le_refl _), ?_⟩
    have hstage : s.stage = .unchecked := by
      refine h.unchecked hsessions hg ?_
      rcases hphase with hphase | hphase <;> simp [hphase]
    rw [hgoes.2, hstage]
    cases Generator.remoteStep_of_step hremote hs rfl with
    | wake hphase hafter =>
      have hpaused : 3 ≤ g.lastTurns .unchecked s.stop := by
        unfold Generator.lastTurns
        rcases hphase with hphase | hphase
        · simp [hphase]
        · simp only [hphase]
          split <;> omega
      simpa [Generator.lastTurns, hafter] using hpaused
  | sleepOn stop hphase hstirred _ hwaits =>
    refine ⟨hstays.1, hquiet rfl (Nat.le_refl _), ?_⟩
    rw [hstays.2]
    simp [Generator.lastTurns, hphase, hstirred, hwaits]
  | stir hphase =>
    refine ⟨hstays.1, hquiet rfl (Nat.le_refl _), ?_⟩
    rw [hstays.2]
    simp only [Generator.lastTurns, hphase]
    show _ + 0 ≤ _ + 1
    split <;> split <;> omega

theorem dead_transition (hdead : s.Dead) (h : s.Sound started count) (hone : started ≤ 1)
    (ht : s.Transition m s') :
    s'.Dead ∧ s'.stage.allowance + s.interruptsTo s' ≤ s.stage.allowance ∧
      s'.turnsLeft + m.isTurn.toNat ≤ s.turnsLeft + m.isStir.toNat := by
  have hlink {link : Link}
      (hqueued : link.commands.queue.drop s.link.commands.queue.length = []) :
      Dead { s with link } ∧
        s.stage.allowance + s.interruptsTo { s with link } ≤ s.stage.allowance ∧
          turnsLeft { s with link } ≤ s.turnsLeft :=
    ⟨⟨hdead.refs, hdead.acts, hdead.last⟩, by simp [interruptsTo, queuedTo, hqueued], Nat.le_refl _⟩
  cases ht with
  | controller m c link hm ht =>
    obtain ⟨hstill, hsame⟩ := dead_controller hdead h hone hm ht
    refine ⟨hstill, ?_, ?_⟩
    · exact Nat.le_of_eq (by rw [interruptsTo_controller h hm ht]; rfl)
    · exact Nat.le_of_eq (by simp only [turnsLeft, hsame]; rfl)
  | say | fallSilent => exact hlink (List.drop_length ..)
  | takeCommand command rest hq =>
    refine hlink ?_
    rw [hq]
    exact List.drop_eq_nil_of_le (Nat.le_succ _)
  | close => exact hlink List.drop_nil
  | turn _ _ session others g hsessions hg ht => exact dead_turn hdead h hsessions hg ht

/-- Whatever happens after the main thread was marked as dead. -/
theorem dead_of_run {later : List (Injection × InjectionMove)} (hdead : s.Dead)
    (h : s.Sound started count) (hrun : Execution step s later s')
    (hone : started + starts later ≤ 1) :
    s'.Dead ∧ s'.Sound (started + starts later) (count + accepted later) ∧
      s'.stage.allowance + accepted later ≤ s.stage.allowance ∧
      s'.turnsLeft + later.countP (fun e => e.2.isTurn) ≤
        s.turnsLeft + later.countP (fun e => e.2.isStir) := by
  induction hrun with
  | nil => exact ⟨hdead, h, Nat.le_refl _, Nat.le_refl _⟩
  | @cons later s₁ s₂ m _ hs ih =>
    have hstarts : starts ((s₁, m) :: later) = starts later + m.isStart.toNat :=
      Execution.countP_history_cons InjectionMove.isStart s₁ m later
    rw [hstarts] at hone
    obtain ⟨hbefore, hsound, hallowance, hturns⟩ := ih (by omega)
    have ht := transition_of_step hsound.calm hs
    obtain ⟨hafter, hallowed, hturn⟩ := dead_transition hbefore hsound (by omega) ht
    have hnext := sound_transition hsound (by omega) ht
    refine ⟨hafter, ?_, ?_, ?_⟩
    · rw [hstarts, accepted_cons hs, ← Nat.add_assoc, ← Nat.add_assoc]
      exact hnext
    · rw [accepted_cons hs]
      omega
    · rw [Execution.countP_history_cons, Execution.countP_history_cons]
      omega

/-! ## Whatever happens after the mark -/

/-- What is true after the main thread was marked as dead, whatever has happened since. -/
structure Spent (later : List (Injection × InjectionMove)) (s : Injection) : Prop where
  /-- At most one more interrupt has been accepted. -/
  few : accepted later ≤ 1
  /-- The generator has taken few turns, but for those that a disturbed pause has cost. -/
  turns : later.countP (fun e => e.2.isTurn) ≤ 6 + later.countP (fun e => e.2.isStir)
  /-- Until the generator has finished, it can go on, or its pause can run out of time. -/
  unhindered : ∀ g, s.generator? = some g → g.result? = none →
    (s.step .advance).isSome = true ∨ (s.step .expire).isSome = true
  /-- A controller that waits for a generator that has finished can finish too. -/
  joins : s.controller.phase = .joining → (∀ g, s.generator? = some g → g.result?.isSome = true) →
    ∃ s₁, s.step (.controller .act) = some s₁ ∧ s₁.controller.phase = .finished

/-- In remote mode and with one start, whatever else the target says and whenever it takes
commands or closes their channel: the generator counts exactly what the channel accepts and ends
well, and after its reference was marked dead, at most one more interrupt is accepted and nothing
but its own pauses keeps it from ending. -/
theorem injected_of_run {settings : ControllerSettings} (hmode : settings.mode = .remote)
    (hrun : Execution step (launch settings) history s) (hone : starts history ≤ 1) :
    s.Accounted history ∧
      ∀ m s₁, s.isMarking m = true → s.step m = some s₁ →
        ∀ later s', Execution step s₁ later s' → starts history + starts later ≤ 1 →
          s'.Spent later := by
  have hsound := sound_of_run hmode hrun hone
  refine ⟨hsound.accounted, fun m s₁ hmarking hs later s' hlater hstarts => ?_⟩
  have ht := transition_of_step hsound.calm hs
  have hquiet : m.isStart = false := by
    rcases of_isMarking hmarking with ⟨_, _, _, rfl, -⟩ | ⟨rfl, -⟩ <;> rfl
  have hnext := sound_transition hsound hone ht
  rw [hquiet] at hnext
  obtain ⟨-, hafter, hallowance, hturns⟩ :=
    dead_of_run (hsound.dead hmarking ht) hnext hlater hstarts
  have hallowed := s₁.stage.allowance_le
  have hfew := s₁.turnsLeft_le
  refine ⟨by omega, by omega, fun g hg hrunning => ?_, finishes⟩
  obtain ⟨session, hlatest, hg⟩ := Option.bind_eq_some_iff.mp hg
  obtain ⟨others, hsessions⟩ := List.head?_eq_some_iff.mp hlatest
  exact hafter.canGoOn hsessions hg hrunning

/-- The main thread's death is taken between the check and the interrupt: the interrupt is accepted
all the same, and counted, and the next signal ends the generator. -/
theorem injected_of_run_window :
    ∃ history s s₁ later s',
      Execution step (launch ⟨.remote, .ofMillis 10, .thread, .ofMillis 1, .ofMillis 5⟩) history s ∧
      starts history = 1 ∧ s.stage = .cleared ∧ s.isMarking (.controller (.receive default)) = true ∧
      s.step (.controller (.receive default)) = some s₁ ∧ Execution step s₁ later s' ∧
      s.Accounted history ∧ s'.Spent later ∧ accepted later = 1 ∧
      s'.controller.phase = .finished ∧
      ∀ runId, (s'.controller.report runId).remote = some (.ok ⟨.remote, 1⟩) := by
  let receive : InjectionMove := .controller (.receive default)
  let act : InjectionMove := .controller .act
  have hrun := Execution.of_replay (.nil : Execution step
      (launch ⟨.remote, .ofMillis 10, .thread, .ofMillis 1, .ofMillis 5⟩) [] _)
    [.say (.started .main), receive, act, act, act, .advance, .say (.threadDeath .main)] rfl
  obtain ⟨haccounted, hspent⟩ := injected_of_run rfl hrun (Nat.le_refl 1)
  have hstart {history : List (Injection × InjectionMove)} {s s₁ : Injection}
      (_ : Execution step s history s₁) : Execution step s₁ [] s₁ := .nil
  have hrest := Execution.of_replay (hstart (hrun.cons (m := receive) rfl))
    [.advance, .advance, .advance, .expire, .advance, .advance, .say .disconnected, receive, act,
      act] rfl
  exact ⟨_, _, _, _, _, hrun, rfl, rfl, rfl, rfl, hrest, haccounted,
    hspent receive _ rfl rfl _ _ hrest (Nat.le_refl 1), rfl, rfl, fun _ => rfl⟩

end Injection

end InterruptStress
