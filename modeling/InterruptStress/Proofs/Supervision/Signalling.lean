import InterruptStress.Proofs.Supervision.LockStep

/-!
# Interrupts from outside

In remote mode the controller answers the target's one start by starting one generator.
`Supervised.Signalling` says so, and that no interrupt reaches the worker's token from outside
but those that this generator has sent: whatever was applied, or is queued, it has counted.
-/

namespace InterruptStress

/-! ## The generator of a session -/

/-- A signal is sent or finds its target gone, and pauses are not interrupted. -/
def GeneratorEvent.isHarmless : GeneratorEvent → Bool
  | .signalled (.ok ()) | .dozed | .slept (.ok .completed) => true
  | .signalled (.error e) => e.isTargetGone
  | _ => false

/-- A generator that interrupts through a thread reference, and ends well if it ends. -/
structure Generator.Remote (g : Generator) : Prop where
  strategy : g.strategy = .remote
  succeeds : ∀ result, g.phase = .finished result → result = .ok g.sent

theorem Generator.remote_start : (Generator.start .remote).Remote := ⟨rfl, by simp [start]⟩

theorem Generator.remote_step {g g' : Generator} {event : GeneratorEvent} (h : g.Remote)
    (hs : g.step event = some g') (hevent : event.isHarmless = true) : g'.Remote := by
  have hstrategy := (sent_step hs).1.trans h.strategy
  have hdone {g₁ : Generator} (h₁ : some g₁ = some g')
      (hok : ∀ result, g₁.phase = .finished result → result = .ok g₁.sent) : g'.Remote := by
    obtain rfl := Option.some.inj h₁
    exact ⟨hstrategy, hok⟩
  cases event with
  | signalled result =>
    simp only [step] at hs
    split at hs
    · cases result with
      | ok => exact hdone hs (by simp [afterSending, h.strategy])
      | error e =>
        -- only a target that has gone ends the generator
        have hgone : e.isTargetGone = true := hevent
        simp only [hgone, if_true] at hs
        exact hdone hs (by simp)
    · cases hs
  | dozed =>
    simp only [step] at hs
    split at hs
    · exact hdone hs (by simp)
    · cases hs
  | slept result =>
    rcases result with _ | _ | _
    · cases hevent
    · simp only [step] at hs
      split at hs
      · exact hdone hs (by simp)
      · cases hs
    · cases hevent
  | _ => cases hevent

/-- A generator that has finished does nothing more. -/
theorem Generator.result?_of_step {g g' : Generator} {event : GeneratorEvent}
    (hs : g.step event = some g') : g.result? = none := by
  unfold result?
  split
  · next result hp => cases event <;> simp [step, hp] at hs
  · rfl

/-- A reference to a thread in the same process fails only when the target has gone. -/
theorem ThreadRef.isTargetGone_of_signal {r : ThreadRef} {commands : Channel ControlCommand}
    {e : SignalError} (h : r.signal commands = .error e) : e.isTargetGone = true := by
  unfold signal at h
  split at h
  · unfold Channel.send at h
    split at h
    · cases h
    · obtain rfl := Except.error.inj h
      rfl
  · obtain rfl := Except.error.inj h
    rfl

/-! ## Sessions -/

def TargetEvent.isStart : TargetEvent → Bool
  | .started _ => true
  | _ => false

theorem TargetEvent.not_isStart_of_isFarewell {event : TargetEvent}
    (h : event.isFarewell = true) : event.isStart = false := by
  cases event <;> first | rfl | cases h

/-- How many interrupts the session's generator has sent. -/
def Session.sent (session : Session) : Nat :=
  match session.generator with
  | none => 0
  | some g => g.sent

theorem Session.sent_of {session : Session} {g : Generator} (hg : session.generator = some g) :
    session.sent = g.sent := by
  rw [sent, hg]

/-- How many interrupts the generator of the latest start has sent. -/
def Controller.signalled (c : Controller) : Nat := (c.sessions.head?.map Session.sent).getD 0

theorem Controller.signalled_markDead (c : Controller) : c.markDead.signalled = c.signalled := by
  simp only [signalled, markDead, modifyLatest]
  cases c.sessions <;> rfl

/-- Marking the main thread as dead leaves every session its generator. -/
theorem Controller.of_mem_markDead {c : Controller} {session : Session}
    (h : session ∈ c.markDead.sessions) :
    ∃ session' ∈ c.sessions, session.generator = session'.generator := by
  simp only [markDead, modifyLatest] at h
  cases hsessions : c.sessions with
  | nil => simp [hsessions] at h
  | cons latest others =>
    rw [hsessions] at h
    rcases List.mem_cons.mp h with rfl | hmem
    · exact ⟨latest, .head _, rfl⟩
    · exact ⟨session, .tail _ hmem, rfl⟩

/-- The target starts once, and is given a generator in remote mode: the start is still to be
taken, or it has been answered or is about to be. -/
inductive Opening (mode : Mode) (acts : List ControllerAct) (starts : Nat) :
    List Session → Prop where
  | awaited (hstarts : starts = 1) (hacts : acts.count .startGenerator = 0) :
      Opening mode acts starts []
  | answered (session : Session) (hstarts : starts = 0)
      (hacts : acts.count .startGenerator + session.generator.isSome.toNat =
        (!mode.hasLocalGenerator).toNat) :
      Opening mode acts starts [session]

theorem Controller.count_greeting (c : Controller) (thread : ThreadId) :
    (c.greeting thread).count .startGenerator = (!c.settings.mode.hasLocalGenerator).toNat := by
  unfold greeting
  cases hmode : c.settings.mode <;> rfl

namespace Opening

variable {mode : Mode} {acts acts' : List ControllerAct} {starts : Nat} {sessions : List Session}

theorem frame (h : Opening mode acts starts sessions)
    (hacts : acts'.count .startGenerator = acts.count .startGenerator) :
    Opening mode acts' starts sessions := by
  cases h with
  | awaited hstarts hnone => exact .awaited hstarts (hacts.trans hnone)
  | answered session hstarts hone => exact .answered session hstarts (by rw [hacts, hone])

/-- News of the target leaves a session its generator. -/
theorem modifyHead (h : Opening mode acts starts sessions) (f : Session → Session)
    (hf : ∀ session, (f session).generator = session.generator) :
    Opening mode acts starts (sessions.modifyHead f) := by
  cases h with
  | awaited hstarts hnone => exact .awaited hstarts hnone
  | answered session hstarts hone => exact .answered (f session) hstarts (by rw [hf, hone])

/-- A start that is taken is the only one. -/
theorem of_start (h : Opening mode acts (starts + 1) sessions) : sessions = [] ∧ starts = 0 := by
  cases h with
  | awaited hstarts => exact ⟨rfl, Nat.succ.inj hstarts⟩
  | answered _ hstarts => cases hstarts

/-- A generator is started for a session that has none. -/
theorem startGenerator {rest : List ControllerAct}
    (h : Opening mode (.startGenerator :: rest) starts sessions) :
    ∃ session, sessions = [session] ∧ session.generator = none ∧
      Opening mode rest starts [{ session with generator := some (.start .remote) }] := by
  cases h with
  | awaited _ hnone => simp at hnone
  | answered session hstarts hacts =>
    have hone := Bool.toNat_le (!mode.hasLocalGenerator)
    rw [List.count_cons_self] at hacts
    refine ⟨session, rfl, ?_, .answered _ hstarts ?_⟩
    · cases hg : session.generator with
      | none => rfl
      | some g => rw [hg, Option.isSome_some, Bool.toNat_true] at hacts; omega
    · rw [Option.isSome_some, Bool.toNat_true]
      omega

/-- There is one session at most. -/
theorem of_getElem? (h : Opening mode acts starts sessions) {k : Nat} {session : Session}
    (hk : sessions[k]? = some session) : k = 0 ∧ sessions = [session] := by
  cases h with
  | awaited => cases hk
  | answered session' =>
    cases k with
    | zero => exact ⟨rfl, congrArg ([·]) (Option.some.inj hk)⟩
    | succ k => cases hk

end Opening

theorem Controller.acting_ne_finished (acts : List ControllerAct) : acting acts ≠ .finished := by
  cases acts <;> simp [acting]

/-- Any other event leaves the controller its session, but for news of the target. -/
theorem Controller.handle_of_not_start (c : Controller) {event : TargetEvent}
    (hevent : event.isStart = false) (hphase : c.phase = .listening) :
    (c.handle event).phase.acts.count .startGenerator = 0 ∧
      (c.handle event).phase ≠ .finished ∧
      ((c.handle event).sessions = c.sessions ∨
        (c.handle event).sessions = c.markDead.sessions) := by
  have hlistening {phase : ControllerPhase} (h : phase = .listening) :
      phase.acts.count .startGenerator = 0 ∧ phase ≠ .finished := by
    subst h
    exact ⟨rfl, by simp⟩
  cases event with
  | started => cases hevent
  | step thread location suspended =>
    refine ⟨?_, acting_ne_finished _, .inl rfl⟩
    simp only [handle, acts_acting]
    cases suspended <;> rfl
  | threadDeath thread =>
    simp only [handle]
    split
    · exact ⟨(hlistening hphase).1, (hlistening hphase).2, .inr rfl⟩
    · exact ⟨(hlistening hphase).1, (hlistening hphase).2, .inl rfl⟩
  | death exit => exact ⟨(hlistening hphase).1, (hlistening hphase).2, .inl rfl⟩
  | disconnected => exact ⟨rfl, by simp [handle], .inl rfl⟩

namespace Supervised

variable {s s' : Supervised} {others : Nat}

/-- The controller's one generator has sent every interrupt from outside. -/
structure Signalling (others : Nat) (s : Supervised) : Prop where
  opening : Opening s.controller.settings.mode s.controller.phase.acts
    (s.target.link.events.queue.countP TargetEvent.isStart) s.controller.sessions
  remote : ∀ session ∈ s.controller.sessions, ∀ g, session.generator = some g → g.Remote
  joined : s.controller.phase = .finished →
    ∀ session ∈ s.controller.sessions, ∀ g, session.generator = some g → g.result?.isSome = true
  earned : others + s.target.link.commands.queue.countP ControlCommand.isInterrupt ≤
    s.controller.signalled

theorem signalling_launch (controller : ControllerSettings) (worker : WorkerSettings) :
    (launch controller worker).Signalling 0 where
  opening := .awaited rfl rfl
  remote := by simp [launch, Controller.start]
  joined := by simp [launch, Controller.start]
  earned := Nat.le_refl 0

/-! ### The target -/

/-- A target announces its start only once, when it is launched. -/
theorem starts_target {m : TargetMove} {move : Option LocalMove} {t : Target} (h : s.InStep)
    (ht : s.target.Transition m move t) :
    t.link.events.queue.countP TargetEvent.isStart =
      s.target.link.events.queue.countP TargetEvent.isStart := by
  cases ht with
  | suspend | step => exact Channel.countP_offer_of_not rfl
  | announce event rest hagent =>
    exact Channel.countP_offer_of_not
      (TargetEvent.not_isStart_of_isFarewell (h.isFarewell_of_announce hagent))
  | _ => rfl

/-- An interrupt that is applied was queued. -/
theorem interrupts_target {m : TargetMove} {move : Option LocalMove} {t : Target} (h : s.InStep)
    (ht : s.target.Transition m move t) :
    (move.any LocalMove.isInterrupt).toNat +
        t.link.commands.queue.countP ControlCommand.isInterrupt ≤
      s.target.link.commands.queue.countP ControlCommand.isInterrupt := by
  cases ht with
  | request _ rest _ hq | resume rest _ hq =>
    rw [hq, List.countP_cons_of_neg (by simp [ControlCommand.isInterrupt])]
    exact Nat.le_of_eq (Nat.zero_add _)
  | interrupt rest _ hq =>
    rw [hq, List.countP_cons_of_pos rfl]
    exact Nat.le_of_eq (Nat.add_comm _ _)
  | ignore command rest _ hq =>
    rw [hq, List.countP_cons]
    exact Nat.le_trans (Nat.le_of_eq (Nat.zero_add _)) (Nat.le_add_right _ _)
  | exit code rest _ hq => exact absurd hq (h.not_exit code rest)
  | interruptMain code hagent => exact absurd hagent (h.not_exiting code)
  | closeCommands => exact Nat.zero_le _
  | goLocal m move run hm =>
    have hquiet : move.isInterrupt = false := by
      rcases hm with ⟨-, -, rfl⟩ | ⟨-, rfl⟩ | ⟨_, -, rfl⟩ | ⟨_, -, rfl⟩ <;> rfl
    simp [hquiet]
  | _ => exact Nat.le_of_eq (Nat.zero_add _)

theorem signalling_target {m : TargetMove} {move : Option LocalMove} {t : Target} (h : s.InStep)
    (hsig : s.Signalling others) (ht : s.target.Transition m move t) :
    Signalling (others + (move.any LocalMove.isInterrupt).toNat) { s with target := t } where
  opening := by
    rw [starts_target h ht]
    exact hsig.opening
  remote := hsig.remote
  joined := hsig.joined
  earned := by
    refine Nat.le_trans ?_ hsig.earned
    rw [Nat.add_assoc]
    exact Nat.add_le_add_left (interrupts_target h ht) _

/-! ### The controller -/

/-- A generator that the controller has started goes on. -/
theorem signalling_generator (hsig : s.Signalling others) {k : Nat} {session : Session}
    {g g' : Generator} {event : GeneratorEvent} (hk : s.controller.sessions[k]? = some session)
    (hg : session.generator = some g) (hs : g.step event = some g')
    (hevent : event.isHarmless = true) {link : Link}
    (hstarts : link.events.queue.countP TargetEvent.isStart =
      s.target.link.events.queue.countP TargetEvent.isStart)
    (hqueued : link.commands.queue.countP ControlCommand.isInterrupt =
      s.target.link.commands.queue.countP ControlCommand.isInterrupt + event.isSending.toNat) :
    Signalling others
      ⟨{ s.controller with
          sessions := s.controller.sessions.set k { session with generator := some g' } },
        { s.target with link }⟩ := by
  obtain ⟨hopening, hremote, hjoined, hearned⟩ := hsig
  obtain ⟨rfl, hone⟩ := hopening.of_getElem? hk
  have hmem : session ∈ s.controller.sessions := hone ▸ List.mem_singleton.mpr rfl
  have hsessions : s.controller.sessions.set 0 { session with generator := some g' } =
      [{ session with generator := some g' }] := by rw [hone]; rfl
  have hsent : g'.sent = g.sent + event.isSending.toNat := (Generator.sent_step hs).2
  simp only [hsessions]
  refine ⟨?_, ?_, ?_, ?_⟩
  · rw [hone] at hopening
    cases hopening with
    | answered _ hnone hacts =>
      rw [hg] at hacts
      exact .answered _ (hstarts.trans hnone) hacts
  · intro session' hsession' g₁ hg₁
    obtain rfl := List.mem_singleton.mp hsession'
    obtain rfl := Option.some.inj hg₁
    exact Generator.remote_step (hremote session hmem g hg) hs hevent
  · intro hfinished
    have hdone := hjoined hfinished session hmem g hg
    simp [Generator.result?_of_step hs] at hdone
  · simp only [Controller.signalled, hone, List.head?_cons, Option.map_some, Option.getD_some,
      Session.sent, hg, hsent] at hearned ⊢
    omega

/-- A controller that does nothing to its session, or takes news of the target. -/
theorem Signalling.frame (hsig : s.Signalling others) {c : Controller} {link : Link}
    (hsettings : c.settings = s.controller.settings)
    (hsessions : c.sessions = s.controller.sessions ∨
      c.sessions = s.controller.markDead.sessions)
    (hphase : c.phase ≠ .finished)
    (hacts : c.phase.acts.count .startGenerator =
      s.controller.phase.acts.count .startGenerator)
    (hstarts : link.events.queue.countP TargetEvent.isStart =
      s.target.link.events.queue.countP TargetEvent.isStart)
    (hqueued : link.commands.queue.countP ControlCommand.isInterrupt =
      s.target.link.commands.queue.countP ControlCommand.isInterrupt) :
    Signalling others ⟨c, { s.target with link }⟩ := by
  obtain ⟨hopening, hremote, -, hearned⟩ := hsig
  have hopening := hopening.frame hacts
  refine ⟨?_, ?_, fun hfinished => absurd hfinished hphase, ?_⟩
  · simp only [hsettings, hstarts]
    rcases hsessions with hsame | hdying
    · rwa [hsame]
    · rw [hdying]
      exact hopening.modifyHead _ (by simp)
  · rcases hsessions with hsame | hdying
    · rwa [hsame]
    · rw [hdying]
      intro session hmem g hg
      obtain ⟨session', hmem', hsame⟩ := Controller.of_mem_markDead hmem
      exact hremote session' hmem' g (hsame.symm.trans hg)
  · simp only [hqueued]
    refine Nat.le_trans hearned (Nat.le_of_eq ?_)
    rcases hsessions with hsame | hdying
    · rw [Controller.signalled, Controller.signalled, hsame]
    · rw [← Controller.signalled_markDead, Controller.signalled, Controller.signalled, hdying]

/-- The controller takes an event: the start, or news of the target. -/
theorem signalling_take (hsig : s.Signalling others) (writing : Writing) {event : TargetEvent}
    {rest : List TargetEvent} (hphase : s.controller.phase = .listening)
    (hq : s.target.link.events.queue = event :: rest) :
    Signalling others
      ⟨{ s.controller with log := s.controller.log.record event writing }.handle event,
        { s.target with
          link := { s.target.openLink with
            events := { s.target.openLink.events with queue := rest } } }⟩ := by
  have hopening := hsig.opening
  cases hevent : event.isStart with
  | true =>
    cases event with
    | started thread =>
      rw [hq, List.countP_cons_of_pos rfl] at hopening
      obtain ⟨hnone, hstarts⟩ := hopening.of_start
      refine ⟨?_, ?_, fun hfinished => absurd hfinished (Controller.acting_ne_finished _), ?_⟩
      · simp only [Controller.handle, hnone, Controller.acts_acting]
        refine .answered _ hstarts ?_
        rw [Controller.count_greeting]
        rfl
      · simp [Controller.handle, hnone]
      · simpa [Controller.signalled, Controller.handle, hnone, Session.sent, Target.openLink]
          using hsig.earned
    | _ => cases hevent
  | false =>
    have hset := Controller.settings_handle (c := { s.controller with
      log := s.controller.log.record event writing }) event
    obtain ⟨hcount, hopen, hsessions⟩ := Controller.handle_of_not_start { s.controller with
      log := s.controller.log.record event writing } hevent hphase
    refine hsig.frame hset hsessions hopen ?_ ?_ rfl
    · rw [hcount, hphase]
      rfl
    · rw [hq, List.countP_cons_of_neg (by simp [hevent])]

/-- Whatever a controller does, its one generator has sent what is queued. -/
theorem signalling_controller {m : ControllerMove} {c : Controller} {link : Link} (h : s.InStep)
    (hsig : s.Signalling others)
    (ht : s.controller.Transition s.target.openLink m c link) (hm : m ≠ .takeVerdict) :
    Signalling others ⟨c, { s.target with link }⟩ := by
  have hopening := hsig.opening
  have hearned := hsig.earned
  cases ht with
  | take writing event rest hphase hq => exact signalling_take hsig writing hphase hq
  | takeLast _ _ _ hphase => exact absurd hphase h.not_draining
  | takeNone _ hphase =>
    have hacts : s.controller.phase.acts = [] := by
      rcases hphase with hphase | hphase <;> rw [hphase] <;> rfl
    exact hsig.frame rfl (.inl rfl) (by simp) (by rw [hacts]; rfl) rfl rfl
  | send command rest hphase =>
    have hacts : s.controller.phase.acts = .send command :: rest := by rw [hphase]; rfl
    have hmem : command ∈ s.due := by simp [due, hacts]
    have hother := (h.serving_of_due hmem).2.1
    refine hsig.frame rfl (.inl rfl) (Controller.acting_ne_finished rest) ?_ rfl
      (Channel.countP_offer_of_not hother)
    rw [hacts, Controller.acts_acting]
    exact (List.count_cons_of_ne (by simp)).symm
  | startGenerator rest hphase =>
    have hacts : s.controller.phase.acts = .startGenerator :: rest := by rw [hphase]; rfl
    rw [hacts] at hopening
    obtain ⟨session, hone, hnone, hopening⟩ := hopening.startGenerator
    refine ⟨?_, ?_, fun hfinished => absurd hfinished (Controller.acting_ne_finished _), ?_⟩
    · simpa [Controller.modifyLatest, hone, Target.openLink] using hopening
    · simpa [Controller.modifyLatest, hone] using Generator.remote_start
    · simpa [Controller.signalled, Controller.modifyLatest, hone, Session.sent, hnone,
        Generator.start, Target.openLink] using hearned
  | force hphase => exact absurd hphase h.not_forcing
  | leave hphase =>
    refine hsig.frame rfl (.inr rfl) (by simp) (by rw [hphase]; rfl) rfl ?_
    simp only [Target.openLink]
    split <;> rfl
  | finish hphase hdone =>
    obtain ⟨_, _, -, -, -, hq, -⟩ := h.left (by simp [hphase, ControllerPhase.isOpen])
    refine ⟨?_, hsig.remote, fun _ session hmem g hg => ?_, ?_⟩
    · rw [hq, hphase] at hopening
      exact hopening
    · obtain ⟨k, hk, hget⟩ := List.getElem_of_mem hmem
      obtain ⟨-, hone⟩ := hopening.of_getElem? (List.getElem?_eq_some_iff.mpr ⟨hk, hget⟩)
      simpa [hone, hg] using hdone
    · refine Nat.le_trans (Nat.le_of_eq ?_) hearned
      simp only [Target.openLink]
      split <;> rfl
  | beginWatch | look | bark => exact ⟨hopening, hsig.remote, hsig.joined, hearned⟩
  | takeVerdict => exact absurd rfl hm
  | giveUp hphase => exact absurd hphase h.not_draining
  | signal k session g g' commands hk hg hsent hs =>
    obtain ⟨-, -, rfl⟩ := ThreadRef.of_signal hsent
    have hqueued : (s.target.link.commands.queue ++
        [ControlCommand.interrupt session.ref.id]).countP ControlCommand.isInterrupt =
          s.target.link.commands.queue.countP ControlCommand.isInterrupt + 1 :=
      List.countP_append
    exact signalling_generator hsig hk hg hs rfl rfl hqueued
  | missSignal k session g g' e hk hg hmissed hs =>
    exact signalling_generator hsig hk hg hs (ThreadRef.isTargetGone_of_signal hmissed) rfl rfl
  | pause m event k session g g' hevent hk hg hs =>
    rcases hevent with ⟨-, rfl⟩ | ⟨-, rfl⟩
    · exact signalling_generator hsig hk hg hs rfl rfl rfl
    · exact signalling_generator hsig hk hg hs rfl rfl rfl

/-! ### Whole runs -/

/-- Until a verdict is taken, no interrupt comes from outside but from the controller's one
generator. -/
theorem signalling_of_run {controller : ControllerSettings} {worker : WorkerSettings}
    {history : List (Supervised × SupervisedMove)}
    (hrun : Execution step (launch controller worker) history s)
    (hhang : s.controller.hang = none) :
    s.Signalling (interruptsByOthers (localHistory history)) := by
  refine unhung_induction
    (P := fun history s => s.Signalling (interruptsByOthers (localHistory history)))
    (signalling_launch controller worker) ?_ ?_ hrun hhang
  · intro history s m t h hsig ht
    rw [interruptsByOthers, countP_localHistory_cons]
    exact signalling_target h hsig ht
  · intro history s m c link h hsig ht hm
    rw [interruptsByOthers, countP_localHistory_cons]
    exact signalling_controller h hsig ht hm

end Supervised

end InterruptStress
