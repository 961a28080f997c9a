import InterruptStress.Proofs.Supervision.Injection

/-!
# What a remote generator has injected

In remote mode a controller answers its target's one start by starting one generator, and from
then on four things go on at once: the controller takes events and may mark the main thread as dead
or leave, its watchdog looks, the generator checks, sends and counts, and the target says whatever
it says, takes commands and may close their channel.  `Injection.Sound` is what holds at any time.
Its core is one equation: what the channel has accepted is what the generator has counted, and the
one interrupt, if any, whose answer it holds.

The generator ends well if it ends: the only errors that a signal comes to are those of a target
that has gone, and nobody interrupts its pauses.  So the report of a controller that has finished
has the exact number (`Injection.Sound.accounted`).
-/

namespace InterruptStress

theorem Channel.countP_offer_le {α : Type} {c : Channel α} {value : α} (p : α → Bool) :
    (c.offer value).queue.countP p ≤ c.queue.countP p + (p value).toNat := by
  unfold offer send
  cases c.receiving <;> cases hvalue : p value <;> simp [hvalue]

/-- An interrupt that the command channel has accepted and the generator has not counted yet. -/
def SignalStage.uncounted : SignalStage → Nat
  | .answered (.ok ()) => 1
  | _ => 0

theorem SignalStage.uncounted_answered (result : Except SignalError Unit) :
    (answered result).uncounted = (GeneratorEvent.signalled result).isSending.toNat := by
  rcases result with _ | _ <;> rfl

/-- A generator that interrupts from outside is never anywhere else. -/
def Generator.Paced (g : Generator) : Prop :=
  g.phase = .sending ∨ g.phase = .pausing ∨ g.phase = .asleep ∨ g.result?.isSome = true

theorem Generator.paced_start : (Generator.start .remote).Paced := .inl rfl

/-- What such a generator goes through. -/
inductive Generator.RemoteStep (g g' : Generator) : GeneratorEvent → Prop where
  | send (hphase : g.phase = .sending) (hafter : g'.phase = .pausing) :
      RemoteStep g g' (.signalled (.ok ()))
  | quit (e : SignalError) (hphase : g.phase = .sending) (hafter : g'.result?.isSome = true) :
      RemoteStep g g' (.signalled (.error e))
  | doze (hphase : g.phase = .pausing) (hafter : g'.phase = .asleep) : RemoteStep g g' .dozed
  | wake (hphase : g.phase = .pausing ∨ g.phase = .asleep) (hafter : g'.phase = .sending) :
      RemoteStep g g' (.slept (.ok .completed))

theorem Generator.remoteStep_of_step {g g' : Generator} {event : GeneratorEvent} (h : g.Remote)
    (hs : g.step event = some g') (hevent : event.isHarmless = true) : g.RemoteStep g' event := by
  cases event with
  | signalled result =>
    have hphase := phase_of_signalled hs
    have hlocal : g.strategy.hasLocalGenerator = false := by rw [h.strategy]; rfl
    rcases result with e | _
    · have hgone : e.isTargetGone = true := hevent
      obtain rfl : _ = g' := by simpa [step, hphase, hlocal, hgone] using hs
      exact .quit e hphase rfl
    · have hafter : g'.phase = afterSending g.strategy := by
        simp only [step, hphase, hlocal] at hs
        obtain rfl := Option.some.inj hs
        rfl
      exact .send hphase (by rw [hafter, h.strategy]; rfl)
  | dozed =>
    have hphase := phase_of_dozed hs
    obtain rfl : _ = g' := by simpa [step, hphase] using hs
    exact .doze hphase rfl
  | slept result =>
    have hphase := phase_of_slept hs
    rcases result with _ | _ | _
    · cases hevent
    · obtain rfl : _ = g' := by simpa [step, hphase] using hs
      exact .wake hphase rfl
    · cases hevent
  | _ => cases hevent

theorem Generator.paced_step {g g' : Generator} {event : GeneratorEvent} (h : g.Remote)
    (hs : g.step event = some g') (hevent : event.isHarmless = true) : g'.Paced := by
  cases remoteStep_of_step h hs hevent with
  | send _ hafter => exact .inr (.inl hafter)
  | quit _ _ hafter => exact .inr (.inr (.inr hafter))
  | doze _ hafter => exact .inr (.inr (.inl hafter))
  | wake _ hafter => exact .inl hafter

/-- The commands that answer an event are no interrupts. -/
theorem Controller.polite_handle {c : Controller} {event : TargetEvent} {command : ControlCommand}
    (hphase : c.phase = .listening) (h : .send command ∈ (c.handle event).phase.acts) :
    command.isInterrupt = false := by
  cases event with
  | started thread =>
    have h : command = .createStepRequest thread c.settings.suspend ∨ command = .resume := by
      simp only [handle, acts_acting, greeting] at h
      split at h <;> simpa using h
    rcases h with rfl | rfl <;> rfl
  | step thread location suspended =>
    cases suspended with
    | true =>
      obtain rfl : command = .resume := by simpa [handle] using h
      rfl
    | false => simp [handle] at h
  | threadDeath thread =>
    simp only [handle] at h
    split at h
    · simp [markDead, modifyLatest, hphase, ControllerPhase.acts] at h
    · simp [hphase, ControllerPhase.acts] at h
  | death exit => simp [handle, hphase, ControllerPhase.acts] at h
  | disconnected => simp [handle, ControllerPhase.acts] at h

namespace Injection

/-- The commands that the channel has accepted on the way from one state to the next. -/
def queuedTo (s s' : Injection) : List ControlCommand :=
  s'.link.commands.queue.drop s.link.commands.queue.length

/-- How many of them are interrupts. -/
def interruptsTo (s s' : Injection) : Nat := (s.queuedTo s').countP ControlCommand.isInterrupt

/-- How many interrupts the command channel has accepted. -/
def accepted (history : List (Injection × InjectionMove)) : Nat :=
  (history.flatMap fun e => ((e.1.step e.2).map e.1.queuedTo).getD []).countP
    ControlCommand.isInterrupt

/-- How often the target has said that it has started. -/
def starts (history : List (Injection × InjectionMove)) : Nat :=
  history.countP fun e => e.2.isStart

variable {s s' : Injection} {m : InjectionMove} {session : Session} {others : List Session}
  {g g' : Generator} {event : GeneratorEvent} {started count : Nat} {c : Controller} {link : Link}
  {history : List (Injection × InjectionMove)}

theorem accepted_cons (hs : s.step m = some s') :
    accepted ((s, m) :: history) = accepted history + s.interruptsTo s' := by
  simp [accepted, interruptsTo, hs, Nat.add_comm]

theorem interruptsTo_of_queue (h : s'.link.commands.queue = s.link.commands.queue) :
    s.interruptsTo s' = 0 := by
  simp [interruptsTo, queuedTo, h]

/-! ## What every state has -/

/-- What every state has, given how often the target has started and how many interrupts the
command channel has accepted. -/
structure Sound (started count : Nat) (s : Injection) : Prop where
  mode : s.controller.settings.mode = .remote
  opening : Opening .remote s.controller.phase.acts (1 - s.controller.sessions.length)
    s.controller.sessions
  /-- A start is queued or has been taken. -/
  fresh : s.link.events.queue.countP TargetEvent.isStart + s.controller.sessions.length ≤ started
  /-- The controller does not send interrupts itself. -/
  polite : ∀ command, .send command ∈ s.controller.phase.acts → command.isInterrupt = false
  remote : ∀ session ∈ s.controller.sessions, ∀ g, session.generator = some g →
    g.Remote ∧ g.Paced
  joined : s.controller.phase = .finished →
    ∀ session ∈ s.controller.sessions, ∀ g, session.generator = some g → g.result?.isSome = true
  /-- Nobody interrupts the generator's thread. -/
  calm : s.stop.pending = false
  counted : s.controller.signalled + s.stage.uncounted = count
  /-- A signal is under way only while its generator sends. -/
  sending : s.stage ≠ .unchecked → ∃ ref g, s.signaller? = some (ref, g) ∧ g.phase = .sending
  gone : ∀ e, s.stage = .answered (.error e) → e.isTargetGone = true

theorem sound_launch {settings : ControllerSettings} (hmode : settings.mode = .remote) :
    (launch settings).Sound 0 0 where
  mode := hmode
  opening := .awaited rfl rfl
  fresh := Nat.le_refl 0
  polite := by simp [launch, Controller.start, ControllerPhase.acts]
  remote := by simp [launch, Controller.start]
  joined := by simp [launch, Controller.start]
  calm := rfl
  counted := rfl
  sending := by simp [launch]
  gone := by simp [launch]

/-- There is one session at most. -/
theorem Sound.sessions_eq (h : s.Sound started count)
    (hsessions : s.controller.sessions = session :: others) : s.controller.sessions = [session] :=
  (h.opening.of_getElem? (k := 0) (by rw [hsessions]; rfl)).2

/-- Only a generator that sends has a signal under way. -/
theorem Sound.unchecked_of (h : s.Sound started count)
    (hidle : ∀ ref g, s.signaller? = some (ref, g) → g.phase ≠ .sending) :
    s.stage = .unchecked := by
  by_cases hstage : s.stage = .unchecked
  · exact hstage
  · obtain ⟨ref, g, hsignaller, hsending⟩ := h.sending hstage
    exact absurd hsending (hidle ref g hsignaller)

/-! ### The controller -/

/-- Marking the main thread as dead leaves the generator as it is. -/
theorem signaller?_markDead {ref : ThreadRef} (h : s.signaller? = some (ref, g)) :
    signaller? { s with controller := s.controller.markDead } = some (ref.markDead, g) := by
  obtain ⟨session, others, hsessions, hg, rfl⟩ := of_signaller? h
  simp [signaller?, Controller.markDead, Controller.modifyLatest, hsessions, hg]

/-- A controller that does nothing to its session, or takes news of the target. -/
theorem Sound.frame (h : s.Sound started count) (hsettings : c.settings = s.controller.settings)
    (hsessions : c.sessions = s.controller.sessions ∨
      c.sessions = s.controller.markDead.sessions)
    (hphase : c.phase ≠ .finished)
    (hacts : c.phase.acts.count .startGenerator =
      s.controller.phase.acts.count .startGenerator)
    (hpolite : ∀ command, .send command ∈ c.phase.acts → command.isInterrupt = false)
    (hstarts : link.events.queue.countP TargetEvent.isStart ≤
      s.link.events.queue.countP TargetEvent.isStart) :
    Sound started count { s with controller := c, link } := by
  have hopening := h.opening.frame hacts
  have hfresh := Nat.le_trans (Nat.add_le_add_right hstarts _) h.fresh
  rcases hsessions with hsame | hdying
  · refine ⟨hsettings ▸ h.mode, ?_, ?_, hpolite, ?_, ?_, h.calm, ?_, fun hstage => ?_, h.gone⟩
    · simpa only [hsame] using hopening
    · simpa only [hsame] using hfresh
    · simpa only [hsame] using h.remote
    · exact fun hfinished => absurd hfinished hphase
    · simpa only [Controller.signalled, hsame] using h.counted
    · simpa only [signaller?, hsame] using h.sending hstage
  · have hlength : s.controller.markDead.sessions.length = s.controller.sessions.length := by
      simp [Controller.markDead, Controller.modifyLatest]
    refine ⟨hsettings ▸ h.mode, ?_, ?_, hpolite, ?_, ?_, h.calm, ?_, fun hstage => ?_, h.gone⟩
    · simp only [hdying, hlength]
      exact hopening.modifyHead _ fun _ => rfl
    · simpa only [hdying, hlength] using hfresh
    · intro session hmem g hg
      obtain ⟨session', hmem', hsame⟩ := Controller.of_mem_markDead (hdying ▸ hmem)
      exact h.remote session' hmem' g (hsame.symm.trans hg)
    · exact fun hfinished => absurd hfinished hphase
    · have hsignalled := s.controller.signalled_markDead
      simp only [Controller.signalled] at hsignalled
      simpa only [Controller.signalled, hdying, hsignalled] using h.counted
    · obtain ⟨ref, g, hsignaller, hsending⟩ := h.sending hstage
      refine ⟨ref.markDead, g, ?_, hsending⟩
      simpa only [signaller?, hdying] using signaller?_markDead hsignaller

/-- The controller takes an event: the one start, or news of the target. -/
theorem Sound.take (h : s.Sound started count) (hone : started ≤ 1) (writing : Writing)
    {event : TargetEvent} {rest : List TargetEvent} (hphase : s.controller.phase = .listening)
    (hq : s.link.events.queue = event :: rest) :
    Sound started count { s with
      controller :=
        { s.controller with log := s.controller.log.record event writing }.handle event
      link := { s.link with events := { s.link.events with queue := rest } } } := by
  have hpolite (command : ControlCommand)
      (hmem : .send command ∈ ({ s.controller with
        log := s.controller.log.record event writing }.handle event).phase.acts) :
      command.isInterrupt = false :=
    Controller.polite_handle
      (c := { s.controller with log := s.controller.log.record event writing }) hphase hmem
  have hfresh := h.fresh
  cases hevent : event.isStart with
  | false =>
    obtain ⟨hcount, hopen, hsessions⟩ := Controller.handle_of_not_start { s.controller with
      log := s.controller.log.record event writing } hevent hphase
    refine h.frame (Controller.settings_handle event) hsessions hopen ?_ hpolite ?_
    · rw [hcount, hphase]
      rfl
    · refine Nat.le_of_eq ?_
      rw [hq, List.countP_cons_of_neg (by simp [hevent])]
  | true =>
    rw [hq, List.countP_cons_of_pos hevent] at hfresh
    -- the start that is taken is the only one
    have hnone : s.controller.sessions = [] := List.eq_nil_of_length_eq_zero (by omega)
    have hstage := h.unchecked_of (by simp [signaller?, hnone])
    cases event with
    | started thread =>
      refine ⟨h.mode, ?_, ?_, hpolite, ?_, fun hfinished => ?_, h.calm, ?_, ?_, h.gone⟩
      · simp only [Controller.handle, hnone, Controller.acts_acting, List.length_singleton]
        refine .answered _ rfl ?_
        rw [Controller.count_greeting, show _ = Mode.remote from h.mode]
        rfl
      · simp only [Controller.handle, hnone, List.length_singleton]
        omega
      · simp [Controller.handle, hnone]
      · exact absurd hfinished (Controller.acting_ne_finished _)
      · simpa [Controller.signalled, Controller.handle, hnone, Session.sent] using h.counted
      · simp [hstage]
    | _ => cases hevent

/-- A controller that has nothing to answer, before and after. -/
theorem Sound.rest (h : s.Sound started count) (hsettings : c.settings = s.controller.settings)
    (hsessions : c.sessions = s.controller.sessions ∨
      c.sessions = s.controller.markDead.sessions)
    (hphase : c.phase ≠ .finished) (hidle : s.controller.phase.acts = [])
    (hacts : c.phase.acts = [])
    (hstarts : link.events.queue.countP TargetEvent.isStart ≤
      s.link.events.queue.countP TargetEvent.isStart) :
    Sound started count { s with controller := c, link } :=
  h.frame hsettings hsessions hphase (by rw [hacts, hidle]) (by simp [hacts]) hstarts

/-- The controller starts its generator. -/
theorem Sound.startGenerator (h : s.Sound started count) {rest : List ControllerAct}
    (hphase : s.controller.phase = .acting (.startGenerator :: rest)) :
    Sound started count { s with controller :=
      { s.controller.modifyLatest fun session =>
          { session with generator := some (.start .remote) } with
        phase := Controller.acting rest } } := by
  have hacts : s.controller.phase.acts = .startGenerator :: rest := by rw [hphase]; rfl
  have hopening := h.opening
  rw [hacts] at hopening
  obtain ⟨session, hsessions, hnone, hopening⟩ := hopening.startGenerator
  have hstage := h.unchecked_of (by simp [signaller?, hsessions, hnone])
  refine ⟨h.mode, ?_, ?_, ?_, ?_, fun hfinished => ?_, h.calm, ?_, by simp [hstage], h.gone⟩
  · simpa [Controller.modifyLatest, hsessions] using hopening
  · simpa [Controller.modifyLatest] using h.fresh
  · intro command hmem
    rw [Controller.acts_acting] at hmem
    exact h.polite command (hacts ▸ .tail _ hmem)
  · simpa [Controller.modifyLatest, hsessions] using
      And.intro Generator.remote_start Generator.paced_start
  · exact absurd hfinished (Controller.acting_ne_finished _)
  · simpa [Controller.signalled, Controller.modifyLatest, hsessions, Session.sent, hnone,
      Generator.start] using h.counted

theorem sound_controller {m : ControllerMove} (h : s.Sound started count) (hone : started ≤ 1)
    (hm : m.isGenerators = false) (ht : s.controller.Transition s.link m c link) :
    Sound started count { s with controller := c, link } := by
  cases ht with
  | take writing event rest hphase hq => exact h.take hone writing hphase hq
  | takeLast writing event rest hphase hq =>
    refine h.rest ?_ (.inl ?_) ?_ (by rw [hphase]; rfl) ?_ ?_
    · cases event <;> rfl
    · cases event <;> rfl
    · cases event <;> simp [Controller.drain, hphase]
    · cases event <;> simp [Controller.drain, hphase, ControllerPhase.acts]
    · rw [hq]
      exact (List.sublist_cons_self event rest).countP_le
  | takeNone _ hphase =>
    refine h.rest rfl (.inl rfl) (by simp) ?_ rfl (Nat.le_refl _)
    rcases hphase with hphase | hphase <;> rw [hphase] <;> rfl
  | send command rest hphase =>
    have hacts : s.controller.phase.acts = .send command :: rest := by rw [hphase]; rfl
    refine h.frame rfl (.inl rfl) (Controller.acting_ne_finished rest) ?_ ?_ (Nat.le_refl _)
    · rw [hacts, Controller.acts_acting]
      exact (List.count_cons_of_ne (by simp)).symm
    · intro command hmem
      rw [Controller.acts_acting] at hmem
      exact h.polite command (hacts ▸ .tail _ hmem)
  | startGenerator rest hphase => exact h.startGenerator hphase
  | force hphase => exact h.rest rfl (.inl rfl) (by simp) (by rw [hphase]; rfl) rfl (Nat.le_refl _)
  | leave hphase => exact h.rest rfl (.inr rfl) (by simp) (by rw [hphase]; rfl) rfl (Nat.le_refl _)
  | finish hphase hdone =>
    have hopening : Opening .remote [] (1 - s.controller.sessions.length) s.controller.sessions := by
      have := h.opening
      rwa [hphase] at this
    refine ⟨h.mode, hopening, ?_, by simp [ControllerPhase.acts], h.remote, fun _ => ?_, h.calm,
      h.counted, h.sending, h.gone⟩
    · have hfresh := h.fresh
      simp only [Channel.close, List.countP_nil]
      omega
    · intro session hmem g hg
      obtain ⟨k, hk, hget⟩ := List.getElem_of_mem hmem
      obtain ⟨-, hsessions⟩ := hopening.of_getElem? (List.getElem?_eq_some_iff.mpr ⟨hk, hget⟩)
      simpa [hsessions, hg] using hdone
  | beginWatch | look | bark =>
    exact ⟨h.mode, h.opening, h.fresh, h.polite, h.remote, h.joined, h.calm, h.counted, h.sending,
      h.gone⟩
  | takeVerdict _ hphase =>
    exact h.rest rfl (.inl rfl) (by simp) (by rw [hphase]; rfl) rfl (Nat.le_refl _)
  | giveUp hphase => exact h.rest rfl (.inl rfl) (by simp) (by rw [hphase]; rfl) rfl (Nat.le_refl _)
  | signal | missSignal => cases hm
  | pause _ _ _ _ _ _ hpause => rcases hpause with ⟨rfl, -⟩ | ⟨rfl, -⟩ <;> cases hm

/-- The controller itself queues no interrupt. -/
theorem interruptsTo_controller {m : ControllerMove} (h : s.Sound started count)
    (hm : m.isGenerators = false) (ht : s.controller.Transition s.link m c link) :
    s.interruptsTo { s with controller := c, link } = 0 := by
  have hoffer (command : ControlCommand) (hcommand : command.isInterrupt = false) :
      ((s.link.commands.offer command).queue.drop s.link.commands.queue.length).countP
        ControlCommand.isInterrupt = 0 := by
    unfold Channel.offer Channel.send
    cases s.link.commands.receiving <;> simp [hcommand]
  cases ht with
  | send command rest hphase =>
    refine hoffer command (h.polite command ?_)
    rw [hphase]
    exact .head _
  | force => exact hoffer _ rfl
  | leave | finish =>
    refine interruptsTo_of_queue ?_
    simp only
    split <;> rfl
  | signal | missSignal => cases hm
  | pause _ _ _ _ _ _ hpause => rcases hpause with ⟨rfl, -⟩ | ⟨rfl, -⟩ <;> cases hm
  | _ => exact interruptsTo_of_queue rfl

/-! ### The generator -/

/-- A generator that pauses, or has finished, has no signal under way. -/
theorem Sound.unchecked (h : s.Sound started count)
    (hsessions : s.controller.sessions = session :: others) (hg : session.generator = some g)
    (hphase : g.phase ≠ .sending) : s.stage = .unchecked := by
  refine h.unchecked_of fun ref g' hsignaller => ?_
  rw [signaller?_of hsessions hg] at hsignaller
  obtain ⟨-, rfl⟩ := Prod.mk.inj (Option.some.inj hsignaller)
  exact hphase

/-- The generator goes on with nothing under way. -/
theorem Sound.withGenerator (h : s.Sound started count)
    (hsessions : s.controller.sessions = session :: others) (hg : session.generator = some g)
    (hs : g.step event = some g') (hevent : event.isHarmless = true) {stop : Token}
    (hcalm : stop.pending = false) :
    Sound started (s.controller.signalled + event.isSending.toNat)
      ({ s with stop, stage := .unchecked }.withGenerator g') := by
  have hone := h.sessions_eq hsessions
  have hmem : session ∈ s.controller.sessions := hone ▸ List.mem_singleton.mpr rfl
  obtain ⟨hremote, -⟩ := h.remote session hmem g hg
  rw [withGenerator_of (s := { s with stop, stage := .unchecked }) hsessions]
  have hset : s.controller.sessions.set 0 { session with generator := some g' } =
      [{ session with generator := some g' }] := by rw [hone]; rfl
  refine ⟨h.mode, ?_, ?_, h.polite, ?_, fun hfinished => ?_, hcalm, ?_, by simp, by simp⟩
  · have hopening := h.opening
    rw [hone] at hopening
    simp only [hset, List.length_singleton]
    cases hopening with
    | answered _ hnone hacts =>
      rw [hg] at hacts
      exact .answered _ rfl hacts
  · simpa using h.fresh
  · simp only [hset]
    intro session' hsession' g₁ hg₁
    obtain rfl := List.mem_singleton.mp hsession'
    obtain rfl := Option.some.inj hg₁
    exact ⟨Generator.remote_step hremote hs hevent, Generator.paced_step hremote hs hevent⟩
  · have hdone := h.joined hfinished session hmem g hg
    simp [Generator.result?_of_step hs] at hdone
  · simp [Controller.signalled, hone, Session.sent, hg, (Generator.sent_step hs).2,
      SignalStage.uncounted]

/-- An answer does not end the generator badly. -/
theorem Sound.harmless (h : s.Sound started count) {result : Except SignalError Unit}
    (hstage : s.stage = .answered result) :
    (GeneratorEvent.signalled result).isHarmless = true := by
  rcases result with e | _
  · exact h.gone e hstage
  · rfl

/-- Only a signal under way is not counted. -/
theorem Sound.signalled_eq (h : s.Sound started count) (hstage : s.stage.uncounted = 0) :
    s.controller.signalled = count := by
  have hcounted := h.counted
  omega

/-- The signal goes on. -/
theorem Sound.withStage (h : s.Sound started count)
    (hsessions : s.controller.sessions = session :: others) (hg : session.generator = some g)
    (hphase : g.phase = .sending) (hbefore : s.stage.uncounted = 0) (stage : SignalStage)
    (hgone : ∀ e, stage = .answered (.error e) → e.isTargetGone = true) (link : Link)
    (hlink : link.events = s.link.events) :
    Sound started (count + stage.uncounted) { s with stage, link } := by
  rw [← h.signalled_eq hbefore]
  exact ⟨h.mode, h.opening, by rw [hlink]; exact h.fresh, h.polite, h.remote, h.joined, h.calm,
    rfl, fun _ => ⟨_, g, signaller?_of hsessions hg, hphase⟩, hgone⟩

/-- The generator pauses, or has paused. -/
theorem Sound.pause (h : s.Sound started count)
    (hsessions : s.controller.sessions = session :: others) (hg : session.generator = some g)
    (hphase : g.phase ≠ .sending) (hs : g.step event = some g') (hevent : event.isHarmless = true)
    (hsilent : event.isSending = false) {stop : Token} (hcalm : stop.pending = false) :
    Sound started count ({ s with stop }.withGenerator g') := by
  have hstage := h.unchecked hsessions hg hphase
  have hnext := h.withGenerator hsessions hg hs hevent hcalm
  rw [h.signalled_eq (by rw [hstage]; rfl), hsilent, ← hstage] at hnext
  exact hnext

theorem sound_turn (h : s.Sound started count)
    (hsessions : s.controller.sessions = session :: others) (hg : session.generator = some g)
    (ht : s.Turn session.ref g m s') : s'.Sound started (count + s.interruptsTo s') := by
  have hquiet (hqueue : s'.link.commands.queue = s.link.commands.queue)
      (hsound : s'.Sound started count) : s'.Sound started (count + s.interruptsTo s') := by
    rw [interruptsTo_of_queue hqueue]
    exact hsound
  cases ht with
  | check hphase hstage =>
    exact hquiet rfl (h.withStage hsessions hg hphase (by rw [hstage]; rfl) .cleared (by simp)
      s.link rfl)
  | refuse hphase hstage =>
    exact hquiet rfl (h.withStage hsessions hg hphase (by rw [hstage]; rfl)
      (.answered (.error (.illegalThreadState session.ref.id))) (by rintro e ⟨⟩; rfl) s.link rfl)
  | send hphase hstage =>
    have hnext := h.withStage hsessions hg hphase (by rw [hstage]; rfl) (.answered (.ok ()))
      (by simp) { s.link with commands := { s.link.commands with
        queue := s.link.commands.queue ++ [.interrupt session.ref.id] } } rfl
    simpa [interruptsTo, queuedTo, ControlCommand.isInterrupt, SignalStage.uncounted] using hnext
  | miss hphase hstage =>
    exact hquiet rfl (h.withStage hsessions hg hphase (by rw [hstage]; rfl)
      (.answered (.error .disconnected)) (by rintro e ⟨⟩; rfl) s.link rfl)
  | conclude result g' hphase hstage hs =>
    have hcounted := h.counted
    rw [hstage, SignalStage.uncounted_answered] at hcounted
    have hnext := h.withGenerator hsessions hg hs (h.harmless hstage) h.calm
    rw [hcounted] at hnext
    exact hquiet rfl hnext
  | doze g' stop hphase hs hcalm =>
    exact hquiet rfl (h.pause hsessions hg (by simp [hphase]) hs rfl rfl hcalm)
  | wake g' stop hphase hs hcalm =>
    refine hquiet rfl (h.pause hsessions hg ?_ hs rfl rfl hcalm)
    rcases hphase with hphase | hphase <;> simp [hphase]
  | sleepOn stop _ _ hcalm =>
    exact hquiet rfl ⟨h.mode, h.opening, h.fresh, h.polite, h.remote, h.joined, hcalm, h.counted,
      h.sending, h.gone⟩
  | stir =>
    exact hquiet rfl ⟨h.mode, h.opening, h.fresh, h.polite, h.remote, h.joined, h.calm, h.counted,
      h.sending, h.gone⟩

/-! ### The target, and whole runs -/

/-- The target does something about the link, and queues no command. -/
theorem Sound.withLink (h : s.Sound started count) {more : Nat}
    (hqueued : link.commands.queue.drop s.link.commands.queue.length = [])
    (hstarts : link.events.queue.countP TargetEvent.isStart ≤
      s.link.events.queue.countP TargetEvent.isStart + more) :
    Sound (started + more) (count + s.interruptsTo { s with link }) { s with link } := by
  have hfresh := h.fresh
  have hnone : s.interruptsTo { s with link } = 0 := by simp [interruptsTo, queuedTo, hqueued]
  rw [hnone]
  exact ⟨h.mode, h.opening, by simp only; omega, h.polite, h.remote, h.joined, h.calm, h.counted,
    h.sending, h.gone⟩

theorem sound_transition (h : s.Sound started count) (hone : started ≤ 1)
    (ht : s.Transition m s') :
    s'.Sound (started + m.isStart.toNat) (count + s.interruptsTo s') := by
  cases ht with
  | controller m c link hm ht =>
    rw [interruptsTo_controller h hm ht]
    exact sound_controller h hone hm ht
  | say event => exact h.withLink (List.drop_length ..) (Channel.countP_offer_le _)
  | fallSilent => exact h.withLink (List.drop_length ..) (Nat.le_refl _)
  | takeCommand command rest hq =>
    refine h.withLink ?_ (Nat.le_refl _)
    rw [hq]
    exact List.drop_eq_nil_of_le (Nat.le_succ _)
  | close => exact h.withLink List.drop_nil (Nat.le_refl _)
  | turn _ _ session others g hsessions hg ht =>
    have hstart : m.isStart = false := by cases ht <;> rfl
    rw [hstart]
    exact sound_turn h hsessions hg ht

/-- Every state of a run in remote mode with one start. -/
theorem sound_of_run {settings : ControllerSettings} (hmode : settings.mode = .remote)
    (hrun : Execution step (launch settings) history s) (hone : starts history ≤ 1) :
    s.Sound (starts history) (accepted history) := by
  induction hrun with
  | nil => exact sound_launch hmode
  | @cons history s s' m _ hs ih =>
    have hcount : starts ((s, m) :: history) = starts history + m.isStart.toNat :=
      Execution.countP_history_cons InjectionMove.isStart s m history
    rw [hcount] at hone
    have hbefore := ih (by omega)
    rw [hcount, accepted_cons hs]
    exact sound_transition hbefore (by omega) (transition_of_step hbefore.calm hs)

/-! ## What the counts come to -/

/-- A generator that has not finished can go on, or its pause can run out of time. -/
theorem Sound.canGoOn (h : s.Sound started count)
    (hsessions : s.controller.sessions = session :: others) (hg : session.generator = some g)
    (hrunning : g.result? = none) :
    (s.step .advance).isSome = true ∨ (s.step .expire).isSome = true := by
  obtain ⟨hremote, hpaced⟩ := h.remote session (hsessions ▸ .head _) g hg
  have hwakes (hphase : g.phase = .pausing ∨ g.phase = .asleep) :
      (s.step .expire).isSome = true := by
    obtain ⟨stop, hlook, -⟩ := look_expired h.calm g
    have hturn : s.turn session.ref g .expire = s.look g true := by
      rcases hphase with hphase | hphase <;> rw [turn, hphase]
    have hs : g.step (.slept (.ok .completed)) = some { g with phase := .sending } := by
      simp [Generator.step, hphase]
    rw [step_expire hsessions hg, hturn, hlook,
      onGenerator_of (s := { s with stop }) hsessions hg hs]
    rfl
  rcases hpaced with hphase | hphase | hphase | hdone
  · refine .inl ?_
    rw [step_sending hsessions hg hphase, signal]
    cases hstage : s.stage with
    | unchecked => simp only; split <;> rfl
    | cleared => simp only; split <;> rfl
    | answered result =>
      have hlocal : g.strategy.hasLocalGenerator = false := by rw [hremote.strategy]; rfl
      obtain ⟨g', hs⟩ : ∃ g', g.step (.signalled result) = some g' := by
        rw [← Option.isSome_iff_exists]
        rcases result with e | _
        · have hgone : e.isTargetGone = true := h.harmless hstage
          simp [Generator.step, hphase, hlocal, hgone]
        · simp [Generator.step, hphase, hlocal]
      simp only [onGenerator_of (s := { s with stage := .unchecked }) hsessions hg hs]
      rfl
  · exact .inr (hwakes (.inl hphase))
  · exact .inr (hwakes (.inr hphase))
  · simp [hrunning] at hdone

/-- What the counts come to, at any time. -/
structure Accounted (history : List (Injection × InjectionMove)) (s : Injection) : Prop where
  /-- The generator has counted what the command channel has accepted, but for an interrupt whose
  answer it has not taken into account yet. -/
  counted : accepted history = s.controller.signalled + s.stage.uncounted
  /-- A generator that has finished has counted every interrupt, and has ended well. -/
  finished : ∀ session ∈ s.controller.sessions, ∀ g result, session.generator = some g →
    g.result? = some result → result = .ok (accepted history)
  reported : ∀ runId result, (s.controller.report runId).remote = some result →
    result = .ok ⟨.remote, .ofNat (accepted history)⟩
  /-- A controller that has finished reports what became of its generator. -/
  joined : s.controller.phase = .finished → s.controller.sessions ≠ [] → ∀ runId,
    (s.controller.report runId).remote.isSome = true

/-- A generator that has finished has counted everything that was accepted. -/
theorem Sound.result_eq (h : s.Sound started count)
    (hsessions : s.controller.sessions = session :: others) (hg : session.generator = some g)
    {result : Except GeneratorError Nat} (hresult : g.result? = some result) :
    result = .ok count := by
  have hphase := Generator.phase_of_result? hresult
  have hsent : s.controller.signalled = g.sent := by
    simp [Controller.signalled, hsessions, Session.sent_of hg]
  have hcount := h.signalled_eq (by rw [h.unchecked hsessions hg (by simp [hphase])]; rfl)
  rw [(h.remote session (hsessions ▸ .head _) g hg).1.succeeds result hphase, ← hsent, hcount]

/-- A controller that has finished has started a generator in answer to a start. -/
theorem Sound.generator_of_finished (h : s.Sound started count)
    (hphase : s.controller.phase = .finished)
    (hsessions : s.controller.sessions = session :: others) :
    ∃ g, session.generator = some g := by
  have hopening := h.opening
  rw [hphase, hsessions] at hopening
  cases hopening with
  | answered _ _ hacts =>
    rw [← Option.isSome_iff_exists]
    cases hg : session.generator.isSome with
    | true => rfl
    | false => simp [hg, ControllerPhase.acts, Mode.hasLocalGenerator] at hacts

theorem Sound.accounted (h : s.Sound (starts history) (accepted history)) :
    s.Accounted history where
  counted := h.counted.symm
  finished session hmem g result hg hresult := by
    obtain ⟨k, hk, hget⟩ := List.getElem_of_mem hmem
    obtain ⟨-, hsessions⟩ := h.opening.of_getElem? (List.getElem?_eq_some_iff.mpr ⟨hk, hget⟩)
    exact h.result_eq hsessions hg hresult
  reported runId result hreport := by
    obtain ⟨g, hgenerator, hreport⟩ := Option.bind_eq_some_iff.mp hreport
    obtain ⟨session, hlatest, hg⟩ := Option.bind_eq_some_iff.mp hgenerator
    obtain ⟨others, hsessions⟩ := List.head?_eq_some_iff.mp hlatest
    obtain ⟨outcome, hresult, rfl⟩ := Option.map_eq_some_iff.mp hreport
    have hstrategy := (h.remote session (hsessions ▸ .head _) g hg).1.strategy
    rw [h.result_eq hsessions hg hresult, hstrategy]
    rfl
  joined hphase hsome runId := by
    obtain ⟨session, others, hsessions⟩ := List.exists_cons_of_ne_nil hsome
    obtain ⟨g, hg⟩ := h.generator_of_finished hphase hsessions
    have hdone := h.joined hphase session (hsessions ▸ .head _) g hg
    simpa [Controller.report, Controller.remoteResult, hsessions, hg] using hdone

/-- The generator of the latest start. -/
def generator? (s : Injection) : Option Generator := s.controller.sessions.head?.bind (·.generator)

/-- A controller that has nobody to wait for finishes. -/
theorem finishes (hphase : s.controller.phase = .joining)
    (hdone : ∀ g, s.generator? = some g → g.result?.isSome = true) :
    ∃ s₁, s.step (.controller .act) = some s₁ ∧ s₁.controller.phase = .finished := by
  have hnobody : (s.controller.sessions.head?.bind Session.generator).any (·.result?.isNone) =
      false := by
    cases hg : s.generator? with
    | none => exact congrArg _ hg
    | some g =>
      rw [show s.controller.sessions.head?.bind Session.generator = some g from hg]
      have hsome := hdone g hg
      cases hresult : g.result? with
      | none => simp [hresult] at hsome
      | some => simp [hresult]
  simp [step, ControllerMove.isGenerators, Controller.step, Controller.act, hphase, hnobody]

end Injection

end InterruptStress
