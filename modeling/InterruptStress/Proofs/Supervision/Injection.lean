import InterruptStress.Proofs.Supervision.Signalling

/-!
# A signal in its stages

A generator that signals a thread reference does three things: it looks whether the thread is
still alive, it queues its interrupt, and it counts it.  `ThreadRef.signal` and
`Controller.moveGenerator` take the three for one.  Here they are separate moves of an
`Injection`, so that the controller may mark the thread as dead, and the target may close its end
of the command channel, between any two of them; the target is whatever says events and takes
commands.  The generator's pauses are sleeps on a token of its own.

`Injection.moves_of_generator` and `Injection.moves_of_wake` say that a controller that takes them
for one does nothing else: each of its generator's moves is made of moves of this system.
-/

namespace InterruptStress

/-- How far a generator has got with a signal. -/
inductive SignalStage where
  /-- It has not looked at its reference yet. -/
  | unchecked
  /-- It has found the thread alive, and has not sent anything yet. -/
  | cleared
  /-- It has its answer, and has not taken it into account yet. -/
  | answered (result : Except SignalError Unit)

/-- A controller and the generator that it starts, with a link to some target. -/
structure Injection where
  controller : Controller
  link : Link
  /-- The token of the generator's thread. -/
  stop : Token
  stage : SignalStage

/-- What can happen to a controller, to its generator and to their link. -/
inductive InjectionMove where
  /-- The controller moves, or its watchdog. -/
  | controller (m : ControllerMove)
  /-- The generator does what it has to do next. -/
  | advance
  /-- The generator's pause has run out of time. -/
  | expire
  /-- The generator's pause is disturbed for no reason. -/
  | stir
  /-- The target says something. -/
  | say (event : TargetEvent)
  /-- The last sender of events goes. -/
  | fallSilent
  /-- The target takes the first command that waits. -/
  | takeCommand
  /-- The target closes its end of the command channel. -/
  | close

/-- A move that is the generator's, not the controller's. -/
def ControllerMove.isGenerators : ControllerMove → Bool
  | .generator _ | .wake _ => true
  | _ => false

namespace InjectionMove

/-- The target says that it has started. -/
def isStart : InjectionMove → Bool
  | .say event => event.isStart
  | _ => false

/-- The generator takes a turn. -/
@[simp] def isTurn : InjectionMove → Bool
  | .advance | .expire => true
  | _ => false

@[simp] def isStir : InjectionMove → Bool
  | .stir => true
  | _ => false

end InjectionMove

/-! ## What a generator was doing when it went on -/

namespace Generator

variable {g g' : Generator}

theorem phase_of_signalled {result : Except SignalError Unit}
    (hs : g.step (.signalled result) = some g') : g.phase = .sending := by
  simp only [step] at hs
  split at hs
  · next h => exact h.1
  · cases hs

theorem phase_of_dozed (hs : g.step .dozed = some g') : g.phase = .pausing := by
  simp only [step] at hs
  split at hs
  · assumption
  · cases hs

theorem phase_of_slept {result : Except WaitError SleepOutcome}
    (hs : g.step (.slept result) = some g') : g.phase = .pausing ∨ g.phase = .asleep := by
  simp only [step] at hs
  split at hs
  · assumption
  · cases hs

end Generator

theorem Controller.sessions_of_getElem? {c : Controller} {session : Session}
    (hk : c.sessions[0]? = some session) : ∃ others, c.sessions = session :: others := by
  rw [← List.head?_eq_getElem?] at hk
  exact List.head?_eq_some_iff.mp hk

namespace Injection

/-- A controller that has just been given a link to its target. -/
def launch (settings : ControllerSettings) : Injection := ⟨.start settings, .new, .new, .unchecked⟩

/-- Lets an event happen to the generator. -/
def onGenerator (s : Injection) (event : GeneratorEvent) : Option Injection :=
  (s.controller.onGenerator 0 event).map fun controller => { s with controller }

/-- The generator goes on with its signal. -/
def signal (s : Injection) (ref : ThreadRef) : Option Injection :=
  match s.stage with
  | .unchecked =>
    if ref.alive then some { s with stage := .cleared }
    else some { s with stage := .answered (.error (.illegalThreadState ref.id)) }
  | .cleared =>
    match s.link.commands.send (.interrupt ref.id) with
    | .ok commands =>
      some { s with stage := .answered (.ok ()), link := { s.link with commands } }
    | .error e => some { s with stage := .answered (.error e) }
  | .answered result => { s with stage := .unchecked }.onGenerator (.signalled result)

/-- The generator looks at its own token to begin, to continue or to end its pause. -/
def look (s : Injection) (g : Generator) (expired : Bool) : Option Injection :=
  let (outcome, stop) := s.stop.look LocalRun.owner expired
  let s := { s with stop }
  match outcome, g.phase with
  | some outcome, _ => s.onGenerator (.slept (.ok outcome))
  | none, .pausing => s.onGenerator .dozed
  | none, _ => some s

/-- What a move of the generator makes of an injection, if it can happen. -/
def turn (s : Injection) (ref : ThreadRef) (g : Generator) : InjectionMove → Option Injection
  | .advance =>
    match g.phase with
    | .sending => s.signal ref
    | .pausing => s.look g false
    | .asleep => if s.stop.isWaiting LocalRun.owner then none else s.look g false
    | _ => none
  | .expire =>
    match g.phase with
    | .pausing | .asleep => s.look g true
    | _ => none
  | .stir =>
    match g.phase with
    | .asleep => some { s with stop := s.stop.stir LocalRun.owner }
    | _ => none
  | _ => none

/-- The reference that the generator of the latest start signals through, and the generator. -/
def signaller? (s : Injection) : Option (ThreadRef × Generator) :=
  s.controller.sessions.head?.bind fun session => session.generator.map (session.ref, ·)

/-- What a move makes of an injection, if it can happen. -/
def step (s : Injection) : InjectionMove → Option Injection
  | .controller m =>
    if m.isGenerators then none
    else (s.controller.step s.link m).map fun (controller, link) => { s with controller, link }
  | .say event =>
    if s.link.events.sending then
      some { s with link := { s.link with events := s.link.events.offer event } }
    else none
  | .fallSilent => some { s with link := { s.link with events := s.link.events.hangUp } }
  | .takeCommand =>
    match s.link.commands.receive with
    | (.item _, commands) => some { s with link := { s.link with commands } }
    | _ => none
  | .close => some { s with link := { s.link with commands := s.link.commands.close } }
  | m => s.signaller?.bind fun (ref, g) => s.turn ref g m

/-! ## What a move can be -/

/-- Gives the latest session a generator. -/
def withGenerator (s : Injection) (g : Generator) : Injection :=
  { s with controller := s.controller.modifyLatest fun session =>
      { session with generator := some g } }

/-- What a turn of the generator can be while nobody has interrupted its thread. -/
inductive Turn (s : Injection) (ref : ThreadRef) (g : Generator) :
    InjectionMove → Injection → Prop where
  /-- It finds the thread alive. -/
  | check (hphase : g.phase = .sending) (hstage : s.stage = .unchecked)
      (halive : ref.alive = true) :
      Turn s ref g .advance { s with stage := .cleared }
  /-- It finds the thread dead. -/
  | refuse (hphase : g.phase = .sending) (hstage : s.stage = .unchecked)
      (hdead : ref.alive = false) :
      Turn s ref g .advance { s with stage := .answered (.error (.illegalThreadState ref.id)) }
  /-- The command channel accepts its interrupt. -/
  | send (hphase : g.phase = .sending) (hstage : s.stage = .cleared)
      (hreceiving : s.link.commands.receiving = true) :
      Turn s ref g .advance
        { s with
          stage := .answered (.ok ())
          link := { s.link with commands := { s.link.commands with
            queue := s.link.commands.queue ++ [.interrupt ref.id] } } }
  /-- The command channel has been closed. -/
  | miss (hphase : g.phase = .sending) (hstage : s.stage = .cleared)
      (hdeaf : s.link.commands.receiving = false) :
      Turn s ref g .advance { s with stage := .answered (.error .disconnected) }
  /-- It takes the answer into account. -/
  | conclude (result : Except SignalError Unit) (g' : Generator) (hphase : g.phase = .sending)
      (hstage : s.stage = .answered result) (hs : g.step (.signalled result) = some g') :
      Turn s ref g .advance ({ s with stage := .unchecked }.withGenerator g')
  /-- It begins its pause. -/
  | doze (g' : Generator) (stop : Token) (hphase : g.phase = .pausing)
      (hs : g.step .dozed = some g') (hcalm : stop.pending = false)
      (hwaits : stop.isWaiting LocalRun.owner = true) :
      Turn s ref g .advance ({ s with stop }.withGenerator g')
  /-- It was disturbed, and sleeps on. -/
  | sleepOn (stop : Token) (hphase : g.phase = .asleep)
      (hstirred : s.stop.isWaiting LocalRun.owner = false) (hcalm : stop.pending = false)
      (hwaits : stop.isWaiting LocalRun.owner = true) :
      Turn s ref g .advance { s with stop }
  /-- Its pause is over. -/
  | wake (g' : Generator) (stop : Token) (hphase : g.phase = .pausing ∨ g.phase = .asleep)
      (hs : g.step (.slept (.ok .completed)) = some g') (hcalm : stop.pending = false) :
      Turn s ref g .expire ({ s with stop }.withGenerator g')
  | stir (hphase : g.phase = .asleep) :
      Turn s ref g .stir { s with stop := s.stop.stir LocalRun.owner }

/-- What each move can make of an injection while nobody has interrupted the generator's thread. -/
inductive Transition (s : Injection) : InjectionMove → Injection → Prop where
  | controller (m : ControllerMove) (c : Controller) (link : Link) (hm : m.isGenerators = false)
      (ht : s.controller.Transition s.link m c link) :
      Transition s (.controller m) { s with controller := c, link }
  | say (event : TargetEvent) (hsending : s.link.events.sending = true) :
      Transition s (.say event)
        { s with link := { s.link with events := s.link.events.offer event } }
  | fallSilent :
      Transition s .fallSilent { s with link := { s.link with events := s.link.events.hangUp } }
  | takeCommand (command : ControlCommand) (rest : List ControlCommand)
      (hq : s.link.commands.queue = command :: rest) :
      Transition s .takeCommand
        { s with link := { s.link with commands := { s.link.commands with queue := rest } } }
  | close :
      Transition s .close { s with link := { s.link with commands := s.link.commands.close } }
  | turn (m : InjectionMove) (s' : Injection) (session : Session) (others : List Session)
      (g : Generator) (hsessions : s.controller.sessions = session :: others)
      (hg : session.generator = some g) (ht : s.Turn session.ref g m s') :
      Transition s m s'

variable {s s' : Injection} {m : InjectionMove} {ref : ThreadRef} {session : Session}
  {others : List Session} {g g' : Generator} {event : GeneratorEvent}

theorem of_signaller? (h : s.signaller? = some (ref, g)) :
    ∃ session others, s.controller.sessions = session :: others ∧ session.generator = some g ∧
      session.ref = ref := by
  obtain ⟨session, hsession, h⟩ := Option.bind_eq_some_iff.mp h
  obtain ⟨others, hsessions⟩ := List.head?_eq_some_iff.mp hsession
  obtain ⟨g', hg, hpair⟩ := Option.map_eq_some_iff.mp h
  obtain ⟨rfl, rfl⟩ := Prod.mk.inj hpair
  exact ⟨session, others, hsessions, hg, rfl⟩

theorem signaller?_of (hsessions : s.controller.sessions = session :: others)
    (hg : session.generator = some g) : s.signaller? = some (session.ref, g) := by
  simp [signaller?, hsessions, hg]

theorem onGenerator_of (hsessions : s.controller.sessions = session :: others)
    (hg : session.generator = some g) (hs : g.step event = some g') :
    s.onGenerator event = some (s.withGenerator g') := by
  simp [onGenerator, Controller.onGenerator, withGenerator, Controller.modifyLatest, hsessions, hg,
    hs]

theorem of_onGenerator (hsessions : s.controller.sessions = session :: others)
    (hg : session.generator = some g) (h : s.onGenerator event = some s') :
    ∃ g', g.step event = some g' ∧ s' = s.withGenerator g' := by
  cases hs : g.step event with
  | none => simp [onGenerator, Controller.onGenerator, hsessions, hg, hs] at h
  | some g' =>
    rw [onGenerator_of hsessions hg hs] at h
    exact ⟨g', rfl, (Option.some.inj h).symm⟩

/-- A pause that has run out of time is over, if nobody has interrupted its thread. -/
theorem look_expired (hcalm : s.stop.pending = false) (g : Generator) :
    ∃ stop : Token, s.look g true = { s with stop }.onGenerator (.slept (.ok .completed)) ∧
      stop.pending = false := by
  refine ⟨(s.stop.look LocalRun.owner true).2, ?_, ?_⟩
  · simp [look, Token.look, hcalm]
  · simp [Token.look, hcalm]

/-- Any other pause begins, or goes on. -/
theorem look_early (hcalm : s.stop.pending = false) (g : Generator) :
    ∃ stop : Token, (g.phase = .pausing → s.look g false = { s with stop }.onGenerator .dozed) ∧
      (g.phase = .asleep → s.look g false = some { s with stop }) ∧
      stop.pending = false ∧ stop.isWaiting LocalRun.owner = true := by
  refine ⟨(s.stop.look LocalRun.owner false).2, fun hphase => ?_, fun hphase => ?_, ?_, ?_⟩
  · simp [look, Token.look, hcalm, hphase]
  · simp [look, Token.look, hcalm, hphase]
  · simp [Token.look, hcalm]
  · simp [Token.look, Token.isWaiting, hcalm]

theorem turn_of_signal (hsessions : s.controller.sessions = session :: others)
    (hg : session.generator = some g) (hphase : g.phase = .sending)
    (h : s.signal session.ref = some s') : s.Turn session.ref g .advance s' := by
  unfold signal at h
  split at h
  · next hstage =>
    split at h
    · next halive =>
      obtain rfl := Option.some.inj h
      exact .check hphase hstage halive
    · next hdead =>
      obtain rfl := Option.some.inj h
      exact .refuse hphase hstage (eq_false_of_ne_true hdead)
  · next hstage =>
    cases hreceiving : s.link.commands.receiving with
    | true =>
      simp only [Channel.send, hreceiving, if_true] at h
      obtain rfl := Option.some.inj h
      exact hreceiving ▸ .send hphase hstage hreceiving
    | false =>
      simp only [Channel.send, hreceiving, Bool.false_eq_true, if_false] at h
      obtain rfl := Option.some.inj h
      exact .miss hphase hstage hreceiving
  · next result hstage =>
    obtain ⟨g', hs, rfl⟩ := of_onGenerator (s := { s with stage := .unchecked }) hsessions hg h
    exact .conclude result g' hphase hstage hs

theorem turn_of_turn (hcalm : s.stop.pending = false)
    (hsessions : s.controller.sessions = session :: others) (hg : session.generator = some g)
    (h : s.turn session.ref g m = some s') : s.Turn session.ref g m s' := by
  cases m with
  | advance =>
    obtain ⟨stop, hpause, hsleep, hquiet, hwaits⟩ := look_early hcalm g
    simp only [turn] at h
    split at h
    · next hphase => exact turn_of_signal hsessions hg hphase h
    · next hphase =>
      rw [hpause hphase] at h
      obtain ⟨g', hs, rfl⟩ := of_onGenerator (s := { s with stop }) hsessions hg h
      exact .doze g' stop hphase hs hquiet hwaits
    · next hphase =>
      split at h
      · cases h
      · next hstirred =>
        rw [hsleep hphase] at h
        obtain rfl := Option.some.inj h
        exact .sleepOn stop hphase (eq_false_of_ne_true hstirred) hquiet hwaits
    · cases h
  | expire =>
    obtain ⟨stop, hlook, hquiet⟩ := look_expired hcalm g
    have hwoken (hphase : g.phase = .pausing ∨ g.phase = .asleep)
        (h : s.look g true = some s') : s.Turn session.ref g .expire s' := by
      rw [hlook] at h
      obtain ⟨g', hs, rfl⟩ := of_onGenerator (s := { s with stop }) hsessions hg h
      exact .wake g' stop hphase hs hquiet
    simp only [turn] at h
    split at h
    · next hphase => exact hwoken (.inl hphase) h
    · next hphase => exact hwoken (.inr hphase) h
    · cases h
  | stir =>
    simp only [turn] at h
    split at h
    · next hphase =>
      obtain rfl := Option.some.inj h
      exact .stir hphase
    · cases h
  | _ => cases h

/-- Every move that is made is one of the transitions. -/
theorem transition_of_step (hcalm : s.stop.pending = false) (h : s.step m = some s') :
    s.Transition m s' := by
  have hturn (h : (s.signaller?.bind fun (ref, g) => s.turn ref g m) = some s') :
      s.Transition m s' := by
    obtain ⟨⟨ref, g⟩, hsignaller, h⟩ := Option.bind_eq_some_iff.mp h
    obtain ⟨session, others, hsessions, hg, rfl⟩ := of_signaller? hsignaller
    exact .turn m s' session others g hsessions hg (turn_of_turn hcalm hsessions hg h)
  cases m with
  | controller m =>
    simp only [step] at h
    split at h
    · cases h
    · next hm =>
      obtain ⟨⟨c, link⟩, hs, rfl⟩ := Option.map_eq_some_iff.mp h
      exact .controller m c link (eq_false_of_ne_true hm) (Controller.transition_of_step hs)
  | advance | expire | stir => exact hturn h
  | say event =>
    simp only [step] at h
    split at h
    · next hsending =>
      obtain rfl := Option.some.inj h
      exact .say event hsending
    · cases h
  | fallSilent =>
    obtain rfl := Option.some.inj h
    exact .fallSilent
  | takeCommand =>
    simp only [step, Channel.receive] at h
    cases hq : s.link.commands.queue with
    | nil => cases hgone : s.link.commands.sending <;> simp [hq, hgone] at h
    | cons command rest =>
      obtain rfl : _ = s' := by simpa [hq] using h
      exact .takeCommand command rest hq
  | close =>
    obtain rfl := Option.some.inj h
    exact .close

/-! ## The stages taken for one -/

theorem step_advance (hsessions : s.controller.sessions = session :: others)
    (hg : session.generator = some g) : s.step .advance = s.turn session.ref g .advance := by
  simp [step, signaller?_of hsessions hg]

theorem step_expire (hsessions : s.controller.sessions = session :: others)
    (hg : session.generator = some g) : s.step .expire = s.turn session.ref g .expire := by
  simp [step, signaller?_of hsessions hg]

/-- A generator that sends goes on with its signal. -/
theorem step_sending (hsessions : s.controller.sessions = session :: others)
    (hg : session.generator = some g) (hphase : g.phase = .sending) :
    s.step .advance = s.signal session.ref := by
  rw [step_advance hsessions hg, turn, hphase]

/-- What `ThreadRef.signal` answers is the answer that the first stages come to, if nothing
happens between them. -/
theorem moves_of_signal (hsessions : s.controller.sessions = session :: others)
    (hg : session.generator = some g) (hphase : g.phase = .sending)
    (hstage : s.stage = .unchecked) :
    ∃ later, match session.ref.signal s.link.commands with
      | .ok commands =>
        Execution step s later
          { s with stage := .answered (.ok ()), link := { s.link with commands } }
      | .error e => Execution step s later { s with stage := .answered (.error e) } := by
  have hfirst := step_sending hsessions hg hphase
  simp only [signal, hstage] at hfirst
  cases halive : session.ref.alive with
  | false =>
    refine ⟨[(s, .advance)], ?_⟩
    simp only [ThreadRef.signal, halive, Bool.false_eq_true, if_false] at hfirst ⊢
    exact .cons .nil hfirst
  | true =>
    have hsecond := step_sending (s := { s with stage := .cleared }) hsessions hg hphase
    refine ⟨[({ s with stage := .cleared }, .advance), (s, .advance)], ?_⟩
    simp only [signal, ThreadRef.signal, halive, if_true] at hfirst hsecond ⊢
    split at hsecond
    · exact .cons (.cons .nil hfirst) hsecond
    · exact .cons (.cons .nil hfirst) hsecond

theorem withGenerator_of (hsessions : s.controller.sessions = session :: others) :
    s.withGenerator g' = { s with controller := { s.controller with
      sessions := s.controller.sessions.set 0 { session with generator := some g' } } } := by
  simp [withGenerator, Controller.modifyLatest, hsessions]

/-- An answer is taken into account. -/
theorem step_answered {result : Except SignalError Unit}
    (hsessions : s.controller.sessions = session :: others) (hg : session.generator = some g)
    (hstage : s.stage = .answered result) (hs : g.step (.signalled result) = some g') :
    s.step .advance = some { s with
      stage := .unchecked
      controller := { s.controller with
        sessions := s.controller.sessions.set 0 { session with generator := some g' } } } := by
  rw [step_sending hsessions hg (Generator.phase_of_signalled hs), signal, hstage]
  exact (onGenerator_of (s := { s with stage := .unchecked }) hsessions hg hs).trans
    (congrArg some (withGenerator_of (s := { s with stage := .unchecked }) hsessions))

/-- A generator's move that is made in one is made of moves of the generator here, if nothing
happens between them. -/
theorem moves_of_generator {c : Controller} {link : Link} (hstage : s.stage = .unchecked)
    (hcalm : s.stop.pending = false)
    (h : s.controller.step s.link (.generator 0) = some (c, link)) :
    ∃ later stop, Execution step s later { s with controller := c, link, stop } := by
  cases Controller.transition_of_step h with
  | signal _ session g g' commands hk hg hsent hs =>
    obtain ⟨others, hsessions⟩ := Controller.sessions_of_getElem? hk
    obtain ⟨later, hrun⟩ :=
      moves_of_signal hsessions hg (Generator.phase_of_signalled hs) hstage
    rw [hsent] at hrun
    have hcount := step_answered (s := { s with
      stage := .answered (.ok ()), link := { s.link with commands } }) hsessions hg rfl hs
    exact ⟨_, s.stop, hrun.cons (hstage ▸ hcount)⟩
  | missSignal _ session g g' e hk hg hmissed hs =>
    obtain ⟨others, hsessions⟩ := Controller.sessions_of_getElem? hk
    obtain ⟨later, hrun⟩ :=
      moves_of_signal hsessions hg (Generator.phase_of_signalled hs) hstage
    rw [hmissed] at hrun
    have hcount := step_answered (s := { s with stage := .answered (.error e) }) hsessions hg rfl hs
    exact ⟨_, s.stop, hrun.cons (hstage ▸ hcount)⟩
  | pause _ event k session g g' hm hk hg hs =>
    obtain ⟨rfl, rfl⟩ : k = 0 ∧ event = .dozed := by
      rcases hm with ⟨hm, hevent⟩ | ⟨hm, -⟩ <;> cases hm
      exact ⟨rfl, hevent⟩
    obtain ⟨others, hsessions⟩ := Controller.sessions_of_getElem? hk
    obtain ⟨stop, hpause, -⟩ := look_early hcalm g
    have hphase := Generator.phase_of_dozed hs
    refine ⟨[(s, .advance)], stop, .cons .nil ?_⟩
    rw [step_advance hsessions hg, turn, hphase]
    exact (hpause hphase).trans ((onGenerator_of (s := { s with stop }) hsessions hg hs).trans
      (congrArg some (withGenerator_of (s := { s with stop }) hsessions)))

/-- So is the end of its pause. -/
theorem moves_of_wake {c : Controller} {link : Link} (hcalm : s.stop.pending = false)
    (h : s.controller.step s.link (.wake 0) = some (c, link)) :
    ∃ later stop, Execution step s later { s with controller := c, link, stop } := by
  cases Controller.transition_of_step h with
  | pause _ event k session g g' hm hk hg hs =>
    obtain ⟨rfl, rfl⟩ : k = 0 ∧ event = .slept (.ok .completed) := by
      rcases hm with ⟨hm, -⟩ | ⟨hm, hevent⟩ <;> cases hm
      exact ⟨rfl, hevent⟩
    obtain ⟨others, hsessions⟩ := Controller.sessions_of_getElem? hk
    obtain ⟨stop, hlook, -⟩ := look_expired hcalm g
    refine ⟨[(s, .expire)], stop, .cons .nil ?_⟩
    have hturn : s.turn session.ref g .expire = s.look g true := by
      rcases Generator.phase_of_slept hs with hphase | hphase <;> rw [turn, hphase]
    rw [step_expire hsessions hg, hturn, hlook]
    exact (onGenerator_of (s := { s with stop }) hsessions hg hs).trans
      (congrArg some (withGenerator_of (s := { s with stop }) hsessions))

end Injection

end InterruptStress
