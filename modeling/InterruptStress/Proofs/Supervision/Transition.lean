import InterruptStress.Supervision.Controller

/-!
# What a move makes of a controller

`Controller.Transition` says from outside what a move of a controller can be, one rule for each
thing that can happen, with what becomes of its link to the target.
-/

namespace InterruptStress

namespace Controller

/-- What each move can make of a controller and of its link. -/
inductive Transition (c : Controller) (link : Link) :
    ControllerMove → Controller → Link → Prop where
  /-- It takes an event and begins to answer it. -/
  | take (writing : Writing) (event : TargetEvent) (rest : List TargetEvent)
      (hphase : c.phase = .listening) (hq : link.events.queue = event :: rest) :
      Transition c link (.receive writing)
        ({ c with log := c.log.record event writing }.handle event)
        { link with events := { link.events with queue := rest } }
  /-- It takes an event of a target that was told to exit. -/
  | takeLast (writing : Writing) (event : TargetEvent) (rest : List TargetEvent)
      (hphase : c.phase = .draining) (hq : link.events.queue = event :: rest) :
      Transition c link (.receive writing)
        ({ c with log := c.log.record event writing }.drain event)
        { link with events := { link.events with queue := rest } }
  /-- It finds that no event follows. -/
  | takeNone (writing : Writing) (hphase : c.phase = .listening ∨ c.phase = .draining)
      (hq : link.events.queue = []) (hsilent : link.events.sending = false) :
      Transition c link (.receive writing) { c with phase := .ending } link
  | send (command : ControlCommand) (rest : List ControllerAct)
      (hphase : c.phase = .acting (.send command :: rest)) :
      Transition c link .act { c with phase := acting rest }
        { link with commands := link.commands.offer command }
  | startGenerator (rest : List ControllerAct)
      (hphase : c.phase = .acting (.startGenerator :: rest)) :
      Transition c link .act
        { c.modifyLatest fun s => { s with generator := some (.start .remote) } with
          phase := acting rest }
        link
  | force (hphase : c.phase = .forcing) :
      Transition c link .act { c with phase := .draining }
        { link with commands := link.commands.offer (.exit TargetExit.forcedCode) }
  | leave (hphase : c.phase = .ending) :
      Transition c link .act { c.markDead with phase := .joining }
        { link with
          commands := if c.sessions.isEmpty then link.commands.hangUp else link.commands }
  | finish (hphase : c.phase = .joining)
      (hdone : (c.sessions.head?.bind Session.generator).any (·.result?.isNone) = false) :
      Transition c link .act { c with phase := .finished, watch := .over }
        ⟨link.events.close, if c.hasSenders then link.commands else link.commands.hangUp⟩
  | beginWatch (now : Nat) (hwatch : c.watch = .spawned) :
      Transition c link (.beginWatch now)
        { c with watch := .watching (.start c.settings.interval c.steps now) } link
  /-- The watchdog sees the count move. -/
  | look (now : Nat) (w w' : Watchdog) (hwatch : c.watch = .watching w)
      (hmoved : w.look c.steps now = .ok w') :
      Transition c link (.look now) { c with watch := .watching w' } link
  | bark (now : Nat) (w : Watchdog) (report : HangReport) (hwatch : c.watch = .watching w)
      (hstill : w.look c.steps now = .error report) :
      Transition c link (.look now) { c with watch := .hung report } link
  | takeVerdict (report : HangReport) (hphase : c.phase = .listening)
      (hwatch : c.watch = .hung report) :
      Transition c link .takeVerdict
        { c with phase := .forcing, watch := .over, hang := some report } link
  | giveUp (hphase : c.phase = .draining) :
      Transition c link .giveUp { c with phase := .ending } link
  /-- A generator interrupts the target's main thread. -/
  | signal (k : Nat) (session : Session) (g g' : Generator) (commands : Channel ControlCommand)
      (hk : c.sessions[k]? = some session) (hg : session.generator = some g)
      (hsent : session.ref.signal link.commands = .ok commands)
      (hs : g.step (.signalled (.ok ())) = some g') :
      Transition c link (.generator k)
        { c with sessions := c.sessions.set k { session with generator := some g' } }
        { link with commands }
  | missSignal (k : Nat) (session : Session) (g g' : Generator) (e : SignalError)
      (hk : c.sessions[k]? = some session) (hg : session.generator = some g)
      (hmissed : session.ref.signal link.commands = .error e)
      (hs : g.step (.signalled (.error e)) = some g') :
      Transition c link (.generator k)
        { c with sessions := c.sessions.set k { session with generator := some g' } } link
  /-- A generator's pause begins or is over. -/
  | pause (m : ControllerMove) (event : GeneratorEvent) (k : Nat) (session : Session)
      (g g' : Generator)
      (hm : m = .generator k ∧ event = .dozed ∨ m = .wake k ∧ event = .slept (.ok .completed))
      (hk : c.sessions[k]? = some session) (hg : session.generator = some g)
      (hs : g.step event = some g') :
      Transition c link m
        { c with sessions := c.sessions.set k { session with generator := some g' } } link

variable {c c' : Controller} {link link' : Link} {m : ControllerMove}

theorem of_onGenerator {k : Nat} {event : GeneratorEvent} (h : c.onGenerator k event = some c') :
    ∃ session g g', c.sessions[k]? = some session ∧ session.generator = some g ∧
      g.step event = some g' ∧
      c' = { c with sessions := c.sessions.set k { session with generator := some g' } } := by
  obtain ⟨session, hk, h⟩ := Option.bind_eq_some_iff.mp h
  obtain ⟨g', hg', h⟩ := Option.bind_eq_some_iff.mp h
  obtain ⟨g, hg, hs⟩ := Option.bind_eq_some_iff.mp hg'
  exact ⟨session, g, g', hk, hg, hs, (Option.some.inj h).symm⟩

theorem transition_of_receive {writing : Writing} (h : c.receive link writing = some (c', link')) :
    c.Transition link (.receive writing) c' link' := by
  have hphase : c.phase = .listening ∨ c.phase = .draining := by
    unfold receive at h
    cases hphase : c.phase with
    | listening => exact .inl rfl
    | draining => exact .inr rfl
    | _ => simp [hphase] at h
  cases hq : link.events.queue with
  | nil =>
    cases hsilent : link.events.sending with
    | true => rcases hphase with hphase | hphase <;>
        simp [receive, Channel.receive, hphase, hq, hsilent] at h
    | false =>
      obtain ⟨rfl, rfl⟩ : { c with phase := .ending } = c' ∧ link = link' := by
        rcases hphase with hphase | hphase <;>
          simpa [receive, Channel.receive, hphase, hq, hsilent] using h
      exact .takeNone writing hphase hq hsilent
  | cons event rest =>
    rcases hphase with hphase | hphase
    · have htaken : c.receive link writing =
          some ({ c with log := c.log.record event writing }.handle event,
            { link with events := { link.events with queue := rest } }) := by
        simp [receive, Channel.receive, hphase, hq]
      obtain ⟨rfl, rfl⟩ := Prod.mk.inj (Option.some.inj (htaken.symm.trans h))
      exact .take writing event rest hphase hq
    · have htaken : c.receive link writing =
          some ({ c with log := c.log.record event writing }.drain event,
            { link with events := { link.events with queue := rest } }) := by
        simp [receive, Channel.receive, hphase, hq]
      obtain ⟨rfl, rfl⟩ := Prod.mk.inj (Option.some.inj (htaken.symm.trans h))
      exact .takeLast writing event rest hphase hq

theorem transition_of_act (h : c.act link = some (c', link')) :
    c.Transition link .act c' link' := by
  unfold act at h
  split at h
  · next command rest hphase =>
    obtain ⟨rfl, rfl⟩ := Prod.mk.inj (Option.some.inj h)
    exact .send command rest hphase
  · next rest hphase =>
    obtain ⟨rfl, rfl⟩ := Prod.mk.inj (Option.some.inj h)
    exact .startGenerator rest hphase
  · next hphase =>
    obtain ⟨rfl, rfl⟩ := Prod.mk.inj (Option.some.inj h)
    exact .force hphase
  · next hphase =>
    obtain ⟨rfl, rfl⟩ := Prod.mk.inj (Option.some.inj h)
    exact .leave hphase
  · next hphase =>
    split at h
    · cases h
    · next hdone =>
      obtain ⟨rfl, rfl⟩ := Prod.mk.inj (Option.some.inj h)
      exact .finish hphase (eq_false_of_ne_true hdone)
  · cases h

theorem transition_of_moveGenerator {k : Nat} (h : c.moveGenerator link k = some (c', link')) :
    c.Transition link (.generator k) c' link' := by
  obtain ⟨session, hk, h⟩ := Option.bind_eq_some_iff.mp h
  obtain ⟨g, hg, h⟩ := Option.bind_eq_some_iff.mp h
  have hsame {session' : Session} {g' : Generator} (hk' : c.sessions[k]? = some session')
      (hg' : session'.generator = some g') : session' = session ∧ g' = g := by
    obtain rfl : session = session' := Option.some.inj (hk.symm.trans hk')
    exact ⟨rfl, Option.some.inj (hg'.symm.trans hg)⟩
  split at h
  · split at h
    · next commands hsent =>
      obtain ⟨c', hc, h⟩ := Option.map_eq_some_iff.mp h
      obtain ⟨rfl, rfl⟩ := Prod.mk.inj h
      obtain ⟨session', g₁, g', hk', hg', hs, rfl⟩ := of_onGenerator hc
      obtain ⟨rfl, rfl⟩ := hsame hk' hg'
      exact .signal k session' g₁ g' commands hk hg hsent hs
    · next e hmissed =>
      obtain ⟨c', hc, h⟩ := Option.map_eq_some_iff.mp h
      obtain ⟨rfl, rfl⟩ := Prod.mk.inj h
      obtain ⟨session', g₁, g', hk', hg', hs, rfl⟩ := of_onGenerator hc
      obtain ⟨rfl, rfl⟩ := hsame hk' hg'
      exact .missSignal k session' g₁ g' e hk hg hmissed hs
  · obtain ⟨c', hc, h⟩ := Option.map_eq_some_iff.mp h
    obtain ⟨rfl, rfl⟩ := Prod.mk.inj h
    obtain ⟨session', g₁, g', hk', hg', hs, rfl⟩ := of_onGenerator hc
    exact .pause _ _ k session' g₁ g' (.inl ⟨rfl, rfl⟩) hk' hg' hs
  · cases h

/-- Every move that is made is one of the transitions. -/
theorem transition_of_step (h : c.step link m = some (c', link')) :
    c.Transition link m c' link' := by
  cases m with
  | receive writing => exact transition_of_receive h
  | act => exact transition_of_act h
  | generator k => exact transition_of_moveGenerator h
  | beginWatch now =>
    obtain ⟨c', hc, h⟩ := Option.map_eq_some_iff.mp h
    obtain ⟨rfl, rfl⟩ := Prod.mk.inj h
    unfold Controller.beginWatch at hc
    split at hc
    · next hwatch =>
      obtain rfl := Option.some.inj hc
      exact .beginWatch now hwatch
    · cases hc
  | look now =>
    obtain ⟨c', hc, h⟩ := Option.map_eq_some_iff.mp h
    obtain ⟨rfl, rfl⟩ := Prod.mk.inj h
    unfold Controller.look at hc
    split at hc
    · next w hwatch =>
      split at hc
      · next report hstill =>
        obtain rfl := Option.some.inj hc
        exact .bark now w report hwatch hstill
      · next w' hmoved =>
        obtain rfl := Option.some.inj hc
        exact .look now w w' hwatch hmoved
    · cases hc
  | takeVerdict =>
    obtain ⟨c', hc, h⟩ := Option.map_eq_some_iff.mp h
    obtain ⟨rfl, rfl⟩ := Prod.mk.inj h
    unfold Controller.takeVerdict at hc
    split at hc
    · next report hphase hwatch =>
      obtain rfl := Option.some.inj hc
      exact .takeVerdict report hphase hwatch
    · cases hc
  | giveUp =>
    obtain ⟨c', hc, h⟩ := Option.map_eq_some_iff.mp h
    obtain ⟨rfl, rfl⟩ := Prod.mk.inj h
    unfold Controller.giveUp at hc
    split at hc
    · next hphase =>
      obtain rfl := Option.some.inj hc
      exact .giveUp hphase
    · cases hc
  | wake k =>
    obtain ⟨c', hc, h⟩ := Option.map_eq_some_iff.mp h
    obtain ⟨rfl, rfl⟩ := Prod.mk.inj h
    obtain ⟨session, g, g', hk, hg, hs, rfl⟩ := of_onGenerator hc
    exact .pause _ _ k session g g' (.inr ⟨rfl, rfl⟩) hk hg hs

theorem settings_handle (event : TargetEvent) : (c.handle event).settings = c.settings := by
  cases event with
  | threadDeath thread =>
    simp only [handle]
    split <;> rfl
  | _ => rfl

theorem hang_handle (event : TargetEvent) : (c.handle event).hang = c.hang := by
  cases event with
  | threadDeath thread =>
    simp only [handle]
    split <;> rfl
  | _ => rfl

theorem settings_transition (h : c.Transition link m c' link') : c'.settings = c.settings := by
  cases h with
  | take writing event => exact settings_handle event
  | takeLast writing event => cases event <;> rfl
  | _ => rfl

/-- A hang is reported when the verdict is taken, and the report is kept. -/
theorem hang_transition (h : c.Transition link m c' link') :
    m ≠ .takeVerdict ∧ c'.hang = c.hang ∨ m = .takeVerdict ∧ c'.hang.isSome = true := by
  cases h with
  | take writing event => exact .inl ⟨by simp, hang_handle event⟩
  | takeLast writing event => exact .inl ⟨by simp, by cases event <;> rfl⟩
  | takeVerdict => exact .inr ⟨rfl, rfl⟩
  | pause m _ _ _ _ _ hm =>
    refine .inl ⟨?_, rfl⟩
    rcases hm with ⟨rfl, -⟩ | ⟨rfl, -⟩ <;> simp
  | _ => exact .inl ⟨by simp, rfl⟩

end Controller

end InterruptStress
