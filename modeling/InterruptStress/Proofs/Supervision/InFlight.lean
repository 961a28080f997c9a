import InterruptStress.Proofs.Supervision.Ending

/-!
# Interrupts in flight

A generator looks whether its thread is alive, and sends its interrupt after that.  A `Linked`
controller takes the two for one.  Once it has finished they have to be kept apart: the generator of
an earlier start, for which nobody waits, may have found its thread alive before this was marked as
dead.  `InFlight` is a linked controller of which the generator of one session signals in two moves.

A generator that has been cut off sends at most the one interrupt that it had decided on
(`Linked.sendsAtMost_of_cutOff`), and a generator that has not been cut off can send one more
whatever it has decided (`Linked.cutOff_of_sendsAtMost`).
-/

namespace InterruptStress

/-- What the session's generator signals through is dead, or nobody takes its interrupts. -/
def Session.CutOff (session : Session) (link : Link) : Prop :=
  session.ref.alive = false ∨ link.commands.receiving = false

/-- A signal misses only a session that has been cut off. -/
theorem Session.cutOff_of_signal {session : Session} {link : Link} {e : SignalError}
    (h : session.ref.signal link.commands = .error e) : session.CutOff link := by
  unfold ThreadRef.signal at h
  split at h
  · unfold Channel.send at h
    split at h
    · cases h
    · next hdeaf => exact .inr (eq_false_of_ne_true hdeaf)
  · next hdead => exact .inl (eq_false_of_ne_true hdead)

namespace Linked

/-- The generator of a session is about to signal. -/
def isSending (s : Linked) (k : Nat) : Bool :=
  (s.controller.sessions[k]?.bind Session.generator).any (·.phase = .sending)

/-- How many interrupts the generator of a session has sent. -/
def sentBy (s : Linked) (k : Nat) : Nat := (s.controller.sessions[k]?.map Session.sent).getD 0

end Linked

/-- A generator does what it has to do next. -/
def LinkedMove.isTurnOf (k : Nat) : LinkedMove → Bool
  | .controller (.generator j) => j = k
  | _ => false

/-- A linked controller, and how far the generator of one session has got with a signal. -/
structure InFlight where
  linked : Linked
  /-- It has found its thread alive, and has not sent its interrupt yet. -/
  decided : Bool

inductive InFlightMove where
  | linked (m : LinkedMove)
  /-- The generator looks whether its thread is alive. -/
  | check
  /-- It sends the interrupt that it has decided on. -/
  | send

namespace InFlight

/-- The generator of a session takes the answer to its signal. -/
def answer (s : InFlight) (k : Nat) (result : Except SignalError Unit)
    (commands : Channel ControlCommand) : Option InFlight :=
  (s.linked.controller.onGenerator k (.signalled result)).map fun controller =>
    ⟨⟨controller, { s.linked.link with commands }⟩, false⟩

/-- What a move makes of a linked controller of which the generator of a session signals in two
moves, if it can happen. -/
def step (k : Nat) (s : InFlight) : InFlightMove → Option InFlight
  | .linked m =>
    if m.isTurnOf k && s.linked.isSending k then none
    else (s.linked.step m).map fun linked => { s with linked }
  | .check =>
    if s.decided || !s.linked.isSending k then none
    else
      s.linked.controller.sessions[k]?.bind fun session =>
        if session.ref.alive then some { s with decided := true }
        else s.answer k (.error (.illegalThreadState session.ref.id)) s.linked.link.commands
  | .send =>
    if s.decided then
      s.linked.controller.sessions[k]?.bind fun session =>
        match s.linked.link.commands.send (.interrupt session.ref.id) with
        | .ok commands => s.answer k (.ok ()) commands
        | .error e => s.answer k (.error e) s.linked.link.commands
    else none

end InFlight

namespace Linked

variable {s s' : Linked} {c c' : Controller} {link link' : Link} {k sent : Nat} {session : Session}
  {g : Generator} {decided : Bool}

/-- Whatever happens from here on, the generator of a session sends at most so many interrupts more,
if it has decided on one or not. -/
def SendsAtMost (s : Linked) (k count : Nat) (decided : Bool) : Prop :=
  (decided = true → s.isSending k = true) → ∀ later s',
    Execution (InFlight.step k) ⟨s, decided⟩ later s' → s'.linked.sentBy k ≤ s.sentBy k + count

/-- Whatever happens from here on, the generator of a session sends no interrupt any more. -/
def Hushed (s : Linked) (k : Nat) : Prop := ∀ decided, s.SendsAtMost k 0 decided

/-! ## A generator that has been cut off -/

/-- A controller has finished, and a session of it is cut off and has sent so many interrupts. -/
structure Silent (k sent : Nat) (s : Linked) : Prop where
  finished : s.controller.phase = .finished
  session : ∃ session, s.controller.sessions[k]? = some session ∧ session.CutOff s.link ∧
    session.sent = sent

theorem Silent.frame (h : Silent k sent s)
    (hcontroller : s'.controller = s.controller)
    (hreceiving : s.link.commands.receiving = false → s'.link.commands.receiving = false) :
    Silent k sent s' := by
  obtain ⟨session, hk, hcut, hsent⟩ := h.session
  exact ⟨hcontroller ▸ h.finished, session, hcontroller ▸ hk, hcut.imp_right hreceiving, hsent⟩

/-- One of the generators goes on, and sends so many interrupts. -/
theorem Silent.generator (h : Silent k sent ⟨c, link⟩) {j count : Nat} {g' : Generator}
    (hj : c.sessions[j]? = some session) (hg : session.generator = some g)
    (hreceiving : link'.commands.receiving = link.commands.receiving)
    (hsent : session.CutOff link → g'.sent = g.sent + count) :
    Silent k (if j = k then sent + count else sent)
      ⟨{ c with sessions := c.sessions.set j { session with generator := some g' } }, link'⟩ := by
  obtain ⟨hfinished, session', hk, hcut, hsame⟩ := h
  by_cases hjk : j = k
  · subst hjk
    obtain rfl : session = session' := Option.some.inj (hj.symm.trans hk)
    obtain ⟨hlt, -⟩ := List.getElem?_eq_some_iff.mp hj
    refine ⟨hfinished, _, List.getElem?_set_self hlt, hcut.imp_right (hreceiving.trans ·), ?_⟩
    rw [if_pos rfl, ← hsame, Session.sent_of hg]
    exact hsent hcut
  · refine ⟨hfinished, session', ?_, hcut.imp_right (hreceiving.trans ·), ?_⟩
    · rw [List.getElem?_set_ne hjk]
      exact hk
    · rw [if_neg hjk, hsame]

/-- One of the generators goes on, and sends nothing. -/
theorem Silent.quiet (h : Silent k sent ⟨c, link⟩) {j : Nat} {g' : Generator}
    (hj : c.sessions[j]? = some session) (hg : session.generator = some g)
    (hreceiving : link'.commands.receiving = link.commands.receiving)
    (hsent : session.CutOff link → g'.sent = g.sent) :
    Silent k sent
      ⟨{ c with sessions := c.sessions.set j { session with generator := some g' } }, link'⟩ := by
  have hsilent : Silent k (if j = k then sent + 0 else sent) _ :=
    h.generator hj hg hreceiving hsent
  rwa [Nat.add_zero, ite_self] at hsilent

/-- A controller never makes anybody take commands again. -/
theorem receiving_of_transition {m : ControllerMove} (ht : c.Transition link m c' link')
    (h : link'.commands.receiving = true) : link.commands.receiving = true := by
  cases ht with
  | send command => exact (queue_offer link.commands command).2.symm.trans h
  | signal _ _ _ _ _ _ _ hsent =>
    obtain ⟨-, -, rfl⟩ := ThreadRef.of_signal hsent
    exact h
  | force => exact (queue_offer link.commands _).2.symm.trans h
  | leave | finish =>
    dsimp only at h
    split at h <;> exact h
  | _ => exact h

theorem silent_transition {m : ControllerMove} (h : Silent k sent ⟨c, link⟩)
    (ht : c.Transition link m c' link') : Silent k sent ⟨c', link'⟩ := by
  have hover {phase : ControllerPhase} (hphase : c.phase = phase) (hne : phase ≠ .finished) :
      False := hne (hphase.symm.trans h.finished)
  cases ht with
  | take _ _ _ hphase | takeLast _ _ _ hphase | send _ _ hphase | startGenerator _ hphase
  | force hphase | leave hphase | finish hphase | takeVerdict _ hphase | giveUp hphase =>
    exact (hover hphase (by simp)).elim
  | takeNone writing hphase =>
    rcases hphase with hphase | hphase <;> exact (hover hphase (by simp)).elim
  | beginWatch | look | bark => exact ⟨h.finished, h.session⟩
  | signal j session g g' commands hj hg hsent hs =>
    obtain ⟨halive, hreceiving, rfl⟩ := ThreadRef.of_signal hsent
    refine h.quiet hj hg rfl fun hcut => ?_
    rcases hcut with hdead | hdeaf
    · rw [halive] at hdead
      cases hdead
    · rw [hreceiving] at hdeaf
      cases hdeaf
  | missSignal j session g g' e hj hg hmissed hs =>
    exact h.quiet hj hg rfl fun _ => (Generator.sent_step hs).2
  | pause m event j session g g' hm hj hg hs =>
    refine h.quiet hj hg rfl fun _ => (Generator.sent_step hs).2.trans ?_
    rcases hm with ⟨-, rfl⟩ | ⟨-, rfl⟩ <;> rfl

theorem silent_step {m : LinkedMove} (h : Silent k sent s) (hs : s.step m = some s') :
    Silent k sent s' ∧
      (s'.link.commands.receiving = true → s.link.commands.receiving = true) := by
  cases transition_of_step hs with
  | controller m c link ht => exact ⟨silent_transition h ht, receiving_of_transition ht⟩
  | say | fallSilent | takeCommand => exact ⟨h.frame rfl id, id⟩
  | close => exact ⟨h.frame rfl fun _ => rfl, nofun⟩
  | interrupt thread =>
    have hreceiving := (queue_offer s.link.commands (.interrupt thread)).2
    exact ⟨h.frame rfl hreceiving.trans, hreceiving.symm.trans⟩

end Linked

namespace InFlight

open Linked (Silent)

variable {s s' : InFlight} {m : InFlightMove} {k sent bound : Nat}

/-- How many interrupts may still come of what has been decided. -/
def outstanding (s : InFlight) : Nat :=
  if s.decided && s.linked.link.commands.receiving then 1 else 0

/-- A controller has finished, a session of it is cut off, and what it has sent is within a bound,
with what may still come. -/
def Spent (k bound : Nat) (s : InFlight) : Prop :=
  ∃ sent, Silent k sent s.linked ∧ sent + s.outstanding ≤ bound

/-- A generator takes an answer. -/
theorem silent_answer {result : Except SignalError Unit} {commands : Channel ControlCommand}
    (h : Silent k sent s.linked)
    (hreceiving : commands.receiving = s.linked.link.commands.receiving)
    (hs : s.answer k result commands = some s') :
    Silent k (sent + (GeneratorEvent.signalled result).isSending.toNat) s'.linked ∧
      s'.decided = false := by
  obtain ⟨controller, hcontroller, rfl⟩ := Option.map_eq_some_iff.mp hs
  obtain ⟨session, g, g', hk, hg, hgenerator, rfl⟩ := Controller.of_onGenerator hcontroller
  have hsilent : Silent k (if k = k then _ else sent) ⟨_, { s.linked.link with commands }⟩ :=
    h.generator hk hg hreceiving fun _ => (Generator.sent_step hgenerator).2
  rw [if_pos rfl] at hsilent
  exact ⟨hsilent, rfl⟩

/-- A signal that misses sends nothing. -/
theorem spent_of_missed {e : SignalError} (h : Silent k sent s.linked) (hbound : sent ≤ bound)
    (hs : s.answer k (.error e) s.linked.link.commands = some s') : Spent k bound s' := by
  obtain ⟨hsilent, hdecided⟩ := silent_answer h rfl hs
  refine ⟨sent, hsilent, ?_⟩
  rw [outstanding, hdecided]
  exact hbound

theorem spent_step (h : Spent k bound s) (hs : s.step k m = some s') : Spent k bound s' := by
  obtain ⟨sent, hsilent, hbound⟩ := h
  have hsent : sent ≤ bound := Nat.le_trans (Nat.le_add_right sent _) hbound
  obtain ⟨session, hk, hcut, -⟩ := hsilent.session
  cases m with
  | linked m =>
    rw [step, Option.ite_none_left_eq_some] at hs
    obtain ⟨linked, hlinked, rfl⟩ := Option.map_eq_some_iff.mp hs.2
    obtain ⟨hsilent', hreceiving⟩ := Linked.silent_step hsilent hlinked
    refine ⟨sent, hsilent', Nat.le_trans (Nat.add_le_add_left ?_ sent) hbound⟩
    unfold outstanding
    by_cases hopen : linked.link.commands.receiving = true
    · rw [hopen, hreceiving hopen]
    · rw [eq_false_of_ne_true hopen, Bool.and_false]
      exact Nat.zero_le _
  | check =>
    simp only [step, Option.ite_none_left_eq_some, hk, Option.bind_some] at hs
    obtain ⟨-, hs⟩ := hs
    split at hs
    · next halive =>
      -- it has been cut off from those who take its interrupts
      have hdeaf : s.linked.link.commands.receiving = false := by
        rcases hcut with hdead | hdeaf
        · rw [halive] at hdead
          cases hdead
        · exact hdeaf
      obtain rfl := Option.some.inj hs
      refine ⟨sent, hsilent, ?_⟩
      rw [outstanding, hdeaf, Bool.and_false]
      exact hsent
    · exact spent_of_missed hsilent hsent hs
  | send =>
    rw [step, Option.ite_none_right_eq_some, hk, Option.bind_some] at hs
    obtain ⟨hdecided, hs⟩ := hs
    by_cases hopen : s.linked.link.commands.receiving = true
    · simp only [Channel.send, if_pos hopen] at hs
      obtain ⟨hsilent', hdone⟩ := silent_answer hsilent (by rfl) hs
      rw [outstanding, hdecided, hopen] at hbound
      refine ⟨_, hsilent', ?_⟩
      rw [outstanding, hdone]
      exact hbound
    · simp only [Channel.send, if_neg hopen] at hs
      exact spent_of_missed hsilent hsent hs

end InFlight

namespace Linked

variable {s : Linked} {k : Nat} {session : Session} {g : Generator}

/-- A session that is cut off when the controller has finished sends no more than the one interrupt
that it may have decided on. -/
theorem sendsAtMost_of_cutOff (hphase : s.controller.phase = .finished)
    (hk : s.controller.sessions[k]? = some session) (hcut : session.CutOff s.link)
    (decided : Bool) : s.SendsAtMost k decided.toNat decided := by
  intro _ later s' hrun
  have hsent : s.sentBy k = session.sent := by rw [sentBy, hk, Option.map_some, Option.getD_some]
  have h : InFlight.Spent k (session.sent + decided.toNat) s' := by
    induction hrun with
    | nil =>
      refine ⟨session.sent, ⟨hphase, session, hk, hcut, rfl⟩, Nat.add_le_add_left ?_ _⟩
      rw [InFlight.outstanding]
      cases decided with
      | false => exact Nat.le_refl 0
      | true => split <;> decide
    | cons _ hs ih => exact InFlight.spent_step ih hs
  obtain ⟨sent, hsilent, hbound⟩ := h
  obtain ⟨session', hk', -, rfl⟩ := hsilent.session
  rw [hsent, sentBy, hk', Option.map_some, Option.getD_some]
  exact Nat.le_trans (Nat.le_add_right _ _) hbound

/-- A generator that has ended has decided on nothing. -/
theorem isSending_of_ended (hk : s.controller.sessions[k]? = some session)
    (hended : ∀ g, session.generator = some g → g.result?.isSome = true) :
    s.isSending k = false := by
  rw [isSending, hk, Option.bind_some]
  cases hg : session.generator with
  | none => rfl
  | some g =>
    have hresult := hended g hg
    have hphase : g.phase ≠ .sending := by
      intro hsending
      rw [Generator.result?, hsending] at hresult
      cases hresult
    rw [Option.any_some, decide_eq_false hphase]

/-- A generator that has been cut off and has ended sends nothing more. -/
theorem hushed_of_ended (hphase : s.controller.phase = .finished)
    (hk : s.controller.sessions[k]? = some session) (hcut : session.CutOff s.link)
    (hended : ∀ g, session.generator = some g → g.result?.isSome = true) : s.Hushed k
  | false => sendsAtMost_of_cutOff hphase hk hcut false
  | true => fun hdecided => by
    have hsending := hdecided rfl
    rw [isSending_of_ended hk hended] at hsending
    cases hsending

/-! ## A generator that has not been cut off -/

/-- A generator that is about to signal and has not been cut off sends an interrupt. -/
theorem exists_sent (hremote : g.Remote) (hk : s.controller.sessions[k]? = some session)
    (hg : session.generator = some g) (hsending : g.phase = .sending)
    (hcut : ¬ session.CutOff s.link) :
    ∃ later s', Execution (InFlight.step k) ⟨s, false⟩ later s' ∧
      s'.linked.sentBy k = g.sent + 1 := by
  obtain ⟨halive, hreceiving⟩ : session.ref.alive = true ∧ s.link.commands.receiving = true := by
    simpa [Session.CutOff] using hcut
  have hlocal : g.strategy.hasLocalGenerator = false := by rw [hremote.strategy]; rfl
  obtain ⟨hlt, -⟩ := List.getElem?_eq_some_iff.mp hk
  let sessions := s.controller.sessions.set k { session with
    generator := some { g with sent := g.sent + 1, phase := Generator.afterSending g.strategy } }
  let commands := { s.link.commands with
    queue := s.link.commands.queue ++ [ControlCommand.interrupt session.ref.id] }
  have hcheck : InFlight.step k ⟨s, false⟩ .check = some ⟨s, true⟩ := by
    simp [InFlight.step, isSending, hk, hg, hsending, halive]
  have hsend : InFlight.step k ⟨s, true⟩ .send =
      some ⟨⟨{ s.controller with sessions }, { s.link with commands }⟩, false⟩ := by
    simp [InFlight.step, InFlight.answer, Controller.onGenerator, hk, hg, hsending, Channel.send,
      hreceiving, Generator.step, hlocal, sessions, commands]
  refine ⟨_, _, (Execution.nil.cons hcheck).cons hsend, ?_⟩
  simp [sentBy, sessions, List.getElem?_set_self hlt, Session.sent]

/-- A pause of a generator can end. -/
theorem sending_of_paused (hk : s.controller.sessions[k]? = some session)
    (hg : session.generator = some g) (hpaused : g.phase = .pausing ∨ g.phase = .asleep) :
    ∃ s', s.step (.controller (.wake k)) = some s' ∧ s'.link = s.link ∧
      s'.controller.sessions[k]? =
        some { session with generator := some { g with phase := .sending } } := by
  obtain ⟨hlt, -⟩ := List.getElem?_eq_some_iff.mp hk
  let sessions := s.controller.sessions.set k
    { session with generator := some { g with phase := .sending } }
  refine ⟨⟨{ s.controller with sessions }, s.link⟩, ?_, rfl, ?_⟩
  · simp [step, Controller.step, Controller.onGenerator, hk, hg, Generator.step, hpaused, sessions]
  · simp [sessions, List.getElem?_set_self hlt]

/-- A generator that sends no more has been cut off, if it has not decided on an interrupt. -/
theorem cutOff_of_sendsAtMost (hremote : g.Remote) (hpaced : g.Paced)
    (hended : g.result?.isSome = true → session.CutOff s.link)
    (hk : s.controller.sessions[k]? = some session) (hg : session.generator = some g)
    (h : s.SendsAtMost k 0 false) : session.CutOff s.link := by
  by_contra hcut
  -- one more interrupt can be seen in the session
  have hmore {later : List (InFlight × InFlightMove)} {s' : InFlight}
      (hrun : Execution (InFlight.step k) ⟨s, false⟩ later s')
      (hsent : s'.linked.sentBy k = g.sent + 1) : False := by
    have hbound := h nofun later s' hrun
    rw [hsent, Nat.add_zero, sentBy, hk, Option.map_some, Option.getD_some,
      Session.sent_of hg] at hbound
    exact Nat.not_succ_le_self _ hbound
  have hwaking (hpaused : g.phase = .pausing ∨ g.phase = .asleep) : False := by
    obtain ⟨s₁, hwoken, hlink, hk₁⟩ := sending_of_paused hk hg hpaused
    have hremote₁ : Generator.Remote { g with phase := .sending } := ⟨hremote.strategy, nofun⟩
    have hstep : InFlight.step k ⟨s, false⟩ (.linked (.controller (.wake k))) =
        some ⟨s₁, false⟩ := by
      simp [InFlight.step, LinkedMove.isTurnOf, hwoken]
    obtain ⟨later, s', hrun, hsent⟩ := exists_sent hremote₁ hk₁ rfl rfl (hlink ▸ hcut)
    exact hmore ((Execution.nil.cons hstep).append hrun) hsent
  rcases hpaced with hsending | hpausing | hasleep | hdone
  · obtain ⟨later, s', hrun, hsent⟩ := exists_sent hremote hk hg hsending hcut
    exact hmore hrun hsent
  · exact hwaking (.inl hpausing)
  · exact hwaking (.inr hasleep)
  · exact hcut (hended hdone)

end Linked

end InterruptStress
