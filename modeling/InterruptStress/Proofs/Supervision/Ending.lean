import InterruptStress.Proofs.Supervision.Linked

/-!
# How a controller comes to its end

`Linked.Manned` is what every state has of the generators that a controller has started, however
often its target starts.  From it follows that a controller comes to its end whatever its target
does: it takes four turns for each event that it receives and eight more at most
(`Linked.turns_of_launch`), and can take one unless it listens to a target that says nothing and has
not gone (`Linked.turn_of_launch`).
-/

namespace InterruptStress

namespace Generator

/-- How many turns a generator takes to end, once its reference is dead. -/
def turnsToNotice (g : Generator) : Nat :=
  match g.phase with
  | .sending => 1
  | .asleep => 2
  | .pausing => 3
  | _ => 0

theorem turnsToNotice_le (g : Generator) : g.turnsToNotice ≤ 3 := by
  unfold turnsToNotice
  split <;> omega

end Generator

/-- The generator of the latest start. -/
def Controller.latest? (c : Controller) : Option Generator :=
  c.sessions.head?.bind Session.generator

namespace Linked

variable {s s' : Linked} {m : LinkedMove} {history : List (Linked × LinkedMove)}

/-! ## Generators -/

/-- What every state has of the generators that the controller has started. -/
structure Manned (c : Controller) : Prop where
  remote : ∀ session ∈ c.sessions, ∀ g, session.generator = some g → g.Remote ∧ g.Paced
  /-- Each start is given a generator in remote mode. -/
  starting : c.phase.acts.count .startGenerator =
    (!c.settings.mode.hasLocalGenerator && c.sessions.head?.any (·.generator.isNone)).toNat
  unmanned : c.settings.mode.hasLocalGenerator = true →
    ∀ session ∈ c.sessions, session.generator = none
  /-- The reference of the latest start is dead once the controller waits for its generator. -/
  dead : c.phase = .joining → c.sessions.head?.all (!·.ref.alive) = true
  joined : c.phase = .finished → c.latest?.any (·.result?.isNone) = false

theorem manned_start (settings : ControllerSettings) : Manned (.start settings) where
  remote := nofun
  starting := by simp [Controller.start, ControllerPhase.acts]
  unmanned _ := nofun
  dead := nofun
  joined := nofun

variable {c c' : Controller} {link link' : Link}

/-- A controller that does nothing to its sessions. -/
theorem Manned.frame (h : Manned c) (hsettings : c'.settings = c.settings)
    (hsessions : c'.sessions = c.sessions)
    (hacts : c'.phase.acts.count .startGenerator = c.phase.acts.count .startGenerator)
    (hdead : c'.phase = .joining → c.phase = .joining)
    (hjoined : c'.phase = .finished → c.latest?.any (·.result?.isNone) = false) : Manned c' where
  remote := by
    rw [hsessions]
    exact h.remote
  starting := by
    rw [hacts, hsettings, hsessions]
    exact h.starting
  unmanned := by
    rw [hsettings, hsessions]
    exact h.unmanned
  dead hphase := by
    rw [hsessions]
    exact h.dead (hdead hphase)
  joined hphase := by
    rw [Controller.latest?, hsessions]
    exact hjoined hphase

/-- A controller that does nothing to its sessions, and neither joins its generator nor ends. -/
theorem Manned.quiet (h : Manned c) (hsettings : c'.settings = c.settings)
    (hsessions : c'.sessions = c.sessions)
    (hacts : c'.phase.acts.count .startGenerator = c.phase.acts.count .startGenerator)
    (hjoining : c'.phase ≠ .joining) (hfinished : c'.phase ≠ .finished) : Manned c' :=
  h.frame hsettings hsessions hacts (fun hphase => absurd hphase hjoining)
    fun hphase => absurd hphase hfinished

/-- A controller that marks the latest main thread as dead. -/
theorem Manned.markDead (h : Manned c) {phase : ControllerPhase}
    (hacts : phase.acts.count .startGenerator = c.phase.acts.count .startGenerator)
    (hphase : phase ≠ .finished) : Manned { c.markDead with phase } where
  remote session hmem g hg := by
    obtain ⟨session', hmem', hsame⟩ := Controller.of_mem_markDead hmem
    exact h.remote session' hmem' g (hsame ▸ hg)
  starting := by
    rw [hacts, h.starting]
    simp only [Controller.markDead, Controller.modifyLatest]
    cases c.sessions <;> rfl
  unmanned hlocal session hmem := by
    obtain ⟨session', hmem', hsame⟩ := Controller.of_mem_markDead hmem
    exact hsame.trans (h.unmanned hlocal session' hmem')
  dead _ := by
    simp only [Controller.markDead, Controller.modifyLatest]
    cases c.sessions <;> rfl
  joined hfinished := absurd hfinished hphase

/-- One of the generators goes on. -/
theorem Manned.generator (h : Manned c) {k : Nat} {session : Session} {g g' : Generator}
    {event : GeneratorEvent} (hk : c.sessions[k]? = some session)
    (hg : session.generator = some g) (hs : g.step event = some g')
    (hevent : event.isHarmless = true) :
    Manned { c with sessions := c.sessions.set k { session with generator := some g' } } where
  remote session' hmem' g₁ hg₁ := by
    rcases List.mem_or_eq_of_mem_set hmem' with hmem | rfl
    · exact h.remote session' hmem g₁ hg₁
    · obtain ⟨hremote, -⟩ := h.remote session (List.mem_of_getElem? hk) g hg
      obtain rfl := Option.some.inj hg₁
      exact ⟨Generator.remote_step hremote hs hevent, Generator.paced_step hremote hs hevent⟩
  starting := by
    refine h.starting.trans ?_
    cases hsessions : c.sessions with
    | nil => rfl
    | cons latest others =>
      cases k with
      | zero =>
        obtain rfl : latest = session := by simpa [hsessions] using hk
        simp [hg]
      | succ k => rfl
  unmanned hlocal := by
    have hnone := h.unmanned hlocal session (List.mem_of_getElem? hk)
    rw [hg] at hnone
    cases hnone
  dead hphase := by
    have hdead := h.dead hphase
    cases hsessions : c.sessions with
    | nil => rfl
    | cons latest others =>
      cases k with
      | zero =>
        obtain rfl : latest = session := by simpa [hsessions] using hk
        rwa [hsessions] at hdead
      | succ k => rwa [hsessions] at hdead
  joined hphase := by
    have hjoined := h.joined hphase
    cases hsessions : c.sessions with
    | nil => rfl
    | cons latest others =>
      cases k with
      | zero =>
        obtain rfl : latest = session := by simpa [hsessions] using hk
        simp [Controller.latest?, hsessions, hg, Generator.result?_of_step hs] at hjoined
      | succ k => simpa [Controller.latest?, hsessions] using hjoined

theorem manned_handle (h : Manned c) (hphase : c.phase = .listening) (event : TargetEvent) :
    Manned (c.handle event) := by
  have hidle : c.phase.acts.count .startGenerator = 0 := by rw [hphase]; rfl
  cases event with
  | started thread =>
    refine ⟨fun session hmem g hg => ?_, ?_, fun hlocal session hmem => ?_, fun hjoining => ?_,
      fun hfinished => ?_⟩
    · rcases List.mem_cons.mp hmem with rfl | hmem
      · cases hg
      · exact h.remote session hmem g hg
    · simp only [Controller.handle, Controller.acts_acting, Controller.count_greeting]
      simp
    · rcases List.mem_cons.mp hmem with rfl | hmem
      · rfl
      · exact h.unmanned hlocal session hmem
    · simp only [Controller.handle, Controller.greeting] at hjoining
      split at hjoining <;> cases hjoining
    · exact absurd hfinished (Controller.acting_ne_finished _)
  | step thread location suspended =>
    refine h.frame rfl rfl ?_ (fun hjoining => ?_) (fun hfinished => ?_)
    · rw [hidle]
      cases suspended <;> rfl
    · cases suspended <;> cases hjoining
    · exact absurd hfinished (Controller.acting_ne_finished _)
  | threadDeath thread =>
    simp only [Controller.handle]
    split
    · exact h.markDead rfl (by simp [hphase])
    · exact h
  | death exit => exact h.frame rfl rfl rfl id h.joined
  | disconnected =>
    exact h.quiet rfl rfl hidle.symm (by simp [Controller.handle]) (by simp [Controller.handle])

theorem manned_transition {m : ControllerMove} (h : Manned c)
    (ht : c.Transition link m c' link') : Manned c' := by
  have hquiet {phase : ControllerPhase} (hphase : c.phase = phase)
      (hacts : phase.acts = []) : c.phase.acts.count .startGenerator = 0 := by
    rw [hphase, hacts]
    rfl
  cases ht with
  | take writing event rest hphase =>
    exact manned_handle (c := { c with log := c.log.record event writing })
      (h.frame rfl rfl rfl id h.joined) hphase event
  | takeLast writing event rest hphase =>
    have hidle := hquiet hphase rfl
    cases event with
    | disconnected =>
      exact h.quiet rfl rfl hidle.symm (by simp [Controller.drain]) (by simp [Controller.drain])
    | _ => exact h.frame rfl rfl rfl id h.joined
  | takeNone writing hphase =>
    have hidle : c.phase.acts.count .startGenerator = 0 := by
      rcases hphase with hphase | hphase <;> exact hquiet hphase rfl
    exact h.quiet rfl rfl hidle.symm (by simp) (by simp)
  | send command rest hphase =>
    refine h.frame rfl rfl ?_ (fun hjoining => ?_)
      (fun hfinished => absurd hfinished (Controller.acting_ne_finished _))
    · rw [Controller.acts_acting, hphase]
      exact (List.count_cons_of_ne (by simp)).symm
    · cases rest <;> cases hjoining
  | startGenerator rest hphase =>
    have hstarting := h.starting
    rw [hphase] at hstarting
    simp only [ControllerPhase.acts, List.count_cons_self] at hstarting
    cases hsessions : c.sessions with
    | nil => simp [hsessions] at hstarting
    | cons latest others =>
      have hmode : c.settings.mode.hasLocalGenerator = false := by
        refine eq_false_of_ne_true fun hlocal => ?_
        rw [hlocal] at hstarting
        simp at hstarting
      have hone := Bool.toNat_le
        (!c.settings.mode.hasLocalGenerator && c.sessions.head?.any (·.generator.isNone))
      refine ⟨fun session hmem g hg => ?_, ?_, fun hlocal => ?_, fun hjoining => ?_,
        fun hfinished => absurd hfinished (Controller.acting_ne_finished _)⟩
      · simp only [Controller.modifyLatest, hsessions] at hmem
        rcases List.mem_cons.mp hmem with rfl | hmem
        · obtain rfl := Option.some.inj hg
          exact ⟨Generator.remote_start, Generator.paced_start⟩
        · exact h.remote session (hsessions ▸ List.mem_cons_of_mem _ hmem) g hg
      · simp only [Controller.acts_acting, Controller.modifyLatest, hsessions]
        have hrest : rest.count .startGenerator = 0 := by omega
        simpa using hrest
      · simp [Controller.modifyLatest, hmode] at hlocal
      · cases rest <;> cases hjoining
  | force hphase => exact h.quiet rfl rfl (hquiet hphase rfl).symm (by simp) (by simp)
  | leave hphase => exact h.markDead (hquiet hphase rfl).symm (by simp)
  | finish hphase hdone =>
    exact h.frame rfl rfl (hquiet hphase rfl).symm (by simp) fun _ => hdone
  | takeVerdict report hphase => exact h.quiet rfl rfl (hquiet hphase rfl).symm (by simp) (by simp)
  | giveUp hphase => exact h.quiet rfl rfl (hquiet hphase rfl).symm (by simp) (by simp)
  | beginWatch | look | bark => exact h.frame rfl rfl rfl id h.joined
  | signal k session g g' commands hk hg hsent hs => exact h.generator hk hg hs rfl
  | missSignal k session g g' e hk hg hmissed hs =>
    exact h.generator hk hg hs (ThreadRef.isTargetGone_of_signal hmissed)
  | pause m event k session g g' hm hk hg hs =>
    refine h.generator hk hg hs ?_
    rcases hm with ⟨-, rfl⟩ | ⟨-, rfl⟩ <;> rfl

theorem manned_of_launch {settings : ControllerSettings}
    (hrun : Execution step (launch settings) history s) : Manned s.controller := by
  induction hrun with
  | nil => exact manned_start settings
  | cons _ hs ih =>
    cases transition_of_step hs with
    | controller m c link ht => exact manned_transition ih ht
    | _ => exact ih

/-! ## Turns -/

/-- A move by which the controller gets on, or its latest generator while it waits for that. -/
def isTurn (s : Linked) : LinkedMove → Bool
  | .controller (.receive _) | .controller .act | .controller .giveUp => true
  | .controller (.generator k) | .controller (.wake k) =>
    decide (k = 0 ∧ s.controller.phase = .joining)
  | _ => false

/-- How often the controller got on. -/
def turns (history : List (Linked × LinkedMove)) : Nat := history.countP fun e => e.1.isTurn e.2

/-- How many turns a controller has left if it receives nothing more. -/
def turnsLeft (c : Controller) : Nat :=
  match c.phase with
  | .listening => 8
  | .acting acts => 8 + acts.length
  | .forcing => 7
  | .draining => 6
  | .ending => 5
  | .joining => 1 + c.latest?.elim 0 Generator.turnsToNotice
  | .finished => 0

theorem turnsLeft_acting {acts : List ControllerAct} (h : c.phase = Controller.acting acts) :
    turnsLeft c = 8 + acts.length := by
  cases acts <;> simp [turnsLeft, h, Controller.acting]

theorem turnsLeft_handle (hphase : c.phase = .listening) (event : TargetEvent) :
    turnsLeft (c.handle event) ≤ 11 := by
  cases event with
  | started thread =>
    have hacting := turnsLeft_acting (c := c.handle (.started thread)) (by rfl)
    rw [hacting, Controller.greeting]
    split <;> simp
  | step thread location suspended =>
    have hacting := turnsLeft_acting (c := c.handle (.step thread location suspended)) (by rfl)
    rw [hacting]
    split <;> simp
  | threadDeath thread =>
    simp only [Controller.handle]
    split <;> simp [turnsLeft, Controller.markDead, Controller.modifyLatest, hphase]
  | death exit => simp [turnsLeft, Controller.handle, hphase]
  | disconnected => simp [turnsLeft, Controller.handle]

/-- Every step brings a generator nearer to its end that sends no more interrupts. -/
theorem turnsToNotice_step {g g' : Generator} {event : GeneratorEvent} (h : g.Remote)
    (hs : g.step event = some g') (hevent : event.isHarmless = true)
    (hmissed : event ≠ .signalled (.ok ())) : g'.turnsToNotice + 1 ≤ g.turnsToNotice := by
  cases Generator.remoteStep_of_step h hs hevent with
  | send => exact absurd rfl hmissed
  | quit e hphase hafter =>
    obtain ⟨result, hafter⟩ := Option.isSome_iff_exists.mp hafter
    have hfinished : g'.turnsToNotice = 0 := by
      unfold Generator.result? at hafter
      split at hafter
      · next hp => rw [Generator.turnsToNotice, hp]
      · cases hafter
    rw [hfinished, Generator.turnsToNotice, hphase]
  | doze hphase hafter => simp [Generator.turnsToNotice, hphase, hafter]
  | wake hphase hafter =>
    rcases hphase with hphase | hphase <;> simp [Generator.turnsToNotice, hphase, hafter]

theorem turnsLeft_generator (h : Manned c) {k : Nat} {session : Session} {g g' : Generator}
    {event : GeneratorEvent} (hk : c.sessions[k]? = some session)
    (hg : session.generator = some g) (hs : g.step event = some g')
    (hevent : event.isHarmless = true)
    (halive : event = .signalled (.ok ()) → session.ref.alive = true) :
    turnsLeft { c with sessions := c.sessions.set k { session with generator := some g' } } +
      (decide (k = 0 ∧ c.phase = .joining)).toNat ≤ turnsLeft c := by
  by_cases hjoining : c.phase = .joining
  · have hdead := h.dead hjoining
    simp only [turnsLeft, hjoining, Controller.latest?]
    cases hsessions : c.sessions with
    | nil => simp [hsessions] at hk
    | cons latest others =>
      cases k with
      | zero =>
        obtain rfl : latest = session := by simpa [hsessions] using hk
        obtain ⟨hremote, -⟩ := h.remote latest (List.mem_of_getElem? hk) g hg
        have hend := turnsToNotice_step hremote hs hevent fun hsent => by
          simp [hsessions, halive hsent] at hdead
        simp [hg]
        omega
      | succ k => simp
  · have hsame : turnsLeft
        { c with sessions := c.sessions.set k { session with generator := some g' } } =
          turnsLeft c := by
      unfold turnsLeft
      cases hphase : c.phase <;> first | rfl | exact absurd hphase hjoining
    simp [hsame, hjoining]

/-- Every turn is paid for, four of them by an event that is received. -/
theorem turns_transition {m : ControllerMove} {c : Controller} {link : Link}
    (h : Manned s.controller) (ht : s.controller.Transition s.link m c link) :
    turnsLeft c + (s.isTurn (.controller m)).toNat ≤
      turnsLeft s.controller + 4 * (s.eventReceived (.controller m)).length := by
  cases ht with
  | take writing event rest hphase hq =>
    have hnext := turnsLeft_handle (c := { s.controller with
      log := s.controller.log.record event writing }) hphase event
    have hnow : turnsLeft s.controller = 8 := by rw [turnsLeft, hphase]
    have hreceived : (s.eventReceived (.controller (.receive writing))).length = 1 := by
      rw [eventReceived, hq]
      rfl
    rw [hnow, hreceived, isTurn]
    exact Nat.succ_le_succ hnext
  | takeLast writing event rest hphase hq =>
    have hnow : turnsLeft s.controller = 6 := by rw [turnsLeft, hphase]
    have hreceived : (s.eventReceived (.controller (.receive writing))).length = 1 := by
      rw [eventReceived, hq]
      rfl
    rw [hnow, hreceived, isTurn]
    cases event <;> simp [turnsLeft, Controller.drain, hphase]
  | takeNone writing hphase hq =>
    refine Nat.le_trans ?_ (Nat.le_add_right _ _)
    rcases hphase with hphase | hphase <;> simp [turnsLeft, hphase, isTurn]
  | send command rest hphase | startGenerator rest hphase =>
    rw [turnsLeft_acting rfl]
    simp [turnsLeft, hphase, isTurn]
    omega
  | force hphase => simp [turnsLeft, hphase, isTurn]
  | leave hphase =>
    have hle : (s.controller.markDead.latest?).elim 0 Generator.turnsToNotice ≤ 3 := by
      cases s.controller.markDead.latest? with
      | none => exact Nat.zero_le _
      | some g => exact g.turnsToNotice_le
    simp only [turnsLeft, hphase, isTurn, Controller.latest?] at hle ⊢
    simp only [Bool.toNat_true]
    omega
  | finish hphase | takeVerdict report hphase | giveUp hphase =>
    refine Nat.le_trans ?_ (Nat.le_add_right _ _)
    simp [turnsLeft, hphase, isTurn]
  | beginWatch | look | bark => exact Nat.le_add_right _ _
  | signal k session g g' commands hk hg hsent hs =>
    refine Nat.le_trans ?_ (Nat.le_add_right _ _)
    exact turnsLeft_generator h hk hg hs rfl fun _ => (ThreadRef.of_signal hsent).1
  | missSignal k session g g' e hk hg hmissed hs =>
    refine Nat.le_trans ?_ (Nat.le_add_right _ _)
    exact turnsLeft_generator h hk hg hs (ThreadRef.isTargetGone_of_signal hmissed) (by simp)
  | pause m event k session g g' hm hk hg hs =>
    refine Nat.le_trans ?_ (Nat.le_add_right _ _)
    rcases hm with ⟨rfl, rfl⟩ | ⟨rfl, rfl⟩ <;> exact turnsLeft_generator h hk hg hs rfl (by simp)

/-- A controller takes four turns for each event that it receives and eight more at most. -/
theorem turns_of_launch {settings : ControllerSettings}
    (hrun : Execution step (launch settings) history s) :
    turns history + turnsLeft s.controller ≤ 4 * (received history).length + 8 := by
  induction hrun with
  | nil => exact Nat.le_refl 8
  | @cons history s s' m hrun hs ih =>
    have hstep : turnsLeft s'.controller + (s.isTurn m).toNat ≤
        turnsLeft s.controller + 4 * (s.eventReceived m).length := by
      cases transition_of_step hs with
      | controller m c link ht => exact turns_transition (manned_of_launch hrun) ht
      | _ => exact Nat.le_add_right _ _
    have hturns : turns ((s, m) :: history) = turns history + (s.isTurn m).toNat := by
      rw [turns, List.countP_cons]
      cases s.isTurn m <;> rfl
    rw [hturns, received_cons, List.length_append]
    omega

theorem turns_le_of_launch {settings : ControllerSettings}
    (hrun : Execution step (launch settings) history s) :
    turns history ≤ 4 * (said history).length + 8 := by
  have hturns := turns_of_launch hrun
  have hreceived := (stream_of_launch hrun).prefix_said.length_le
  rw [List.nil_append] at hreceived
  omega

/-! ## Who can take a turn -/

/-- A controller that acts has something to do. -/
theorem busy_transition {m : ControllerMove} (h : c.phase ≠ .acting [])
    (ht : c.Transition link m c' link') : c'.phase ≠ .acting [] := by
  have hacting (acts : List ControllerAct) : Controller.acting acts ≠ .acting [] := by
    cases acts <;> simp [Controller.acting]
  cases ht with
  | take writing event rest hphase =>
    cases event with
    | started | step => exact hacting _
    | threadDeath thread =>
      simp only [Controller.handle]
      split <;> exact h
    | death exit => exact h
    | disconnected => simp [Controller.handle]
  | takeLast writing event => cases event <;> first | exact h | simp [Controller.drain]
  | send | startGenerator => exact hacting _
  | takeNone | force | leave | finish | takeVerdict | giveUp => simp
  | beginWatch | look | bark | signal | missSignal | pause => exact h

theorem busy_of_launch {settings : ControllerSettings}
    (hrun : Execution step (launch settings) history s) : s.controller.phase ≠ .acting [] := by
  induction hrun with
  | nil => nofun
  | cons _ hs ih =>
    cases transition_of_step hs with
    | controller m c link ht => exact busy_transition ih ht
    | _ => exact ih

/-- A generator that has not ended can go on. -/
theorem exists_generator_turn (h : Manned s.controller) (hphase : s.controller.phase = .joining)
    {g : Generator} (hlatest : s.controller.latest? = some g) (hrunning : g.result? = none) :
    ∃ m, s.isTurn (.controller m) = true ∧ (s.step (.controller m)).isSome = true := by
  obtain ⟨session, hsession, hg⟩ := Option.bind_eq_some_iff.mp hlatest
  obtain ⟨others, hsessions⟩ := List.head?_eq_some_iff.mp hsession
  obtain ⟨hremote, hpaced⟩ := h.remote session (hsessions ▸ .head _) g hg
  have hlocal : g.strategy.hasLocalGenerator = false := by rw [hremote.strategy]; rfl
  rcases hpaced with hsending | hpausing | hasleep | hended
  · refine ⟨.generator 0, by simp [isTurn, hphase], ?_⟩
    cases hsignal : session.ref.signal s.link.commands with
    | ok commands =>
      simp [step, Controller.step, Controller.moveGenerator, Controller.onGenerator, hsessions, hg,
        hsending, hsignal, Generator.step, hlocal]
    | error e =>
      have hgone := ThreadRef.isTargetGone_of_signal hsignal
      simp [step, Controller.step, Controller.moveGenerator, Controller.onGenerator, hsessions, hg,
        hsending, hsignal, Generator.step, hlocal, hgone]
  · refine ⟨.generator 0, by simp [isTurn, hphase], ?_⟩
    simp [step, Controller.step, Controller.moveGenerator, Controller.onGenerator, hsessions, hg,
      hpausing, Generator.step]
  · refine ⟨.wake 0, by simp [isTurn, hphase], ?_⟩
    simp [step, Controller.step, Controller.onGenerator, hsessions, hg, hasleep, Generator.step]
  · rw [hrunning] at hended
    cases hended

/-- Until its end a controller can take a turn, unless it listens to a target that says nothing and
has not gone. -/
theorem turn_of_launch {settings : ControllerSettings}
    (hrun : Execution step (launch settings) history s) (hend : s.controller.phase ≠ .finished) :
    s.controller.phase = .listening ∧ s.link.events.queue = [] ∧ s.link.events.sending = true ∨
      ∃ m, s.isTurn (.controller m) = true ∧ (s.step (.controller m)).isSome = true := by
  cases hphase : s.controller.phase with
  | finished => exact absurd hphase hend
  | listening =>
    cases hq : s.link.events.queue with
    | cons event rest =>
      refine .inr ⟨.receive default, rfl, ?_⟩
      simp [step, Controller.step, Controller.receive, Channel.receive, hphase, hq]
    | nil =>
      cases hsending : s.link.events.sending with
      | true => exact .inl ⟨rfl, rfl, rfl⟩
      | false =>
        refine .inr ⟨.receive default, rfl, ?_⟩
        simp [step, Controller.step, Controller.receive, Channel.receive, hphase, hq, hsending]
  | acting acts =>
    cases acts with
    | nil => exact absurd hphase (busy_of_launch hrun)
    | cons next rest =>
      refine .inr ⟨.act, rfl, ?_⟩
      cases next <;> simp [step, Controller.step, Controller.act, hphase]
  | forcing | ending =>
    exact .inr ⟨.act, rfl, by simp [step, Controller.step, Controller.act, hphase]⟩
  | draining =>
    exact .inr ⟨.giveUp, rfl, by simp [step, Controller.step, Controller.giveUp, hphase]⟩
  | joining =>
    refine .inr ?_
    cases hdone : s.controller.latest?.any (·.result?.isNone) with
    | false =>
      refine ⟨.act, rfl, ?_⟩
      rw [Controller.latest?] at hdone
      simp [step, Controller.step, Controller.act, hphase, hdone]
    | true =>
      obtain ⟨g, hlatest, hrunning⟩ := (Option.any_eq_true _ _).mp hdone
      exact exists_generator_turn (manned_of_launch hrun) hphase hlatest
        (Option.isNone_iff_eq_none.mp hrunning)

end Linked

end InterruptStress
