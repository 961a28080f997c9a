import InterruptStress.Proofs.Supervision.InFlight

/-!
# What a controller leaves behind

A controller keeps the reference and the generator of its target's latest start only.  It marks
that reference as dead and waits for that generator before it ends.  Of an earlier start nothing is
done any more: its reference is dead only if the thread's death was heeded before the next start
came, and nobody waits for its generator.  `Linked.leftovers_of_launch` says what becomes of every
start: if the reference has been left alive and the target still takes commands, the generator goes
on sending interrupts after the controller has ended, and otherwise it sends no more than the one
interrupt that it may have decided on before (`Linked.SendsAtMost`).  A target that starts once
leaves nothing behind.
-/

namespace InterruptStress

/-! ## References to main threads -/

namespace ThreadRef

/-- What an event makes of the references to a target's main threads, the latest first. -/
def heed (refs : List ThreadRef) : TargetEvent → List ThreadRef
  | .started thread => .new thread :: refs
  | .threadDeath thread =>
    refs.modifyHead fun ref => if ref.id = thread then ref.markDead else ref
  | _ => refs

/-- Whether a thread is said to have died before the next start. -/
def diesIn (thread : ThreadId) (events : List TargetEvent) : Bool :=
  (events.takeWhile (!·.isStart)).contains (.threadDeath thread)

theorem diesIn_cons (thread : ThreadId) (event : TargetEvent) (events : List TargetEvent) :
    diesIn thread (event :: events) =
      (!event.isStart && (decide (event = .threadDeath thread) || diesIn thread events)) := by
  cases hstart : event.isStart with
  | true => simp [diesIn, hstart]
  | false => simp [diesIn, hstart, eq_comm]

/-- News of later threads are no news of an earlier one. -/
theorem foldl_heed (ref : ThreadRef) (older : List ThreadRef) (events : List TargetEvent) :
    ∃ newer, newer.length = events.countP TargetEvent.isStart ∧
      events.foldl heed (ref :: older) =
        newer ++ ⟨ref.id, ref.alive && !diesIn ref.id events⟩ :: older := by
  induction events generalizing ref older with
  | nil => exact ⟨[], rfl, by simp [diesIn]⟩
  | cons event events ih =>
    cases event with
    | started thread =>
      obtain ⟨newer, hlength, hrefs⟩ := ih (.new thread) (ref :: older)
      refine ⟨newer ++ [⟨thread, !diesIn thread events⟩], ?_, ?_⟩
      · rw [List.length_append, hlength, List.countP_cons]
        rfl
      · rw [List.foldl_cons, heed, hrefs]
        simp [diesIn_cons, TargetEvent.isStart, new]
    | threadDeath thread =>
      obtain ⟨newer, hlength, hrefs⟩ := ih (if ref.id = thread then ref.markDead else ref) older
      refine ⟨newer, hlength, ?_⟩
      rw [List.foldl_cons, heed, List.modifyHead_cons, hrefs]
      by_cases hid : ref.id = thread
      · simp [diesIn_cons, TargetEvent.isStart, markDead, hid]
      · simp [diesIn_cons, TargetEvent.isStart, hid, Ne.symm hid]
    | _ =>
      obtain ⟨newer, hlength, hrefs⟩ := ih ref older
      exact ⟨newer, hlength, by simpa [heed, diesIn_cons, TargetEvent.isStart] using hrefs⟩

/-- There is one reference for each start. -/
theorem length_foldl_heed (refs : List ThreadRef) (events : List TargetEvent) :
    (events.foldl heed refs).length = refs.length + events.countP TargetEvent.isStart := by
  induction events generalizing refs with
  | nil => rfl
  | cons event events ih =>
    rw [List.foldl_cons, ih, List.countP_cons]
    cases event <;> simp [heed, TargetEvent.isStart]; omega

end ThreadRef

namespace Controller

variable {c : Controller} {session : Session}

theorem map_ref_markDead (c : Controller) : c.markDead.sessions.map Session.ref =
    (c.sessions.map Session.ref).modifyHead ThreadRef.markDead := by
  simp only [markDead, modifyLatest]
  cases c.sessions <;> rfl

/-- An event makes of the references what can be read off the events. -/
theorem map_ref_handle (c : Controller) (event : TargetEvent) :
    (c.handle event).sessions.map Session.ref =
      ThreadRef.heed (c.sessions.map Session.ref) event := by
  cases event with
  | threadDeath thread =>
    simp only [handle]
    cases hsessions : c.sessions with
    | nil => simp [hsessions, ThreadRef.heed]
    | cons latest older =>
      by_cases hid : latest.ref.id = thread <;>
        simp [hsessions, hid, ThreadRef.heed, markDead, modifyLatest]
  | _ => rfl

theorem map_ref_set {k : Nat} {generator : Option Generator} (hk : c.sessions[k]? = some session) :
    (c.sessions.set k { session with generator }).map Session.ref =
      c.sessions.map Session.ref := by
  obtain ⟨hlt, rfl⟩ := List.getElem?_eq_some_iff.mp hk
  have hlt' : k < (c.sessions.map Session.ref).length := by simpa using hlt
  have hself := List.set_getElem_self hlt'
  rw [List.getElem_map] at hself
  rw [List.map_set]
  exact hself

/-- Only a reference that is dead then is changed when the latest one is marked. -/
theorem mem_or_dead_of_mem_markDead (h : session ∈ c.markDead.sessions) :
    session ∈ c.sessions ∨ session.ref.alive = false := by
  simp only [markDead, modifyLatest] at h
  cases hsessions : c.sessions with
  | nil => simp [hsessions] at h
  | cons latest older =>
    rw [hsessions] at h
    rcases List.mem_cons.mp h with rfl | hmem
    · exact .inr rfl
    · exact .inl (.tail _ hmem)

end Controller

/-- The controller has given up its reference to the target's main thread. -/
def ControllerPhase.hasLeft : ControllerPhase → Bool
  | .joining | .finished => true
  | _ => false

@[simp] theorem Controller.hasLeft_acting (acts : List ControllerAct) :
    (Controller.acting acts).hasLeft = false := by
  cases acts <;> rfl

theorem Controller.hasLeft_handle {c : Controller} (event : TargetEvent)
    (hphase : c.phase = .listening) : (c.handle event).phase.hasLeft = false := by
  cases event with
  | threadDeath thread =>
    simp only [handle]
    split <;> simp [markDead, modifyLatest, hphase, ControllerPhase.hasLeft]
  | started | step => exact hasLeft_acting _
  | death exit => simp [handle, hphase, ControllerPhase.hasLeft]
  | disconnected => rfl

namespace Linked

variable {s s' : Linked} {m : LinkedMove} {history : List (Linked × LinkedMove)}

/-! ## What is kept of each start -/

/-- The event that the controller receives and answers. -/
def eventHeeded (s : Linked) : LinkedMove → List TargetEvent
  | .controller (.receive _) =>
    if s.controller.phase = .listening then s.link.events.queue.head?.toList else []
  | _ => []

/-- What the controller has received before it left or told its target to exit. -/
def heeded (history : List (Linked × LinkedMove)) : List TargetEvent := along eventHeeded history

/-- What the events have made of the references to the target's main threads. -/
def refsHeeded (history : List (Linked × LinkedMove)) : List ThreadRef :=
  (heeded history).foldl ThreadRef.heed []

theorem refsHeeded_cons : refsHeeded ((s, m) :: history) =
    (s.eventHeeded m).foldl ThreadRef.heed (refsHeeded history) := by
  rw [refsHeeded, heeded, along_cons, List.foldl_append]
  rfl

/-- The references are what the events have made of them, and the latest is dead in the end. -/
def Referred (history : List (Linked × LinkedMove)) (c : Controller) : Prop :=
  c.sessions.map Session.ref =
    if c.phase.hasLeft then (refsHeeded history).modifyHead ThreadRef.markDead
    else refsHeeded history

theorem Referred.before {c : Controller} (h : Referred history c)
    (hleft : c.phase.hasLeft = false) : c.sessions.map Session.ref = refsHeeded history := by
  simpa [Referred, hleft] using h

/-- A move by which nothing is heeded and no reference changed. -/
theorem Referred.frame (h : Referred history s.controller) {c : Controller}
    (hheeded : s.eventHeeded m = [])
    (hrefs : c.sessions.map Session.ref = s.controller.sessions.map Session.ref)
    (hleft : c.phase.hasLeft = s.controller.phase.hasLeft) : Referred ((s, m) :: history) c := by
  rw [Referred, hrefs, hleft, refsHeeded_cons, hheeded]
  exact h

theorem referred_transition {m : ControllerMove} {c : Controller} {link : Link}
    (h : Referred history s.controller) (ht : s.controller.Transition s.link m c link) :
    Referred ((s, .controller m) :: history) c := by
  have hstay {phase : ControllerPhase} (hphase : s.controller.phase = phase)
      (hleft : phase.hasLeft = false) : false = s.controller.phase.hasLeft := by
    rw [hphase, hleft]
  cases ht with
  | take writing event rest hphase hq =>
    have hleft := Controller.hasLeft_handle (c := { s.controller with
      log := s.controller.log.record event writing }) event hphase
    have hbefore := h.before (by rw [hphase]; rfl)
    rw [Referred, hleft, Controller.map_ref_handle, refsHeeded_cons]
    simp [eventHeeded, hphase, hq, hbefore]
  | takeLast writing event rest hphase =>
    have hheeded : s.eventHeeded (.controller (.receive writing)) = [] := by
      simp [eventHeeded, hphase]
    cases event with
    | disconnected => exact h.frame hheeded rfl (hstay hphase rfl)
    | _ => exact h.frame hheeded rfl rfl
  | takeNone writing hphase hq =>
    have hheeded : s.eventHeeded (.controller (.receive writing)) = [] := by
      simp [eventHeeded, hq]
    rcases hphase with hphase | hphase <;> exact h.frame hheeded rfl (hstay hphase rfl)
  | send command rest hphase =>
    exact h.frame rfl rfl ((Controller.hasLeft_acting rest).trans (hstay hphase rfl))
  | startGenerator rest hphase =>
    refine h.frame rfl ?_ ((Controller.hasLeft_acting rest).trans (hstay hphase rfl))
    simp only [Controller.modifyLatest]
    cases s.controller.sessions <;> rfl
  | leave hphase =>
    rw [Referred, refsHeeded_cons, Controller.map_ref_markDead,
      h.before (by rw [hphase]; rfl)]
    rfl
  | finish hphase => exact h.frame rfl rfl (by rw [hphase]; rfl)
  | force hphase | takeVerdict _ hphase | giveUp hphase =>
    exact h.frame rfl rfl (hstay hphase rfl)
  | beginWatch | look | bark => exact h.frame rfl rfl rfl
  | signal k session _ _ _ hk | missSignal k session _ _ _ hk =>
    exact h.frame rfl (Controller.map_ref_set hk) rfl
  | pause m _ k session _ _ hm hk =>
    refine h.frame ?_ (Controller.map_ref_set hk) rfl
    rcases hm with ⟨rfl, -⟩ | ⟨rfl, -⟩ <;> rfl

theorem referred_of_launch {settings : ControllerSettings}
    (hrun : Execution step (launch settings) history s) : Referred history s.controller := by
  induction hrun with
  | nil => rfl
  | cons _ hs ih =>
    cases transition_of_step hs with
    | controller m c link ht => exact referred_transition ih ht
    | _ => exact ih.frame rfl rfl rfl

/-! ## The generators of each start -/

/-- What every state has of the generators that the controller has started. -/
structure Staffed (c : Controller) (link : Link) : Prop where
  earlier : c.settings.mode.hasLocalGenerator = false →
    ∀ session ∈ c.sessions.tail, session.generator.isSome = true
  /-- A generator only ends when it has been cut off. -/
  ended : ∀ session ∈ c.sessions, ∀ g, session.generator = some g → g.result?.isSome = true →
    session.CutOff link

theorem staffed_launch (settings : ControllerSettings) : Staffed (.start settings) .new where
  earlier _ := nofun
  ended := nofun

variable {c c' : Controller} {link link' : Link}

theorem Staffed.frame (h : Staffed c link) (hsettings : c'.settings = c.settings)
    (hsessions : c'.sessions = c.sessions)
    (hreceiving : link.commands.receiving = false → link'.commands.receiving = false) :
    Staffed c' link' where
  earlier := by
    rw [hsettings, hsessions]
    exact h.earlier
  ended := by
    rw [hsessions]
    exact fun session hmem g hg hresult => (h.ended session hmem g hg hresult).imp_right hreceiving

theorem Staffed.markDead (h : Staffed c link) (hsettings : c'.settings = c.settings)
    (hsessions : c'.sessions = c.markDead.sessions)
    (hreceiving : link'.commands.receiving = link.commands.receiving) : Staffed c' link' where
  earlier := by
    have htail : c'.sessions.tail = c.sessions.tail := by
      rw [hsessions, Controller.markDead, Controller.modifyLatest]
      cases c.sessions <;> rfl
    rw [hsettings, htail]
    exact h.earlier
  ended session hmem g hg hresult := by
    rw [hsessions] at hmem
    rcases Controller.mem_or_dead_of_mem_markDead hmem with hmem | hdead
    · exact (h.ended session hmem g hg hresult).imp_right (hreceiving.trans ·)
    · exact .inl hdead

/-- One of the generators goes on. -/
theorem Staffed.generator (h : Staffed c link) {k : Nat} {session : Session} {g' : Generator}
    (hk : c.sessions[k]? = some session)
    (hreceiving : link'.commands.receiving = link.commands.receiving)
    (hend : g'.result?.isSome = true → session.CutOff link) :
    Staffed { c with sessions := c.sessions.set k { session with generator := some g' } }
      link' where
  earlier hmode session' hmem := by
    have hearlier := h.earlier hmode
    cases hsessions : c.sessions with
    | nil => simp [hsessions] at hmem
    | cons latest older =>
      rw [hsessions] at hmem hearlier
      cases k with
      | zero => exact hearlier session' hmem
      | succ k =>
        rcases List.mem_or_eq_of_mem_set hmem with hmem | rfl
        · exact hearlier session' hmem
        · rfl
  ended session' hmem g₁ hg₁ hresult := by
    have hcut : session'.CutOff link := by
      rcases List.mem_or_eq_of_mem_set hmem with hmem | rfl
      · exact h.ended session' hmem g₁ hg₁ hresult
      · obtain rfl := Option.some.inj hg₁
        exact hend hresult
    exact hcut.imp_right (hreceiving.trans ·)

/-- The latest start has been given its generator before the next event is taken. -/
theorem Staffed.all (h : Staffed c link) (hmanned : Manned c) (hidle : c.phase.acts = [])
    (hmode : c.settings.mode.hasLocalGenerator = false) :
    ∀ session ∈ c.sessions, session.generator.isSome = true := by
  intro session hmem
  have hstarting := hmanned.starting
  have hearlier := h.earlier hmode
  rw [hidle, hmode] at hstarting
  cases hsessions : c.sessions with
  | nil => simp [hsessions] at hmem
  | cons latest older =>
    rw [hsessions] at hmem hearlier hstarting
    rcases List.mem_cons.mp hmem with rfl | hmem
    · cases hg : session.generator with
      | none => simp [hg] at hstarting
      | some g => rfl
    · exact hearlier session hmem

theorem staffed_handle (h : Staffed c link) (hmanned : Manned c) (hphase : c.phase = .listening)
    (event : TargetEvent) : Staffed (c.handle event) link := by
  cases event with
  | started thread =>
    refine ⟨fun hmode session hmem => ?_, fun session hmem g hg hresult => ?_⟩
    · exact h.all hmanned (by rw [hphase]; rfl) hmode session hmem
    · rcases List.mem_cons.mp hmem with rfl | hmem
      · cases hg
      · exact h.ended session hmem g hg hresult
  | threadDeath thread =>
    simp only [Controller.handle]
    split
    · exact h.markDead rfl rfl rfl
    · exact h
  | _ => exact h.frame rfl rfl id

/-- Only a signal that misses ends a generator. -/
theorem missed_of_ended {g g' : Generator} {event : GeneratorEvent} (hremote : g.Remote)
    (hs : g.step event = some g') (hevent : event.isHarmless = true)
    (hended : g'.result?.isSome = true) : ∃ e, event = .signalled (.error e) := by
  cases Generator.remoteStep_of_step hremote hs hevent with
  | quit e => exact ⟨e, rfl⟩
  | send _ hafter | doze _ hafter | wake _ hafter =>
    rw [Generator.result?, hafter] at hended
    cases hended

theorem staffed_transition {m : ControllerMove} (h : Staffed c link) (hmanned : Manned c)
    (ht : c.Transition link m c' link') : Staffed c' link' := by
  have hremote {k : Nat} {session : Session} {g : Generator} (hk : c.sessions[k]? = some session)
      (hg : session.generator = some g) : g.Remote :=
    (hmanned.remote session (List.mem_of_getElem? hk) g hg).1
  cases ht with
  | take writing event rest hphase hq =>
    have hlogged : Staffed { c with log := c.log.record event writing }
        { link with events := { link.events with queue := rest } } := h.frame rfl rfl id
    exact staffed_handle hlogged (hmanned.frame rfl rfl rfl id hmanned.joined) hphase event
  | takeLast writing event => cases event <;> exact h.frame rfl rfl id
  | send command rest hphase => exact h.frame rfl rfl (queue_offer link.commands command).2.trans
  | startGenerator rest hphase =>
    simp only [Controller.modifyLatest]
    have hearlier := h.earlier
    have hended := h.ended
    cases hsessions : c.sessions with
    | nil => exact ⟨fun _ _ => (absurd · List.not_mem_nil), fun _ => (absurd · List.not_mem_nil)⟩
    | cons latest older =>
      rw [hsessions] at hearlier hended
      refine ⟨hearlier, fun session hmem g hg hresult => ?_⟩
      rcases List.mem_cons.mp hmem with rfl | hmem
      · obtain rfl := Option.some.inj hg
        cases hresult
      · exact hended session (.tail _ hmem) g hg hresult
  | force hphase => exact h.frame rfl rfl (queue_offer link.commands _).2.trans
  | leave hphase =>
    refine h.markDead rfl rfl ?_
    simp only
    split <;> rfl
  | finish hphase =>
    refine h.frame rfl rfl fun hdeaf => ?_
    simp only
    split <;> exact hdeaf
  | takeNone | takeVerdict | giveUp | beginWatch | look | bark => exact h.frame rfl rfl id
  | signal k session g g' commands hk hg hsent hs =>
    obtain ⟨-, -, rfl⟩ := ThreadRef.of_signal hsent
    refine h.generator hk rfl fun hended => ?_
    obtain ⟨e, hmissed⟩ := missed_of_ended (hremote hk hg) hs rfl hended
    cases hmissed
  | missSignal k session g g' e hk hg hmissed hs =>
    exact h.generator hk rfl fun _ => Session.cutOff_of_signal hmissed
  | pause m event k session g g' hm hk hg hs =>
    refine h.generator hk rfl fun hended => ?_
    rcases hm with ⟨-, rfl⟩ | ⟨-, rfl⟩ <;>
      obtain ⟨e, hmissed⟩ := missed_of_ended (hremote hk hg) hs rfl hended <;> cases hmissed

theorem staffed_of_launch {settings : ControllerSettings}
    (hrun : Execution step (launch settings) history s) : Staffed s.controller s.link := by
  induction hrun with
  | nil => exact staffed_launch settings
  | cons hrun hs ih =>
    cases transition_of_step hs with
    | controller m c link ht => exact staffed_transition ih (manned_of_launch hrun) ht
    | say | fallSilent | takeCommand => exact ih.frame rfl rfl id
    | close => exact ih.frame rfl rfl fun _ => rfl
    | interrupt thread => exact ih.frame rfl rfl (queue_offer _ _).2.trans

/-! ## Every start -/

/-- Nothing is left behind: every reference is dead, every generator has been waited for, and none
of them sends an interrupt any more. -/
def LeavesNothing (s : Linked) : Prop :=
  ∀ k session, s.controller.sessions[k]? = some session →
    session.ref.alive = false ∧
      (∀ g, session.generator = some g → g.result?.isSome = true) ∧ Hushed s k

/-- What has become of a start after which these events were heeded. -/
structure Leftover (settings : ControllerSettings) (s : Linked) (thread : ThreadId)
    (since : List TargetEvent) (session : Session) : Prop where
  kept : s.controller.sessions[since.countP TargetEvent.isStart]? = some session
  /-- The latest reference is dead, and an earlier one if the death came before the next start. -/
  ref : session.ref = ⟨thread, since.any TargetEvent.isStart && !ThreadRef.diesIn thread since⟩
  generator : session.generator.isSome = true ↔ settings.mode = .remote
  /-- The generator of the latest start has been waited for. -/
  joined : since.any TargetEvent.isStart = false →
    ∀ g, session.generator = some g → g.result?.isSome = true
  /-- A generator sends on unless it has been cut off. -/
  hushed : settings.mode = .remote →
    (s.SendsAtMost (since.countP TargetEvent.isStart) 0 false ↔ session.CutOff s.link)
  /-- What it had decided on before it was cut off may still follow, and nothing else. -/
  in_flight : session.CutOff s.link → s.SendsAtMost (since.countP TargetEvent.isStart) 1 true

theorem any_isStart (events : List TargetEvent) :
    events.any TargetEvent.isStart = (events.countP TargetEvent.isStart != 0) := by
  rw [Bool.eq_iff_iff]
  simp [List.countP_eq_zero]

/-- What becomes of every reference in the end. -/
theorem exists_ref (h : Referred history c) (hphase : c.phase = .finished)
    {earlier since : List TargetEvent} {thread : ThreadId}
    (hheeded : heeded history = earlier ++ .started thread :: since) :
    ∃ session, c.sessions[since.countP TargetEvent.isStart]? = some session ∧
      session.ref = ⟨thread, since.any TargetEvent.isStart && !ThreadRef.diesIn thread since⟩ := by
  obtain ⟨newer, hlength, hrefs⟩ :=
    ThreadRef.foldl_heed (.new thread) (earlier.foldl ThreadRef.heed []) since
  have hall : c.sessions.map Session.ref = (newer ++ ⟨thread, !ThreadRef.diesIn thread since⟩ ::
      earlier.foldl ThreadRef.heed []).modifyHead ThreadRef.markDead := by
    rw [Referred, hphase, refsHeeded, hheeded, List.foldl_append, List.foldl_cons,
      ThreadRef.heed, hrefs] at h
    exact h
  have hstarts : since.any TargetEvent.isStart = !newer.isEmpty := by
    rw [any_isStart, ← hlength]
    cases newer <;> rfl
  have hkept : (c.sessions.map Session.ref)[newer.length]? =
      some ⟨thread, !newer.isEmpty && !ThreadRef.diesIn thread since⟩ := by
    rw [hall]
    cases newer with
    | nil => rfl
    | cons latest newer => simp
  rw [List.getElem?_map, Option.map_eq_some_iff] at hkept
  rwa [← hlength, hstarts]

/-- The latest reference is dead in the end. -/
theorem latest_dead (h : Referred history c) (hphase : c.phase = .finished) {session : Session}
    (hlatest : c.sessions[0]? = some session) : session.ref.alive = false := by
  rw [Referred, hphase] at h
  have hdead : (c.sessions.map Session.ref)[0]? = some session.ref := by
    rw [List.getElem?_map, hlatest, Option.map_some]
  rw [h] at hdead
  cases hrefs : refsHeeded history with
  | nil => simp [hrefs, ControllerPhase.hasLeft] at hdead
  | cons ref refs =>
    rw [hrefs] at hdead
    rw [← Option.some.inj hdead]
    rfl

/-- The generator of the latest start has been waited for in the end. -/
theorem latest_joined (h : Manned c) (hphase : c.phase = .finished) {session : Session}
    (hlatest : c.sessions[0]? = some session) {g : Generator} (hg : session.generator = some g) :
    g.result?.isSome = true := by
  have hjoined := h.joined hphase
  rw [Controller.latest?, List.head?_eq_getElem?, hlatest, Option.bind_some, hg] at hjoined
  simpa using hjoined

/-- The description of a start that is kept with its reference. -/
theorem leftover_of_kept {settings : ControllerSettings} {thread : ThreadId}
    {since : List TargetEvent} {session : Session}
    (hrun : Execution step (launch settings) history s) (hphase : s.controller.phase = .finished)
    (hkept : s.controller.sessions[since.countP TargetEvent.isStart]? = some session)
    (href : session.ref =
      ⟨thread, since.any TargetEvent.isStart && !ThreadRef.diesIn thread since⟩) :
    Leftover settings s thread since session := by
  have hmanned := manned_of_launch hrun
  have hstaffed := staffed_of_launch hrun
  have hsettings := settings_of_launch hrun
  have hmem := List.mem_of_getElem? hkept
  have hstarted (hmode : settings.mode = .remote) : session.generator.isSome = true :=
    hstaffed.all hmanned (by rw [hphase]; rfl) (by rw [hsettings, hmode]; rfl) session hmem
  refine ⟨hkept, href, ⟨fun hsome => ?_, hstarted⟩, fun hlast g hg => ?_, fun hmode => ?_,
    fun hcut => sendsAtMost_of_cutOff hphase hkept hcut true⟩
  · cases hmode : settings.mode with
    | remote => rfl
    | _ =>
      rw [hmanned.unmanned (by rw [hsettings, hmode]; rfl) session hmem] at hsome
      cases hsome
  · have hnone : since.countP TargetEvent.isStart = 0 := by simpa [any_isStart] using hlast
    exact latest_joined hmanned hphase (hnone ▸ hkept) hg
  · obtain ⟨g, hg⟩ := Option.isSome_iff_exists.mp (hstarted hmode)
    obtain ⟨hremote, hpaced⟩ := hmanned.remote session hmem g hg
    exact ⟨cutOff_of_sendsAtMost hremote hpaced (hstaffed.ended session hmem g hg) hkept hg,
      (sendsAtMost_of_cutOff hphase hkept · false)⟩

/-- Whatever the target says, and whenever the verdict is taken, the grace period is over, and the
target closes its end: what has become of each start when the controller has finished. -/
theorem leftovers_of_launch {settings : ControllerSettings}
    (hrun : Execution step (launch settings) history s) (hphase : s.controller.phase = .finished) :
    s.controller.sessions.length = (heeded history).countP TargetEvent.isStart ∧
      (∀ earlier thread since, heeded history = earlier ++ .started thread :: since →
        ∃ session, Leftover settings s thread since session) ∧
      ((heeded history).countP TargetEvent.isStart ≤ 1 → LeavesNothing s) := by
  have hreferred := referred_of_launch hrun
  have hlength : s.controller.sessions.length = (heeded history).countP TargetEvent.isStart := by
    have h := congrArg List.length hreferred
    rw [hphase] at h
    simpa [ControllerPhase.hasLeft, refsHeeded, ThreadRef.length_foldl_heed] using h
  refine ⟨hlength, fun earlier thread since hheeded => ?_, fun hone k session hk => ?_⟩
  · obtain ⟨session, hkept, href⟩ := exists_ref hreferred hphase hheeded
    exact ⟨session, leftover_of_kept hrun hphase hkept href⟩
  · -- there is no session but the latest
    obtain ⟨hlt, -⟩ := List.getElem?_eq_some_iff.mp hk
    obtain rfl : k = 0 := by omega
    have hdead := latest_dead hreferred hphase hk
    have hjoined (g : Generator) (hg : session.generator = some g) : g.result?.isSome = true :=
      latest_joined (manned_of_launch hrun) hphase hk hg
    exact ⟨hdead, hjoined, hushed_of_ended hphase hk (.inl hdead) hjoined⟩

/-- A target that starts a second time before it disconnects, and its controller until it has
finished. -/
def startsTwice : List LinkedMove :=
  let start (thread : ThreadId) : List LinkedMove := [.say (.started thread),
    .controller (.receive default), .controller .act, .controller .act, .controller .act]
  start ⟨7⟩ ++ start ⟨8⟩ ++ [.say .disconnected, .controller (.receive default), .controller .act,
    .controller (.generator 0), .controller .act]

/-- Of two starts, the first one's generator is left and sends on. -/
theorem leftovers_of_launch_twice :
    ∃ history s session, Execution step
        (launch ⟨.remote, .ofMillis 100, .thread, .ofMillis 1, .ofMillis 5000⟩) history s ∧
      s.controller.phase = .finished ∧ s.controller.sessions.length = 2 ∧
      s.controller.sessions[1]? = some session ∧ session.ref = ⟨⟨7⟩, true⟩ ∧
      session.generator.isSome = true ∧ ¬ s.SendsAtMost 1 0 false := by
  obtain ⟨history, s, hreplay, hphase, hheeded, hreceiving⟩ : ∃ history s,
      Execution.replay step [] (launch ⟨.remote, .ofMillis 100, .thread, .ofMillis 1,
        .ofMillis 5000⟩) startsTwice = some (history, s) ∧
      s.controller.phase = .finished ∧
      heeded history = [] ++ .started ⟨7⟩ :: [.started ⟨8⟩, .disconnected] ∧
      s.link.commands.receiving = true := ⟨_, _, rfl, rfl, rfl, rfl⟩
  have hrun := Execution.of_replay .nil _ hreplay
  obtain ⟨hlength, hall, -⟩ := leftovers_of_launch hrun hphase
  obtain ⟨session, h⟩ := hall _ _ _ hheeded
  refine ⟨history, s, session, hrun, hphase, hlength.trans (by rw [hheeded]; rfl), h.kept, h.ref,
    h.generator.mpr rfl, fun hquiet => ?_⟩
  have hcut := (h.hushed rfl).mp hquiet
  rw [Session.CutOff, h.ref, hreceiving] at hcut
  revert hcut
  decide

/-- The controller has finished, but the reference of the first start is alive, its generator has
not come to its end, and the next thing that it does is to interrupt the first main thread. -/
theorem not_leavesNothing_startsTwice :
    ∃ history s s', Execution step
        (launch ⟨.remote, .ofMillis 100, .thread, .ofMillis 1, .ofMillis 5000⟩) history s ∧
      s.controller.phase = .finished ∧ ¬ LeavesNothing s ∧
      s.controller.sessions =
        [⟨⟨⟨8⟩, false⟩, some ⟨.remote, .finished (.ok 0), 0⟩⟩,
          ⟨⟨⟨7⟩, true⟩, some ⟨.remote, .sending, 0⟩⟩] ∧
      s.link.commands.queue.any ControlCommand.isInterrupt = false ∧
      s.step (.controller (.generator 1)) = some s' ∧
      s'.link.commands.queue = s.link.commands.queue ++ [.interrupt ⟨7⟩] := by
  obtain ⟨history, s, hreplay, hphase, hsessions, hquiet, s', hs, hqueue⟩ : ∃ history s,
      Execution.replay step [] (launch ⟨.remote, .ofMillis 100, .thread, .ofMillis 1,
        .ofMillis 5000⟩) startsTwice = some (history, s) ∧
      s.controller.phase = .finished ∧
      s.controller.sessions =
        [⟨⟨⟨8⟩, false⟩, some ⟨.remote, .finished (.ok 0), 0⟩⟩,
          ⟨⟨⟨7⟩, true⟩, some ⟨.remote, .sending, 0⟩⟩] ∧
      s.link.commands.queue.any ControlCommand.isInterrupt = false ∧
      ∃ s', s.step (.controller (.generator 1)) = some s' ∧
        s'.link.commands.queue = s.link.commands.queue ++ [.interrupt ⟨7⟩] :=
    ⟨_, _, rfl, rfl, rfl, rfl, _, rfl, rfl⟩
  refine ⟨history, s, s', Execution.of_replay .nil _ hreplay, hphase, fun hnothing => ?_, hsessions,
    hquiet, hs, hqueue⟩
  obtain ⟨halive, -⟩ :=
    hnothing 1 ⟨⟨⟨7⟩, true⟩, some ⟨.remote, .sending, 0⟩⟩ (by rw [hsessions]; rfl)
  cases halive

end Linked

end InterruptStress
