import InterruptStress.Proofs.Supervision.Injected
import InterruptStress.Proofs.Target.Traffic

/-!
# A controller whatever its target does

A `Linked` controller has a link to some target that says any events in any order, takes commands
when it likes, and may close its end at any time.  Interrupts may be queued at any time too: a
generator that has found its thread alive may send its interrupt later.

What has been said, received, offered to the command channel and taken from it is read off the
history.  Whatever the target does, the controller receives what was said, in order and up to the
first disconnect (`Linked.stream_of_run`), and interrupts apart the target is given what the
controller has offered, in order, and all of it unless it closes its end
(`Linked.delivery_of_launch`).  A target in the same process is one such target
(`Linked.exists_of_supervised`).
-/

namespace InterruptStress

/-- A controller with its link to some target. -/
structure Linked where
  controller : Controller
  link : Link

/-- What can happen to a controller and to its link. -/
inductive LinkedMove where
  /-- The controller moves, its watchdog, or one of its generators. -/
  | controller (m : ControllerMove)
  /-- The target says something. -/
  | say (event : TargetEvent)
  /-- The last sender of events goes. -/
  | fallSilent
  /-- The target takes the first command that waits. -/
  | takeCommand
  /-- The target closes its end of the command channel. -/
  | close
  /-- An interrupt is sent that was decided on before. -/
  | interrupt (thread : ThreadId)

namespace Linked

/-- A controller that has just been given a link to its target. -/
def launch (settings : ControllerSettings) : Linked := ⟨.start settings, .new⟩

/-- What a move makes of a controller and its link, if it can happen. -/
def step (s : Linked) : LinkedMove → Option Linked
  | .controller m => (s.controller.step s.link m).map fun (controller, link) => ⟨controller, link⟩
  | .say event =>
    if s.link.events.sending then
      some { s with link := { s.link with events := s.link.events.offer event } }
    else none
  | .fallSilent => some { s with link := { s.link with events := s.link.events.hangUp } }
  | .takeCommand =>
    match s.link.commands.receive with
    | (.item _, commands) => some { s with link := { s.link with commands } }
    | _ => none
  | .close => some { s with link := { s.link with commands := s.link.commands.close } }
  | .interrupt thread =>
    some { s with link := { s.link with commands := s.link.commands.offer (.interrupt thread) } }

/-- What each move can make of a controller and its link. -/
inductive Transition (s : Linked) : LinkedMove → Linked → Prop where
  | controller (m : ControllerMove) (c : Controller) (link : Link)
      (ht : s.controller.Transition s.link m c link) :
      Transition s (.controller m) ⟨c, link⟩
  | say (event : TargetEvent) (hsending : s.link.events.sending = true) :
      Transition s (.say event)
        { s with link := { s.link with events := s.link.events.offer event } }
  | fallSilent :
      Transition s .fallSilent { s with link := { s.link with events := s.link.events.hangUp } }
  | takeCommand (command : ControlCommand) (rest : List ControlCommand)
      (hq : s.link.commands.queue = command :: rest) :
      Transition s .takeCommand
        { s with link := { s.link with commands := { s.link.commands with queue := rest } } }
  | close :
      Transition s .close { s with link := { s.link with commands := s.link.commands.close } }
  | interrupt (thread : ThreadId) :
      Transition s (.interrupt thread)
        { s with link :=
          { s.link with commands := s.link.commands.offer (.interrupt thread) } }

variable {s s' : Linked} {m : LinkedMove} {history : List (Linked × LinkedMove)}

/-- Every move that is made is one of the transitions. -/
theorem transition_of_step (h : s.step m = some s') : s.Transition m s' := by
  cases m with
  | controller m =>
    obtain ⟨⟨c, link⟩, hs, rfl⟩ := Option.map_eq_some_iff.mp h
    exact .controller m c link (Controller.transition_of_step hs)
  | say event =>
    simp only [step] at h
    split at h
    · next hsending =>
      obtain rfl := Option.some.inj h
      exact .say event hsending
    · cases h
  | fallSilent =>
    obtain rfl := Option.some.inj h
    exact .fallSilent
  | takeCommand =>
    cases hq : s.link.commands.queue with
    | nil => cases hsending : s.link.commands.sending <;>
        simp [step, Channel.receive, hq, hsending] at h
    | cons command rest =>
      simp only [step, Channel.receive, hq] at h
      obtain rfl := Option.some.inj h
      exact .takeCommand command rest hq
  | close =>
    obtain rfl := Option.some.inj h
    exact .close
  | interrupt thread =>
    obtain rfl := Option.some.inj h
    exact .interrupt thread

/-! ## What can be read off a history -/

/-- What the moves of a history show, in their order. -/
def along {α : Type} (shown : Linked → LinkedMove → List α)
    (history : List (Linked × LinkedMove)) : List α :=
  history.reverse.flatMap fun e => shown e.1 e.2

@[simp] theorem along_cons {α : Type} (shown : Linked → LinkedMove → List α) :
    along shown ((s, m) :: history) = along shown history ++ shown s m := by
  simp [along]

theorem along_append {α : Type} (shown : Linked → LinkedMove → List α)
    (later earlier : List (Linked × LinkedMove)) :
    along shown (later ++ earlier) = along shown earlier ++ along shown later := by
  simp [along]

/-- The event that the target says. -/
def eventSaid (_ : Linked) : LinkedMove → List TargetEvent
  | .say event => [event]
  | _ => []

/-- The event that the controller receives. -/
def eventReceived (s : Linked) : LinkedMove → List TargetEvent
  | .controller (.receive _) => s.link.events.queue.head?.toList
  | _ => []

/-- The command that the controller offers to the command channel, whether or not the target can
still be given it.  Its generators offer interrupts beside it. -/
def commandOffered (s : Linked) : LinkedMove → List ControlCommand
  | .controller .act =>
    match s.controller.phase with
    | .acting (.send command :: _) => [command]
    | .forcing => [.exit TargetExit.forcedCode]
    | _ => []
  | _ => []

/-- The command that the target takes. -/
def commandTaken (s : Linked) : LinkedMove → List ControlCommand
  | .takeCommand => s.link.commands.queue.head?.toList
  | _ => []

def said (history : List (Linked × LinkedMove)) : List TargetEvent := along eventSaid history

def received (history : List (Linked × LinkedMove)) : List TargetEvent :=
  along eventReceived history

def offered (history : List (Linked × LinkedMove)) : List ControlCommand :=
  along commandOffered history

def taken (history : List (Linked × LinkedMove)) : List ControlCommand := along commandTaken history

/-- The target has closed its end of the command channel. -/
def closed (history : List (Linked × LinkedMove)) : Bool :=
  history.any fun e => match e.2 with
    | .close => true
    | _ => false

def verdictTaken (history : List (Linked × LinkedMove)) : Bool :=
  history.any fun e => match e.2 with
    | .controller .takeVerdict => true
    | _ => false

/-- The grace period was over before the target had disconnected. -/
def gaveUp (history : List (Linked × LinkedMove)) : Bool :=
  history.any fun e => match e.2 with
    | .controller .giveUp => true
    | _ => false

theorem said_cons : said ((s, m) :: history) = said history ++ s.eventSaid m := along_cons _

theorem received_cons : received ((s, m) :: history) = received history ++ s.eventReceived m :=
  along_cons _

theorem offered_cons : offered ((s, m) :: history) = offered history ++ s.commandOffered m :=
  along_cons _

theorem offered_append (later earlier : List (Linked × LinkedMove)) :
    offered (later ++ earlier) = offered earlier ++ offered later := along_append _ _ _

theorem taken_cons : taken ((s, m) :: history) = taken history ++ s.commandTaken m := along_cons _

theorem said_cons_of_nil (h : s.eventSaid m = []) : said ((s, m) :: history) = said history := by
  rw [said_cons, h, List.append_nil]

theorem received_cons_of_nil (h : s.eventReceived m = []) :
    received ((s, m) :: history) = received history := by
  rw [received_cons, h, List.append_nil]

theorem offered_cons_of_nil (h : s.commandOffered m = []) :
    offered ((s, m) :: history) = offered history := by
  rw [offered_cons, h, List.append_nil]

theorem taken_cons_of_nil (h : s.commandTaken m = []) :
    taken ((s, m) :: history) = taken history := by
  rw [taken_cons, h, List.append_nil]

/-! ## What a controller receives -/

end Linked

namespace Controller

variable {c : Controller} {event : TargetEvent}

/-- A controller leaves when it has been told of the disconnect, and goes on listening else. -/
theorem phase_handle (event : TargetEvent) (hphase : c.phase = .listening) :
    event = .disconnected ∧ (c.handle event).phase = .ending ∨
      event ≠ .disconnected ∧ (c.handle event).phase.isOpen = true := by
  cases event with
  | started thread => exact .inr ⟨by simp, isOpen_acting _⟩
  | step thread location suspended => exact .inr ⟨by simp, isOpen_acting _⟩
  | threadDeath thread =>
    refine .inr ⟨by simp, ?_⟩
    simp only [handle]
    split <;> simp [markDead, modifyLatest, hphase, ControllerPhase.isOpen]
  | death exit => exact .inr ⟨by simp, by simp [handle, hphase, ControllerPhase.isOpen]⟩
  | disconnected => exact .inl ⟨rfl, rfl⟩

/-- So does one that has told its target to exit. -/
theorem phase_drain (event : TargetEvent) (hphase : c.phase = .draining) :
    event = .disconnected ∧ (c.drain event).phase = .ending ∨
      event ≠ .disconnected ∧ (c.drain event).phase = .draining := by
  cases event with
  | disconnected => exact .inl ⟨rfl, rfl⟩
  | _ => exact .inr ⟨nofun, hphase⟩

theorem hang_drain (event : TargetEvent) : (c.drain event).hang = c.hang := by
  cases event <;> rfl

end Controller

namespace ControllerPhase

/-- The target has been told to exit, or is about to be. -/
def isForcing : ControllerPhase → Bool
  | .forcing | .draining => true
  | _ => false

theorem isLeaving_of_isOpen {phase : ControllerPhase} (h : phase.isOpen = true) :
    phase.isLeaving = false := by
  cases phase <;> first | rfl | cases h

theorem isForcing_of_isOpen {phase : ControllerPhase} (h : phase.isOpen = true) :
    phase.isForcing = false := by
  cases phase <;> first | rfl | cases h

end ControllerPhase

namespace Linked

/-- What has been received of what waited at first and of what was said since. -/
structure Stream (waited : List TargetEvent) (history : List (Linked × LinkedMove)) (s : Linked) :
    Prop where
  listening : s.controller.phase.isLeaving = false →
    waited ++ said history = received history ++ s.link.events.queue ∧
      .disconnected ∉ received history ∧ s.link.events.receiving = true
  /-- The last that it has received is the first disconnect, or everything has been received and
  nothing can follow, or it has waited long enough for the last words. -/
  left : s.controller.phase.isLeaving = true →
    received history = Pipe.written (waited ++ said history) ++ [.disconnected] ∧
        .disconnected ∈ waited ++ said history ∨
      received history = Pipe.written (waited ++ said history) ∧ s.link.events.sending = false ∨
      received history <+: Pipe.written (waited ++ said history) ∧ gaveUp history = true
  hung : s.controller.phase.isForcing = true → s.controller.hang ≠ none

variable {waited : List TargetEvent}

theorem stream_start (hphase : s.controller.phase.isLeaving = false)
    (hreceiving : s.link.events.receiving = true)
    (hung : s.controller.phase.isForcing = true → s.controller.hang ≠ none) :
    Stream s.link.events.queue [] s where
  listening _ := ⟨List.append_nil _, List.not_mem_nil, hreceiving⟩
  left hleaving := by
    rw [hphase] at hleaving
    cases hleaving
  hung := hung

theorem gaveUp_cons (s : Linked) (m : LinkedMove) (h : gaveUp history = true) :
    gaveUp ((s, m) :: history) = true := by
  simp only [gaveUp, List.any_cons, Bool.or_eq_true]
  exact .inr h

/-- A move by which nothing is said and nothing received. -/
theorem Stream.frame (h : Stream waited history s) (hsaid : s.eventSaid m = [])
    (hreceived : s.eventReceived m = [])
    (hleaving : s'.controller.phase.isLeaving = s.controller.phase.isLeaving)
    (hqueue : s'.controller.phase.isLeaving = false →
      s'.link.events.queue = s.link.events.queue ∧
        s'.link.events.receiving = s.link.events.receiving)
    (hsending : s.link.events.sending = false → s'.link.events.sending = false)
    (hung : s'.controller.phase.isForcing = true → s'.controller.hang ≠ none) :
    Stream waited ((s, m) :: history) s' where
  listening hlistening := by
    obtain ⟨hsame, hreceiving⟩ := hqueue hlistening
    rw [said_cons_of_nil hsaid, received_cons_of_nil hreceived, hsame, hreceiving]
    exact h.listening (hleaving ▸ hlistening)
  left hleft := by
    rw [said_cons_of_nil hsaid, received_cons_of_nil hreceived]
    rcases h.left (hleaving ▸ hleft) with hlast | ⟨hall, hsilent⟩ | ⟨hsome, hgave⟩
    · exact .inl hlast
    · exact .inr (.inl ⟨hall, hsending hsilent⟩)
    · exact .inr (.inr ⟨hsome, gaveUp_cons s m hgave⟩)
  hung := hung

/-- The next event is received. -/
theorem Stream.receive (h : Stream waited history s) {writing : Writing} {event : TargetEvent}
    {rest : List TargetEvent} {c : Controller}
    (hlistening : s.controller.phase.isLeaving = false)
    (hq : s.link.events.queue = event :: rest)
    (hphase : event = .disconnected ∧ c.phase = .ending ∨
      event ≠ .disconnected ∧ c.phase.isLeaving = false)
    (hung : c.phase.isForcing = true → c.hang ≠ none) :
    Stream waited ((s, .controller (.receive writing)) :: history)
      ⟨c, { s.link with events := { s.link.events with queue := rest } }⟩ := by
  obtain ⟨htotal, hfresh, hreceiving⟩ := h.listening hlistening
  have hsaid : said ((s, .controller (.receive writing)) :: history) = said history :=
    said_cons_of_nil rfl
  have hreceived : received ((s, .controller (.receive writing)) :: history) =
      received history ++ [event] := by
    rw [received_cons, eventReceived, hq]
    rfl
  rw [hq] at htotal
  refine ⟨fun hopen => ?_, fun hleaving => ?_, hung⟩
  · rcases hphase with ⟨-, hending⟩ | ⟨hother, -⟩
    · simp [hending, ControllerPhase.isLeaving] at hopen
    · rw [hsaid, hreceived, htotal]
      refine ⟨by simp, ?_, hreceiving⟩
      rw [List.mem_append, List.mem_singleton]
      rintro (hmem | heq)
      · exact hfresh hmem
      · exact hother heq.symm
  · rcases hphase with ⟨rfl, -⟩ | ⟨-, hopen⟩
    · refine .inl ?_
      rw [hsaid, hreceived, htotal, Pipe.written_append hfresh]
      exact ⟨by simp [Pipe.written], by simp⟩
    · rw [hopen] at hleaving
      cases hleaving

/-- A move of the controller by which nothing is received, and which does not change whether it
leaves. -/
theorem Stream.move (h : Stream waited history s) {m : ControllerMove} {c : Controller}
    {link : Link} (hreceived : s.eventReceived (.controller m) = [])
    (hleaving : c.phase.isLeaving = s.controller.phase.isLeaving)
    (hevents : link.events = s.link.events)
    (hung : c.phase.isForcing = true → c.hang ≠ none) :
    Stream waited ((s, .controller m) :: history) ⟨c, link⟩ := by
  refine h.frame rfl hreceived hleaving (fun _ => ?_) (fun hsilent => ?_) hung
  · exact ⟨congrArg Channel.queue hevents, congrArg Channel.receiving hevents⟩
  · exact (congrArg Channel.sending hevents).trans hsilent

theorem stream_controller {m : ControllerMove} {c : Controller} {link : Link}
    (h : Stream waited history s) (ht : s.controller.Transition s.link m c link) :
    Stream waited ((s, .controller m) :: history) ⟨c, link⟩ := by
  cases ht with
  | take writing event rest hphase hq =>
    have hnext := Controller.phase_handle (c := { s.controller with
      log := s.controller.log.record event writing }) event hphase
    rcases hnext with ⟨rfl, hending⟩ | ⟨hother, hopen⟩
    · exact h.receive (by rw [hphase]; rfl) hq (.inl ⟨rfl, hending⟩) (by rw [hending]; nofun)
    · have hcalm := ControllerPhase.isForcing_of_isOpen hopen
      exact h.receive (by rw [hphase]; rfl) hq
        (.inr ⟨hother, ControllerPhase.isLeaving_of_isOpen hopen⟩) (by rw [hcalm]; nofun)
  | takeLast writing event rest hphase hq =>
    have hung := h.hung (by rw [hphase]; rfl)
    have hnext := Controller.phase_drain (c := { s.controller with
      log := s.controller.log.record event writing }) event hphase
    rcases hnext with ⟨rfl, hending⟩ | ⟨hother, hsame⟩
    · exact h.receive (by rw [hphase]; rfl) hq (.inl ⟨rfl, hending⟩) (by rw [hending]; nofun)
    · refine h.receive (by rw [hphase]; rfl) hq (.inr ⟨hother, by rw [hsame]; rfl⟩) fun _ => ?_
      rw [Controller.hang_drain]
      exact hung
  | takeNone writing hphase hq hsilent =>
    obtain ⟨htotal, hfresh, -⟩ := h.listening (by
      rcases hphase with hphase | hphase <;> rw [hphase] <;> rfl)
    have hnothing : s.eventReceived (.controller (.receive writing)) = [] := by
      rw [eventReceived, hq]
      rfl
    refine ⟨nofun, fun _ => .inr (.inl ⟨?_, hsilent⟩), nofun⟩
    rw [hq, List.append_nil] at htotal
    rw [said_cons_of_nil rfl, received_cons_of_nil hnothing, htotal, Pipe.written_eq_self hfresh]
  | giveUp hphase =>
    obtain ⟨htotal, hfresh, -⟩ := h.listening (by rw [hphase]; rfl)
    refine ⟨nofun, fun _ => .inr (.inr ⟨?_, rfl⟩), nofun⟩
    rw [said_cons_of_nil rfl, received_cons_of_nil rfl, htotal, Pipe.written_append hfresh]
    exact List.prefix_append _ _
  | send command rest hphase | startGenerator rest hphase =>
    have hopen := Controller.isOpen_acting rest
    have hcalm := ControllerPhase.isForcing_of_isOpen hopen
    refine h.move rfl ?_ rfl (by rw [hcalm]; nofun)
    rw [ControllerPhase.isLeaving_of_isOpen hopen, hphase]
    rfl
  | force hphase =>
    refine h.move rfl (by rw [hphase]; rfl) rfl fun _ => ?_
    exact h.hung (by rw [hphase]; rfl)
  | leave hphase => exact h.move rfl (by rw [hphase]; rfl) rfl nofun
  | finish hphase =>
    exact h.frame rfl rfl (by rw [hphase]; rfl) nofun id nofun
  | takeVerdict report hphase => exact h.move rfl (by rw [hphase]; rfl) rfl nofun
  | beginWatch | look | bark | signal | missSignal =>
    exact h.move rfl rfl rfl h.hung
  | pause _ _ _ _ _ _ hm =>
    refine h.move ?_ rfl rfl h.hung
    rcases hm with ⟨rfl, -⟩ | ⟨rfl, -⟩ <;> rfl

theorem stream_transition (h : Stream waited history s) (ht : s.Transition m s') :
    Stream waited ((s, m) :: history) s' := by
  cases ht with
  | controller m c link ht => exact stream_controller h ht
  | say event hsending =>
    have hsaid : said ((s, .say event) :: history) = said history ++ [event] := said_cons
    refine ⟨fun hlistening => ?_, fun hleaving => ?_, h.hung⟩
    · obtain ⟨htotal, hfresh, hreceiving⟩ := h.listening hlistening
      rw [hsaid, received_cons_of_nil rfl, ← List.append_assoc, htotal]
      simp [Channel.offer, Channel.send, hreceiving, hfresh]
    · rw [hsaid, received_cons_of_nil rfl, ← List.append_assoc]
      rcases h.left hleaving with ⟨hlast, hmem⟩ | ⟨-, hsilent⟩ | ⟨hsome, hgave⟩
      · refine .inl ⟨?_, List.mem_append_left _ hmem⟩
        rw [Pipe.written_append_of_mem hmem]
        exact hlast
      · rw [hsending] at hsilent
        cases hsilent
      · exact .inr (.inr ⟨hsome.trans (Pipe.written_prefix_append _ _), gaveUp_cons s _ hgave⟩)
  | fallSilent => exact h.frame rfl rfl rfl (fun _ => ⟨rfl, rfl⟩) (fun _ => rfl) h.hung
  | takeCommand | close | interrupt =>
    exact h.frame rfl rfl rfl (fun _ => ⟨rfl, rfl⟩) id h.hung

/-- What a controller receives from some state on. -/
theorem stream_of_run {start : Linked} (hphase : start.controller.phase.isLeaving = false)
    (hreceiving : start.link.events.receiving = true)
    (hung : start.controller.phase.isForcing = true → start.controller.hang ≠ none)
    (hrun : Execution step start history s) : Stream start.link.events.queue history s := by
  induction hrun with
  | nil => exact stream_start hphase hreceiving hung
  | cons _ hs ih => exact stream_transition ih (transition_of_step hs)

theorem stream_of_launch {settings : ControllerSettings}
    (hrun : Execution step (launch settings) history s) : Stream [] history s :=
  stream_of_run rfl rfl (fun h => by cases h) hrun

/-- What has been received is a first part of what was said. -/
theorem Stream.prefix_said (h : Stream waited history s) :
    received history <+: waited ++ said history := by
  have hwritten (events : List TargetEvent) : Pipe.written events <+: events :=
    List.takeWhile_prefix _
  cases hleaving : s.controller.phase.isLeaving with
  | false =>
    rw [(h.listening hleaving).1]
    exact List.prefix_append _ _
  | true =>
    rcases h.left hleaving with ⟨hlast, hmem⟩ | ⟨hall, -⟩ | ⟨hsome, -⟩
    · obtain ⟨before, after, htotal, hbefore⟩ := List.eq_append_cons_of_mem hmem
      rw [hlast, htotal, Pipe.written_append hbefore]
      exact ⟨after, by simp [Pipe.written]⟩
    · rw [hall]
      exact hwritten _
    · exact hsome.trans (hwritten _)

/-! ## Verdicts -/

theorem settings_of_launch {settings : ControllerSettings}
    (hrun : Execution step (launch settings) history s) : s.controller.settings = settings := by
  induction hrun with
  | nil => rfl
  | cons _ hs ih =>
    cases transition_of_step hs with
    | controller m c link ht => exact (Controller.settings_transition ht).trans ih
    | _ => exact ih

/-- A controller reports a hang if and only if it has taken the verdict. -/
theorem hang_isSome_of_launch {settings : ControllerSettings}
    (hrun : Execution step (launch settings) history s) :
    s.controller.hang.isSome = verdictTaken history := by
  induction hrun with
  | nil => rfl
  | @cons history s s' m _ hs ih =>
    cases transition_of_step hs with
    | controller m c link ht =>
      rcases Controller.hang_transition ht with ⟨hm, hsame⟩ | ⟨rfl, hhang⟩
      · have hcons : verdictTaken ((s, .controller m) :: history) = verdictTaken history := by
          cases m <;> first | rfl | exact absurd rfl hm
        rw [hcons, hsame, ih]
      · exact hhang
    | _ => exact ih

/-- Only last words are not waited for without end. -/
theorem not_gaveUp {settings : ControllerSettings}
    (hrun : Execution step (launch settings) history s) (hcalm : verdictTaken history = false) :
    gaveUp history = false := by
  induction hrun with
  | nil => rfl
  | @cons history s s' m hrun hs ih =>
    obtain ⟨hm, hbefore⟩ := Bool.or_eq_false_iff.mp (List.any_cons.symm.trans hcalm)
    rw [gaveUp, List.any_cons, Bool.or_eq_false_iff]
    refine ⟨?_, ih hbefore⟩
    cases transition_of_step hs with
    | controller m c link ht =>
      cases ht with
      | giveUp hphase =>
        have hhang := (stream_of_launch hrun).hung (by rw [hphase]; rfl)
        have hnone := hang_isSome_of_launch hrun
        rw [show verdictTaken history = false from hbefore, Option.isSome_eq_false_iff,
          Option.isNone_iff_eq_none] at hnone
        exact absurd hnone hhang
      | pause _ _ _ _ _ _ hm => rcases hm with ⟨rfl, -⟩ | ⟨rfl, -⟩ <;> rfl
      | _ => rfl
    | _ => rfl

/-! ## What the target is given -/

/-- The controller sends no interrupts itself. -/
def Polite (c : Controller) : Prop :=
  ∀ command, .send command ∈ c.phase.acts → command.isInterrupt = false

/-- What the target has taken or can still take, interrupts apart, beside what it was offered. -/
structure Delivery (history : List (Linked × LinkedMove)) (s : Linked) : Prop where
  polite : Polite s.controller
  whole : s.link.commands.receiving = true →
    (taken history ++ s.link.commands.queue).filter (!·.isInterrupt) = offered history
  lost : s.link.commands.receiving = false → s.link.commands.queue = [] ∧
    (taken history).filter (!·.isInterrupt) <+: offered history
  closed : s.link.commands.receiving = !closed history

theorem polite_transition {c c' : Controller} {link link' : Link} {m : ControllerMove}
    (h : Polite c) (ht : c.Transition link m c' link') : Polite c' := by
  cases ht with
  | take writing event rest hphase hq =>
    exact fun command hmem => Controller.polite_handle (c := { c with
      log := c.log.record event writing }) hphase hmem
  | takeLast writing event rest hphase =>
    rcases Controller.phase_drain (c := { c with
      log := c.log.record event writing }) event hphase with ⟨-, hnext⟩ | ⟨-, hnext⟩ <;>
    simp [Polite, hnext, ControllerPhase.acts]
  | send command rest hphase | startGenerator rest hphase =>
    intro other hmem
    rw [Controller.acts_acting] at hmem
    exact h other (by rw [hphase]; exact List.mem_cons_of_mem _ hmem)
  | takeNone | force | leave | finish | takeVerdict | giveUp =>
    simp [Polite, ControllerPhase.acts]
  | beginWatch | look | bark | signal | missSignal | pause => exact h

theorem closed_cons_of_ne (hm : m ≠ .close) : Linked.closed ((s, m) :: history) =
    Linked.closed history := by
  cases m <;> first | rfl | exact absurd rfl hm

/-- A move by which nothing is taken: what it adds to the queue is what was offered, interrupts
apart. -/
theorem Delivery.add (h : Delivery history s) (hpolite : Polite s'.controller) (hm : m ≠ .close)
    (htaken : s.commandTaken m = [])
    (hreceiving : s'.link.commands.receiving = s.link.commands.receiving)
    (hqueue : ∃ more, s'.link.commands.queue =
      s.link.commands.queue ++ (if s.link.commands.receiving then more else []) ∧
        more.filter (!·.isInterrupt) = s.commandOffered m) :
    Delivery ((s, m) :: history) s' := by
  obtain ⟨more, hadded, hoffered⟩ := hqueue
  refine ⟨hpolite, fun hopen => ?_, fun hdeaf => ?_, ?_⟩
  · rw [hreceiving] at hopen
    rw [taken_cons_of_nil htaken, offered_cons, hadded, if_pos hopen, ← List.append_assoc,
      List.filter_append, h.whole hopen, hoffered]
  · rw [hreceiving] at hdeaf
    obtain ⟨hempty, hprefix⟩ := h.lost hdeaf
    rw [taken_cons_of_nil htaken, offered_cons, hadded, hdeaf, hempty]
    exact ⟨rfl, hprefix.trans (List.prefix_append _ _)⟩
  · rw [hreceiving, closed_cons_of_ne hm, h.closed]

theorem queue_offer (commands : Channel ControlCommand) (command : ControlCommand) :
    (commands.offer command).queue =
        commands.queue ++ (if commands.receiving then [command] else []) ∧
      (commands.offer command).receiving = commands.receiving := by
  unfold Channel.offer Channel.send
  cases hreceiving : commands.receiving <;> simp [hreceiving]

theorem delivery_controller {m : ControllerMove} {c : Controller} {link : Link}
    (h : Delivery history s) (ht : s.controller.Transition s.link m c link) :
    Delivery ((s, .controller m) :: history) ⟨c, link⟩ := by
  have hpolite := polite_transition h.polite ht
  have hm : LinkedMove.controller m ≠ .close := by simp
  have hsame (hoffered : s.commandOffered (.controller m) = [])
      (hqueue : link.commands.queue = s.link.commands.queue)
      (hreceiving : link.commands.receiving = s.link.commands.receiving) :
      Delivery ((s, .controller m) :: history) ⟨c, link⟩ :=
    h.add hpolite hm rfl hreceiving ⟨[], by simpa using hqueue, hoffered.symm⟩
  have hsent {command : ControlCommand} (hoffered : s.commandOffered (.controller m) = [command])
      (hcommand : command.isInterrupt = false)
      (hcommands : link.commands = s.link.commands.offer command) :
      Delivery ((s, .controller m) :: history) ⟨c, link⟩ := by
    obtain ⟨hqueue, hreceiving⟩ := queue_offer s.link.commands command
    refine h.add hpolite hm rfl ?_ ⟨[command], ?_, ?_⟩
    · rw [hcommands, hreceiving]
    · rw [hcommands, hqueue]
    · simp [hoffered, hcommand]
  cases ht with
  | send command rest hphase =>
    refine hsent (by simp [commandOffered, hphase]) (h.polite command ?_) rfl
    simp [hphase, ControllerPhase.acts]
  | force hphase => exact hsent (by simp [commandOffered, hphase]) rfl rfl
  | startGenerator _ hphase => exact hsame (by simp [commandOffered, hphase]) rfl rfl
  | leave hphase =>
    refine hsame (by simp [commandOffered, hphase]) ?_ ?_ <;> simp only <;> split <;> rfl
  | finish hphase =>
    refine hsame (by simp [commandOffered, hphase]) ?_ ?_ <;> simp only <;> split <;> rfl
  | signal k session g g' commands hk hg hsignal =>
    obtain ⟨-, hreceiving, rfl⟩ := ThreadRef.of_signal hsignal
    exact h.add hpolite hm rfl rfl ⟨[.interrupt session.ref.id], by simp [hreceiving], rfl⟩
  | pause _ _ _ _ _ _ hpause =>
    refine hsame ?_ rfl rfl
    rcases hpause with ⟨rfl, -⟩ | ⟨rfl, -⟩ <;> rfl
  | _ => exact hsame rfl rfl rfl

theorem delivery_transition (h : Delivery history s) (ht : s.Transition m s') :
    Delivery ((s, m) :: history) s' := by
  cases ht with
  | controller m c link ht => exact delivery_controller h ht
  | say | fallSilent => exact h.add h.polite nofun rfl rfl ⟨[], by simp, rfl⟩
  | takeCommand command rest hq =>
    have htaken : taken ((s, .takeCommand) :: history) = taken history ++ [command] := by
      rw [taken_cons, commandTaken, hq]
      rfl
    refine ⟨h.polite, fun hopen => ?_, fun hdeaf => ?_, ?_⟩
    · rw [htaken, offered_cons_of_nil rfl, ← h.whole hopen, hq, List.append_assoc]
      rfl
    · rw [(h.lost hdeaf).1] at hq
      cases hq
    · exact h.closed
  | close =>
    refine ⟨h.polite, nofun, fun _ => ⟨rfl, ?_⟩, rfl⟩
    rw [taken_cons_of_nil rfl, offered_cons_of_nil rfl]
    cases hopen : s.link.commands.receiving with
    | true =>
      rw [← h.whole hopen, List.filter_append]
      exact List.prefix_append _ _
    | false => exact (h.lost hopen).2
  | interrupt thread =>
    obtain ⟨hqueue, hreceiving⟩ := queue_offer s.link.commands (.interrupt thread)
    exact h.add h.polite nofun rfl hreceiving ⟨[.interrupt thread], hqueue, rfl⟩

/-- The target is given what the controller has offered, in order: all of it if it has not closed
its end. -/
theorem delivery_of_launch {settings : ControllerSettings}
    (hrun : Execution step (launch settings) history s) :
    (taken history ++ s.link.commands.queue).filter (!·.isInterrupt) <+: offered history ∧
      (Linked.closed history = false →
        (taken history ++ s.link.commands.queue).filter (!·.isInterrupt) = offered history) := by
  have h : Delivery history s := by
    induction hrun with
    | nil =>
      exact ⟨by simp [Polite, launch, Controller.start, ControllerPhase.acts], fun _ => rfl, nofun,
        rfl⟩
    | cons _ hs ih => exact delivery_transition ih (transition_of_step hs)
  cases hopen : s.link.commands.receiving with
  | true => exact ⟨h.whole hopen ▸ List.prefix_rfl, fun _ => h.whole hopen⟩
  | false =>
    obtain ⟨hempty, hprefix⟩ := h.lost hopen
    refine ⟨by rwa [hempty, List.append_nil], fun hclosed => ?_⟩
    have hsame := h.closed
    rw [hopen, hclosed] at hsame
    cases hsame

end Linked

/-! ## A target in the same process -/

/-- A controller says nothing itself. -/
theorem Controller.sending_transition {c c' : Controller} {link link' : Link} {m : ControllerMove}
    (ht : c.Transition link m c' link') : link'.events.sending = link.events.sending := by
  cases ht <;> rfl

/-- Whether some sender is left makes no difference to what one of them queues. -/
theorem Channel.offer_sending {α : Type} (channel : Channel α) (sending : Bool) (value : α) :
    { channel with sending }.offer value = { channel.offer value with sending } := by
  cases hreceiving : channel.receiving <;> simp [offer, send, hreceiving]

/-- All that a target can do to its link is to say something, to take a command, or to close its
end. -/
theorem Target.link_of_transition {t t' : Target} {m : TargetMove} {move : Option LocalMove}
    (ht : t.Transition m move t') :
    t'.link = t.link ∨
      (∃ event, t.isSilent = false ∧
        t'.link = { t.link with events := t.link.events.offer event }) ∨
      (∃ command rest, t.link.commands.queue = command :: rest ∧
        t'.link = { t.link with commands := { t.link.commands with queue := rest } }) ∨
      t'.link = { t.link with commands := t.link.commands.close } := by
  cases ht with
  | suspend line hmain | step line run hmain =>
    exact .inr (.inl ⟨_, by simp [isSilent, hmain], rfl⟩)
  | announce event rest hagent =>
    exact .inr (.inl ⟨event, by simp [isSilent, hagent], rfl⟩)
  | request _ rest _ hq | resume rest _ hq | interrupt rest _ hq | ignore _ rest _ hq
  | exit _ rest _ hq =>
    exact .inr (.inr (.inl ⟨_, rest, hq, rfl⟩))
  | closeCommands => exact .inr (.inr (.inr rfl))
  | _ => exact .inl rfl

namespace Linked

variable {start : Linked} {t t' : Target} {c : Controller} {link : Link}

/-- A target's link, where it may not show yet that nobody is left to say anything. -/
def Shows (t : Target) (link : Link) : Prop :=
  ∃ sending, link = { t.link with events := { t.link.events with sending } } ∧
    (sending = false → t.isSilent = true)

theorem Shows.of_speaking (h : Shows t link) (hspeaks : t.isSilent = false) :
    link = { t.link with events := { t.link.events with sending := true } } := by
  obtain ⟨sending, rfl, hsilent⟩ := h
  cases sending with
  | true => rfl
  | false =>
    rw [hsilent rfl] at hspeaks
    cases hspeaks

/-- What a controller has missed so far it can be shown. -/
theorem exists_openLink (h : Shows t link) (hrun : Execution step start history ⟨c, link⟩) :
    ∃ history', Execution step start history' ⟨c, t.openLink⟩ := by
  cases hs : t.isSilent with
  | true =>
    obtain ⟨sending, rfl, -⟩ := h
    refine ⟨_, hrun.cons (m := .fallSilent) ?_⟩
    simp [step, Target.openLink, Channel.hangUp, hs]
  | false =>
    refine ⟨history, ?_⟩
    rw [Target.openLink, hs]
    exact h.of_speaking hs ▸ hrun

theorem exists_targetMove {m : TargetMove} {move : Option LocalMove} (h : Shows t link)
    (hrun : Execution step start history ⟨c, link⟩) (ht : t.Transition m move t') :
    ∃ history' link', Execution step start history' ⟨c, link'⟩ ∧ Shows t' link' := by
  rcases Target.link_of_transition ht with
    hsame | ⟨event, hspeaks, hsaid⟩ | ⟨command, rest, hq, htaken⟩ | hclosed
  · obtain ⟨sending, rfl, hsilent⟩ := h
    exact ⟨history, _, hrun, sending, by rw [hsame],
      fun hdone => (Target.silent_of_transition (hsilent hdone) ht).1⟩
  · obtain rfl := h.of_speaking hspeaks
    refine ⟨_, _, hrun.cons (m := .say event) rfl, true, ?_, by simp⟩
    rw [hsaid, ← Channel.offer_sending]
  · obtain ⟨sending, rfl, hsilent⟩ := h
    refine ⟨_, { t'.link with events := { t'.link.events with sending } },
      hrun.cons (m := .takeCommand) ?_, sending, rfl,
      fun hdone => (Target.silent_of_transition (hsilent hdone) ht).1⟩
    rw [htaken]
    simp [step, Channel.receive, hq]
  · obtain ⟨sending, rfl, hsilent⟩ := h
    refine ⟨_, _, hrun.cons (m := .close) rfl, sending, ?_,
      fun hdone => (Target.silent_of_transition (hsilent hdone) ht).1⟩
    rw [hclosed]

/-- A controller with its target in one process is one of those whose target does what it likes. -/
theorem exists_of_supervised {settings : ControllerSettings} {worker : WorkerSettings}
    {history : List (Supervised × SupervisedMove)} {s : Supervised}
    (hrun : Execution Supervised.step (Supervised.launch settings worker) history s) :
    ∃ history', Execution step (launch settings) history' ⟨s.controller, s.target.openLink⟩ := by
  suffices h : ∃ history' link, Execution step (launch settings) history' ⟨s.controller, link⟩ ∧
      Shows s.target link by
    obtain ⟨history', link, hrun', hshows⟩ := h
    exact exists_openLink hshows hrun'
  induction hrun with
  | nil => exact ⟨_, _, Execution.nil.cons (m := .say (.started .main)) rfl, true, rfl, by simp⟩
  | @cons history s s' m _ hs ih =>
    obtain ⟨history', link, hrun', hshows⟩ := ih
    cases m with
    | target m =>
      obtain ⟨t, ht, rfl⟩ := Supervised.of_targetStep hs
      exact exists_targetMove hshows hrun' ht
    | controller m =>
      obtain ⟨⟨c, link'⟩, hmoved, rfl⟩ := Option.map_eq_some_iff.mp hs
      obtain ⟨history'', hshown⟩ := exists_openLink hshows hrun'
      have hsending := Controller.sending_transition (Controller.transition_of_step hmoved)
      refine ⟨_, link', hshown.cons (m := .controller m) ?_, link'.events.sending, rfl, ?_⟩
      · simp [step, hmoved]
      · intro hdone
        have hsilent : s.target.isSilent = true := by
          simpa [Target.openLink] using hsending.symm.trans hdone
        exact hsilent

end Linked

end InterruptStress
