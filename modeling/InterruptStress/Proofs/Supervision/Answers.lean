import InterruptStress.Proofs.Supervision.Ending
import Mathlib.Data.List.Infix

/-!
# What a controller makes of the events that it hears

Until a verdict is taken, a controller is determined by the events that it has received, whatever
they are and in whatever order they come (`Linked.Course`): it has counted the steps among them,
knows of the last death, and has answered each of them, or is about to.  So its report and its
commands are a function of the events before the first disconnect
(`Linked.answers_of_launch`).  Nothing in this depends on when the watchdog looks, on what the
generators do, or on whether the target takes commands at all.
-/

namespace InterruptStress

/-- The exit that the last death among some events tells of. -/
def lastExit (events : List TargetEvent) : Option TargetExit :=
  (events.filterMap Pipe.exit?).getLast?

theorem lastExit_concat (events : List TargetEvent) (event : TargetEvent) :
    lastExit (events ++ [event]) = (Pipe.exit? event).or (lastExit events) := by
  rw [lastExit, lastExit, List.filterMap_append]
  cases event <;> simp [Pipe.exit?]

namespace Controller

variable {c : Controller}

theorem exit_handle (event : TargetEvent) :
    (c.handle event).exit = (Pipe.exit? event).or c.exit := by
  cases event with
  | threadDeath thread =>
    simp only [handle]
    split <;> rfl
  | _ => rfl

theorem markDead_sessions_eq_nil : c.markDead.sessions = [] ↔ c.sessions = [] := by
  simp [markDead, modifyLatest]

theorem sessions_handle_eq_nil (event : TargetEvent) :
    (c.handle event).sessions = [] ↔ c.sessions = [] ∧ event.isStart = false := by
  cases event with
  | started thread => simp [handle, TargetEvent.isStart]
  | threadDeath thread =>
    simp only [handle]
    split <;> simp [markDead_sessions_eq_nil, TargetEvent.isStart]
  | _ => simp [handle, TargetEvent.isStart]

end Controller

namespace Linked

variable {s s' : Linked} {m : LinkedMove} {history : List (Linked × LinkedMove)}

/-- What has become of a controller that has not taken a verdict. -/
structure Course (history : List (Linked × LinkedMove)) (c : Controller) : Prop where
  calm : c.phase.isForcing = false
  hang : c.hang = none
  steps : c.steps = (received history).countP TargetEvent.isStep
  exit : c.exit = lastExit (received history)
  answered : offered history ++ c.phase.acts.filterMap ControllerAct.command? =
    (received history).flatMap (TargetEvent.answers c.settings.suspend)
  started : c.sessions = [] ↔ (received history).all (!·.isStart) = true

theorem course_start (settings : ControllerSettings) : Course [] (.start settings) where
  calm := rfl
  hang := rfl
  steps := rfl
  exit := rfl
  answered := rfl
  started := iff_of_true rfl rfl

/-- A move by which nothing is received. -/
theorem Course.frame (h : Course history s.controller) {c : Controller}
    (hreceived : s.eventReceived m = []) (hsettings : c.settings = s.controller.settings)
    (hcalm : c.phase.isForcing = false) (hhang : c.hang = s.controller.hang)
    (hsteps : c.steps = s.controller.steps) (hexit : c.exit = s.controller.exit)
    (hanswered : s.commandOffered m ++ c.phase.acts.filterMap ControllerAct.command? =
      s.controller.phase.acts.filterMap ControllerAct.command?)
    (hstarted : c.sessions = [] ↔ s.controller.sessions = []) :
    Course ((s, m) :: history) c where
  calm := hcalm
  hang := hhang.trans h.hang
  steps := by rw [received_cons_of_nil hreceived, hsteps, h.steps]
  exit := by rw [received_cons_of_nil hreceived, hexit, h.exit]
  answered := by
    rw [received_cons_of_nil hreceived, offered_cons, List.append_assoc, hanswered, hsettings,
      h.answered]
  started := by rw [received_cons_of_nil hreceived, hstarted, h.started]

/-- An event is received and its answer begun. -/
theorem Course.take {c : Controller} {event : TargetEvent} (h : Course history c)
    (hphase : c.phase = .listening) (hreceived : s.eventReceived m = [event])
    (hoffered : s.commandOffered m = []) : Course ((s, m) :: history) (c.handle event) where
  calm := by
    rcases Controller.phase_handle event hphase with ⟨-, hending⟩ | ⟨-, hopen⟩
    · rw [hending]
      rfl
    · exact ControllerPhase.isForcing_of_isOpen hopen
  hang := (Controller.hang_handle event).trans h.hang
  steps := by
    rw [Controller.steps_handle, received_cons, hreceived, List.countP_append, ← h.steps,
      List.countP_singleton]
    cases event.isStep <;> rfl
  exit := by rw [Controller.exit_handle, received_cons, hreceived, lastExit_concat, ← h.exit]
  answered := by
    have hidle := h.answered
    rw [hphase] at hidle
    rw [acts_handle event hphase, Controller.settings_handle, received_cons, hreceived,
      offered_cons_of_nil hoffered, List.flatMap_append, ← hidle]
    simp [ControllerPhase.acts]
  started := by
    rw [Controller.sessions_handle_eq_nil, received_cons, hreceived, List.all_append,
      Bool.and_eq_true, ← h.started]
    simp

theorem course_transition {m : ControllerMove} {c : Controller} {link : Link}
    (h : Course history s.controller) (hm : m ≠ .takeVerdict)
    (ht : s.controller.Transition s.link m c link) : Course ((s, .controller m) :: history) c := by
  have hnotForcing {phase : ControllerPhase} (hphase : s.controller.phase = phase)
      (hforcing : phase.isForcing = true) : False := by
    have hcalm := h.calm
    rw [hphase, hforcing] at hcalm
    cases hcalm
  cases ht with
  | take writing event rest hphase hq =>
    have hlogged : Course history { s.controller with
      log := s.controller.log.record event writing } := ⟨h.1, h.2, h.3, h.4, h.5, h.6⟩
    exact hlogged.take hphase (by simp [eventReceived, hq]) rfl
  | takeLast writing event rest hphase => exact (hnotForcing hphase rfl).elim
  | takeNone writing hphase hq =>
    have hacts : s.controller.phase.acts = [] := by
      rcases hphase with hphase | hphase <;> rw [hphase] <;> rfl
    refine h.frame (by simp [eventReceived, hq]) rfl rfl rfl rfl rfl ?_ .rfl
    rw [hacts]
    rfl
  | send command rest hphase =>
    refine h.frame rfl rfl ?_ rfl rfl rfl ?_ .rfl
    · exact ControllerPhase.isForcing_of_isOpen (Controller.isOpen_acting rest)
    · rw [Controller.acts_acting, commandOffered, hphase]
      rfl
  | startGenerator rest hphase =>
    refine h.frame rfl rfl ?_ rfl rfl rfl ?_ ?_
    · exact ControllerPhase.isForcing_of_isOpen (Controller.isOpen_acting rest)
    · rw [Controller.acts_acting, commandOffered, hphase]
      rfl
    · simp [Controller.modifyLatest]
  | force hphase => exact (hnotForcing hphase rfl).elim
  | leave hphase =>
    refine h.frame rfl rfl rfl rfl rfl rfl ?_ Controller.markDead_sessions_eq_nil
    rw [commandOffered, hphase]
    rfl
  | finish hphase =>
    refine h.frame rfl rfl rfl rfl rfl rfl ?_ .rfl
    rw [commandOffered, hphase]
    rfl
  | takeVerdict => exact absurd rfl hm
  | giveUp hphase => exact (hnotForcing hphase rfl).elim
  | beginWatch | look | bark => exact h.frame rfl rfl h.calm rfl rfl rfl rfl .rfl
  | signal | missSignal => exact h.frame rfl rfl h.calm rfl rfl rfl rfl (by simp)
  | pause _ _ _ _ _ _ hm =>
    rcases hm with ⟨rfl, -⟩ | ⟨rfl, -⟩ <;>
      exact h.frame rfl rfl h.calm rfl rfl rfl rfl (by simp)

theorem course_of_launch {settings : ControllerSettings}
    (hrun : Execution step (launch settings) history s) (hcalm : verdictTaken history = false) :
    Course history s.controller := by
  induction hrun with
  | nil => exact course_start settings
  | @cons history s s' m _ hs ih =>
    obtain ⟨hm, hbefore⟩ := Bool.or_eq_false_iff.mp (List.any_cons.symm.trans hcalm)
    have h := ih hbefore
    cases transition_of_step hs with
    | controller m c link ht =>
      refine course_transition h ?_ ht
      rintro rfl
      cases hm
    | _ => exact h.frame rfl rfl h.calm rfl rfl rfl rfl .rfl

/-! ## The report and the commands -/

/-- The events that count of those that the target has said. -/
def heard (history : List (Linked × LinkedMove)) : List TargetEvent := Pipe.written (said history)

/-- Without a verdict the controller receives what counts, and the disconnect at most beyond it. -/
theorem received_of_calm {settings : ControllerSettings}
    (hrun : Execution step (launch settings) history s) (hcalm : verdictTaken history = false) :
    (s.controller.phase.isLeaving = false ∧ received history <+: heard history) ∨
      ∃ last, received history = heard history ++ last ∧ ∀ e ∈ last, e = .disconnected := by
  have hstream := stream_of_launch hrun
  cases hleaving : s.controller.phase.isLeaving with
  | false =>
    obtain ⟨htotal, hfresh, -⟩ := hstream.listening hleaving
    refine .inl ⟨rfl, ?_⟩
    rw [heard, show said history = _ from htotal, Pipe.written_append hfresh]
    exact List.prefix_append _ _
  | true =>
    refine .inr ?_
    rcases hstream.left hleaving with ⟨hlast, -⟩ | ⟨hall, -⟩ | ⟨-, hgave⟩
    · exact ⟨[.disconnected], hlast, by simp⟩
    · exact ⟨[], hall.trans (List.append_nil _).symm, by simp⟩
    · rw [not_gaveUp hrun hcalm] at hgave
      cases hgave

/-- A disconnect is no step, no death and no start, and is not answered. -/
theorem nothing_of_disconnects (policy : SuspendPolicy) {events : List TargetEvent}
    (h : ∀ e ∈ events, e = .disconnected) :
    events.flatMap (TargetEvent.answers policy) = [] ∧ events.countP TargetEvent.isStep = 0 ∧
      events.filterMap Pipe.exit? = [] ∧ events.all (!·.isStart) = true := by
  refine ⟨?_, ?_, ?_, ?_⟩
  · exact List.flatMap_eq_nil_iff.mpr fun e he => by rw [h e he]; rfl
  · exact List.countP_eq_zero.mpr fun e he => by rw [h e he]; nofun
  · exact List.filterMap_eq_nil_iff.mpr fun e he => by rw [h e he]; rfl
  · exact List.all_eq_true.mpr fun e he => by rw [h e he]; rfl

/-- What a controller tells of its generator in the end. -/
theorem remoteResult_isSome {c : Controller} (h : Manned c) (hphase : c.phase = .finished) :
    c.remoteResult.isSome = true ↔ c.settings.mode = .remote ∧ c.sessions ≠ [] := by
  have hstarting := h.starting
  have hjoined := h.joined hphase
  rw [hphase] at hstarting
  cases hsessions : c.sessions with
  | nil => simp [Controller.remoteResult, hsessions]
  | cons latest others =>
    have hunmanned := fun hlocal => h.unmanned hlocal latest (hsessions ▸ .head _)
    rw [Controller.latest?, hsessions] at hjoined
    rw [hsessions] at hstarting
    cases hg : latest.generator with
    | none =>
      have hmode : c.settings.mode ≠ .remote := by
        intro hremote
        simp [hg, hremote, ControllerPhase.acts, Mode.hasLocalGenerator] at hstarting
      simp [Controller.remoteResult, hsessions, hg, hmode]
    | some g =>
      have hmode : c.settings.mode = .remote := by
        cases hmode : c.settings.mode with
        | remote => rfl
        | _ =>
          have hnone := hunmanned (by rw [hmode]; rfl)
          rw [hg] at hnone
          cases hnone
      cases hresult : g.result? with
      | none => simp [hg, hresult] at hjoined
      | some result => simp [Controller.remoteResult, hsessions, hg, hresult, hmode]

/-- What a controller that has not taken a verdict makes of the events that it has heard. -/
structure Answers (settings : ControllerSettings) (history : List (Linked × LinkedMove))
    (s : Linked) : Prop where
  /-- In the end every event that was heard has been answered, and before the end some of them. -/
  answered : s.controller.phase = .finished →
    offered history = (heard history).flatMap (TargetEvent.answers settings.suspend)
  answering : offered history <+: (heard history).flatMap (TargetEvent.answers settings.suspend)
  /-- This is what the target is given, unless it closes its end. -/
  given : (taken history ++ s.link.commands.queue).filter (!·.isInterrupt) <+: offered history
  whole : closed history = false →
    (taken history ++ s.link.commands.queue).filter (!·.isInterrupt) = offered history
  report : s.controller.phase = .finished → ∀ runId, ∃ remote,
    s.controller.report runId =
      ⟨runId, settings.mode, .ofNat ((heard history).countP TargetEvent.isStep), none,
        lastExit (heard history), remote⟩ ∧
    (remote.isSome = true ↔
      settings.mode = .remote ∧ ∃ event ∈ heard history, event.isStart = true)
  /-- The controller comes to its end: there are so many turns at most until then, and it can take
  one unless it listens to a target that says nothing and has not gone. -/
  turns : turns history ≤ 4 * (said history).length + 8
  turn : s.controller.phase = .finished ∨
    (s.controller.phase = .listening ∧ s.link.events.queue = [] ∧ s.link.events.sending = true) ∨
    ∃ m, s.isTurn (.controller m) = true ∧ (s.step (.controller m)).isSome = true

/-- Whatever the settings, the events and their order, the looks of the watchdog, the turns of the
generators, and whether and when the target takes commands or closes its end. -/
theorem answers_of_launch {settings : ControllerSettings}
    (hrun : Execution step (launch settings) history s) (hcalm : verdictTaken history = false) :
    Answers settings history s := by
  have hcourse := course_of_launch hrun hcalm
  have hmanned := manned_of_launch hrun
  have hsettings := settings_of_launch hrun
  obtain ⟨hgiven, hwhole⟩ := delivery_of_launch hrun
  have hanswered := hcourse.answered
  rw [hsettings] at hanswered
  have hend (hphase : s.controller.phase = .finished) :
      ∃ last, received history = heard history ++ last ∧ ∀ e ∈ last, e = .disconnected := by
    rcases received_of_calm hrun hcalm with ⟨hopen, -⟩ | hlast
    · rw [hphase] at hopen
      cases hopen
    · exact hlast
  refine ⟨fun hphase => ?_, ?_, hgiven, hwhole, fun hphase runId => ?_, ?_, ?_⟩
  · obtain ⟨last, hreceived, honly⟩ := hend hphase
    obtain ⟨hnothing, -⟩ := nothing_of_disconnects settings.suspend honly
    rw [hphase, hreceived, List.flatMap_append, hnothing] at hanswered
    simpa [ControllerPhase.acts] using hanswered
  · have hsome : offered history <+:
        (received history).flatMap (TargetEvent.answers settings.suspend) :=
      hanswered ▸ List.prefix_append _ _
    rcases received_of_calm hrun hcalm with ⟨-, hpart⟩ | ⟨last, hreceived, honly⟩
    · exact hsome.trans (hpart.flatMap _)
    · obtain ⟨hnothing, -⟩ := nothing_of_disconnects settings.suspend honly
      rwa [hreceived, List.flatMap_append, hnothing, List.append_nil] at hsome
  · obtain ⟨last, hreceived, honly⟩ := hend hphase
    obtain ⟨-, hcount, hexits, hstarts⟩ := nothing_of_disconnects settings.suspend honly
    have hsteps := hcourse.steps
    have hexit := hcourse.exit
    have hstarted := hcourse.started
    rw [hreceived, List.countP_append, hcount, Nat.add_zero] at hsteps
    rw [hreceived, lastExit, List.filterMap_append, hexits, List.append_nil] at hexit
    rw [hreceived, List.all_append, hstarts, Bool.and_true] at hstarted
    refine ⟨s.controller.remoteResult, ?_, ?_⟩
    · rw [Controller.report, hsettings, hsteps, hcourse.hang, hexit]
      rfl
    · rw [remoteResult_isSome hmanned hphase, hsettings, ne_eq, hstarted]
      simp
  · exact turns_le_of_launch hrun
  · by_cases hphase : s.controller.phase = .finished
    · exact .inl hphase
    · exact .inr (turn_of_launch hrun hphase)

/-- A target that steps before it starts, starts twice, dies twice, goes on after its disconnect,
and closes its end of the command channel in between. -/
theorem answers_of_launch_disorderly :
    ∃ history s, Execution step
        (launch ⟨.remote, .ofMillis 100, .thread, .ofMillis 1, .ofMillis 5000⟩) history s ∧
      verdictTaken history = false ∧ s.controller.phase = .finished ∧
      offered history = [.resume, .createStepRequest ⟨7⟩ .thread, .resume,
        .createStepRequest ⟨8⟩ .thread, .resume] ∧
      (s.controller.report "one").steps = 2 ∧ (s.controller.report "one").hang = none ∧
      (s.controller.report "one").exit = some ⟨1, none, none⟩ ∧
      (s.controller.report "one").remote.isSome = true := by
  let line (suspended : Bool) : TargetEvent := .step ⟨7⟩ ⟨"run", 1⟩ suspended
  let take : LinkedMove := .controller (.receive default)
  let act : LinkedMove := .controller .act
  let signal : LinkedMove := .controller (.generator 0)
  have hrun := Execution.of_replay (.nil : Execution step
      (launch ⟨.remote, .ofMillis 100, .thread, .ofMillis 1, .ofMillis 5000⟩) [] _)
    [.say (line true), take, act, .controller (.beginWatch 5), .say (.started ⟨7⟩), take, act, act,
      .close, act, signal, .say (.death ⟨0, none, none⟩), take, .say (.started ⟨8⟩), take, act, act,
      act, .say (.threadDeath ⟨7⟩), take, .say (line false), take, .say (.death ⟨1, none, none⟩),
      take, .say .disconnected, .say (line true), take, act, signal, act] rfl
  have hanswers := answers_of_launch hrun rfl
  obtain ⟨remote, hreport, hremote⟩ := hanswers.report rfl "one"
  have hsome : remote.isSome = true := hremote.mpr ⟨rfl, .started ⟨7⟩, by decide, rfl⟩
  exact ⟨_, _, hrun, rfl, rfl, hanswers.answered rfl, by rw [hreport]; rfl, by rw [hreport],
    by rw [hreport]; rfl, by rw [hreport]; exact hsome⟩

end Linked

end InterruptStress
