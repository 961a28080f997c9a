import InterruptStress.Proofs.Supervision.Supervised
import InterruptStress.Proofs.Target.TracedThread

/-!
# The main thread as a traced thread

A target's main thread asks for its start once and then reports the lines of its worker.  The
callers of its tracer are the target's agent, which applies the commands, and the controller, which
closes the receiver of the events when it has finished.  So whatever happens to a supervised target
is a move of a traced thread, or nothing to it (`Target.shows_transition`), and every run of the two
is one of a traced thread (`Supervised.exists_traced`).  What holds of these whoever calls holds of
the main thread: it is never left parked by a detachment, not even in a target that the controller
has given up (`Supervised.parked_of_run`).
-/

namespace InterruptStress

/-- Where a traced thread is when it is the main thread of a target. -/
def MainPhase.IsAt : MainPhase → TracedPhase → Prop
  | entering, phase => phase = .created
  | parkedAtStart, phase => phase = .within .start
  | working, phase => phase = .free
  | parkedAtLine, phase => ∃ number, phase = .within (.line number)
  | ended _, phase => phase = .free ∨ phase = .refused

theorem MainPhase.parked_of_isAt {phase : MainPhase} {call : TracedCall}
    (h : phase.IsAt (.within call)) : phase = .parkedAtStart ∨ phase = .parkedAtLine := by
  cases phase with
  | parkedAtStart => exact .inl rfl
  | parkedAtLine => exact .inr rfl
  | entering | working | ended => simp [IsAt] at h

namespace Target

/-- A target's main thread, with its tracer and with the receiver of its events, is a traced
thread. -/
structure Shows (t : Target) (s : TracedThread) : Prop where
  tracer : s.tracer = t.tracer
  receiving : s.receiving = t.link.events.receiving
  main : t.main.IsAt s.phase

/-- A target shows a traced thread as before, or the thread has made a move. -/
def ShowsNext (t : Target) (s : TracedThread) : Prop :=
  t.Shows s ∨ ∃ m s', s.step m = some s' ∧ t.Shows s'

variable {t t' : Target} {s : TracedThread} {m : TargetMove} {move : Option LocalMove}

namespace Shows

/-- A main thread that is entering waits for its start, or begins to. -/
theorem awaits_start (h : t.Shows s) (hmain : t.isEntering = true) :
    ∃ m, s.Awaits m .start := by
  have hat := h.main
  unfold isEntering at hmain
  split at hmain
  · next hentering =>
    rw [hentering] at hat
    exact ⟨.start, .first hat⟩
  · next hparked =>
    rw [hparked] at hat
    exact ⟨.wake, .again .start hat (by simpa [h.tracer] using hmain)⟩
  · cases hmain

/-- A main thread that was woken in a line looks whether the line may return. -/
theorem awaits_line (h : t.Shows s) (hmain : t.main = .parkedAtLine)
    (hwoken : t.tracer.parked = false) : ∃ number, s.Awaits .wake (.line number) := by
  have hat := h.main
  rw [hmain] at hat
  obtain ⟨number, hphase⟩ := hat
  exact ⟨number, .again _ hphase (by rw [h.tracer, hwoken])⟩

theorem free (h : t.Shows s) (hmain : t.main = .working) : s.phase = .free := by
  have hat := h.main
  rwa [hmain] at hat

/-- The main thread looks whether its call may return. -/
theorem look (h : t.Shows s) {m : TracerMove} {call : TracedCall} (hawaits : s.Awaits m call)
    {found : Option Bool × Tracer} (hfound : t.tracer.look = found)
    (htracer : t'.tracer = found.2) (hlink : t'.link = t.link)
    (hmain : t'.main.IsAt (call.phaseAfter found.1)) : t'.ShowsNext s := by
  refine .inr ⟨m, (s.await call).thread, ?_, ?_, ?_, ?_⟩
  · rw [TracedThread.step, TracedThread.act_of_awaits hawaits, Option.map_some]
  · rw [TracedThread.await_of_look (h.tracer ▸ hfound), htracer]
  · rw [TracedThread.await_of_look (h.tracer ▸ hfound), hlink, h.receiving]
  · rwa [TracedThread.await_of_look (h.tracer ▸ hfound)]

/-- The main thread reports a line. -/
theorem line (h : t.Shows s) (number : UInt32) (hfree : t.main = .working) {receiving : Bool}
    (hreceiving : t.link.events.receiving = receiving) {found : Tracer.LineOutcome}
    (hfound : t.tracer.line receiving number = found) (htracer : t'.tracer = found.tracer)
    (hheard : t'.link.events.receiving = t.link.events.receiving)
    (hmain : t'.main.IsAt ((TracedCall.line number).phaseAfter found.accepted)) :
    t'.ShowsNext s := by
  have hreport :=
    TracedThread.report_of_line (h.receiving.trans hreceiving) (h.tracer ▸ hfound)
  refine .inr ⟨.line number, (s.report number).thread, ?_, ?_, ?_, ?_⟩
  · simp [TracedThread.step, TracedThread.act, h.free hfree]
  · rw [hreport, htracer]
  · rw [hreport, hheard, h.receiving]
  · rwa [hreport]

/-- Somebody calls the tracer. -/
theorem call (h : t.Shows s) {m : TracerMove} {tracer : Tracer}
    (hcall : s.act m = some (s.withTracer tracer)) (htracer : t'.tracer = tracer)
    (hheard : t'.link.events.receiving = t.link.events.receiving) (hmain : t'.main = t.main) :
    t'.ShowsNext s := by
  refine .inr ⟨m, (s.withTracer tracer).thread, ?_, htracer.symm, ?_, ?_⟩
  · rw [TracedThread.step, hcall, Option.map_some]
  · exact h.receiving.trans hheard.symm
  · rw [hmain]
    exact h.main

/-- What has to do with neither the tracer nor the main thread. -/
theorem unmoved (h : t.Shows s) (htracer : t'.tracer = t.tracer)
    (hheard : t'.link.events.receiving = t.link.events.receiving) (hmain : t'.main = t.main) :
    t'.ShowsNext s :=
  .inl ⟨h.tracer.trans htracer.symm, h.receiving.trans hheard.symm, hmain ▸ h.main⟩

end Shows

theorem shows_launch (settings : WorkerSettings) : (launch settings).Shows (.new .main) :=
  ⟨rfl, rfl, rfl⟩

/-- Whatever a target does is a move of a traced thread, or nothing to it. -/
theorem shows_transition (h : t.Shows s) (ht : t.Transition m move t') : t'.ShowsNext s := by
  cases ht with
  | waitForStart hmain hattached hsuspended =>
    obtain ⟨_, hawaits⟩ := h.awaits_start hmain
    exact h.look hawaits (Tracer.look_of_suspended hattached hsuspended) rfl rfl rfl
  | begin hmain hattached hreleased =>
    obtain ⟨_, hawaits⟩ := h.awaits_start hmain
    exact h.look hawaits (Tracer.look_of_released hattached hreleased) rfl rfl rfl
  | refuseStart hmain hdetached =>
    obtain ⟨_, hawaits⟩ := h.awaits_start hmain
    exact h.look hawaits (Tracer.look_of_detached hdetached) rfl rfl (.inr rfl)
  | suspend line hmain hw hattached hrequest hheard =>
    exact h.line line.number hmain hheard (Tracer.line_of_suspending hattached hrequest) rfl
      (Channel.receiving_offer _) ⟨line.number, rfl⟩
  | step line run hmain hw hattached hrequest hheard =>
    exact h.line line.number hmain hheard (Tracer.line_of_passing hattached hrequest) rfl
      (Channel.receiving_offer _) (by rw [hmain]; rfl)
  | pass line run hmain hw hattached hrequest =>
    exact h.line line.number hmain rfl (Tracer.line_of_unrequested hattached hrequest) rfl rfl
      (by rw [hmain]; rfl)
  | lose line policy run hmain hw hattached hrequest hdeaf =>
    exact h.line line.number hmain hdeaf (Tracer.line_of_closed hattached hrequest) rfl rfl
      (by rw [hmain]; rfl)
  | refuse line run hmain hdetached =>
    rcases hmain with ⟨hmain, -⟩ | ⟨hmain, hwoken⟩
    · exact h.line line.number hmain rfl (Tracer.line_of_detached hdetached) rfl rfl rfl
    · obtain ⟨_, hawaits⟩ := h.awaits_line hmain hwoken
      exact h.look hawaits (Tracer.look_of_detached hdetached) rfl rfl rfl
  | waitOn hmain hwoken hattached hsuspended =>
    obtain ⟨number, hawaits⟩ := h.awaits_line hmain hwoken
    exact h.look hawaits (Tracer.look_of_suspended hattached hsuspended) rfl rfl
      (by rw [hmain]; exact ⟨number, rfl⟩)
  | goOn run hmain hwoken hattached hreleased =>
    obtain ⟨_, hawaits⟩ := h.awaits_line hmain hwoken
    exact h.look hawaits (Tracer.look_of_released hattached hreleased) rfl rfl rfl
  | finish result hmain =>
    exact .inl ⟨h.tracer, h.receiving, .inl (h.free hmain)⟩
  | stir => exact h.call (m := .stir) rfl (by rw [h.tracer]) rfl rfl
  | request policy => exact h.call (m := .enable policy) rfl (by rw [h.tracer]) rfl rfl
  | resume => exact h.call (m := .resume) rfl (by rw [h.tracer]) rfl rfl
  | exit | abandon => exact h.call (m := .detach) rfl (by rw [h.tracer]) rfl rfl
  | announce => exact h.unmoved rfl (Channel.receiving_offer _) rfl
  | goLocal | interrupt | ignore | noticeExit | interruptMain | closeCommands =>
    exact h.unmoved rfl rfl rfl

end Target

/-- Whatever a controller does closes the receiver of its target's events, or leaves it as it is. -/
theorem Controller.receiving_transition {c c' : Controller} {link link' : Link} {m : ControllerMove}
    (h : c.Transition link m c' link') :
    link'.events.receiving = link.events.receiving ∨ link'.events.receiving = false := by
  cases h with
  | finish => exact .inr rfl
  | _ => exact .inl rfl

namespace Supervised

variable {s : Supervised} {history : List (Supervised × SupervisedMove)}
  {controller : ControllerSettings} {worker : WorkerSettings}

/-- Every run of a controller with its target is one of a traced thread. -/
theorem exists_traced (hrun : Execution step (launch controller worker) history s) :
    ∃ moves thread, Execution TracedThread.step (.new .main) moves thread ∧
      s.target.Shows thread := by
  induction hrun with
  | nil => exact ⟨[], _, .nil, Target.shows_launch worker⟩
  | @cons history s s' m _ hs ih =>
    obtain ⟨moves, thread, hrun, hshows⟩ := ih
    have hnext : s'.target.ShowsNext thread := by
      cases m with
      | target m =>
        obtain ⟨t, ht, rfl⟩ := of_targetStep hs
        exact Target.shows_transition hshows ht
      | controller m =>
        obtain ⟨c, link, ht, rfl⟩ := of_controllerStep hs
        rcases Controller.receiving_transition ht with hsame | hclosed
        · exact hshows.unmoved rfl hsame rfl
        · exact .inr ⟨.close, _, rfl, hshows.tracer, hclosed.symm, hshows.main⟩
    rcases hnext with hsame | ⟨move, thread', hmove, hshows'⟩
    · exact ⟨moves, thread, hrun, hsame⟩
    · exact ⟨_, thread', hrun.cons hmove, hshows'⟩

/-- A main thread that is parked waits in its start or in a line, and its tracer is not detached:
nobody who detaches it leaves it behind, whatever verdict was taken. -/
theorem parked_of_run (hrun : Execution step (launch controller worker) history s)
    (hparked : s.target.tracer.parked = true) :
    s.target.tracer.detached = false ∧
      (s.target.main = .parkedAtStart ∨ s.target.main = .parkedAtLine) := by
  obtain ⟨moves, thread, htraced, hshows⟩ := exists_traced hrun
  obtain ⟨hattached, call, hwithin⟩ :=
    (TracedThread.held_of_run htraced).parked (by rw [hshows.tracer, hparked])
  exact ⟨by rw [← hshows.tracer, hattached], MainPhase.parked_of_isAt (hwithin ▸ hshows.main)⟩

end Supervised

end InterruptStress
