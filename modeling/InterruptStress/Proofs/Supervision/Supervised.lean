import InterruptStress.Proofs.Execution
import InterruptStress.Proofs.Supervision.Transition
import InterruptStress.Proofs.Target.Transition

/-!
# A controller with its target

A controller and a target in one process meet at two queues and nowhere else.  Their joint step
lets either of them make any of its own moves; in which order they are made, when a watchdog
looks, when a sleep's time has passed and when a wait ends for no reason is up to the schedule.
An execution of the two is at the same time one of the worker beside its generator, which the
target's moves amount to (`Supervised.localExecution`).
-/

namespace InterruptStress

/-- A controller and the target that it supervises. -/
structure Supervised where
  controller : Controller
  target : Target

inductive SupervisedMove where
  | controller (m : ControllerMove)
  | target (m : TargetMove)

def SupervisedMove.isVerdict : SupervisedMove → Bool
  | .controller .takeVerdict => true
  | _ => false

/-- The link as the controller finds it: no event can follow once nobody is left to send one. -/
def Target.openLink (t : Target) : Link :=
  { t.link with events := { t.link.events with sending := !t.isSilent } }

namespace Supervised

/-- A controller that has just launched its target. -/
def launch (controller : ControllerSettings) (worker : WorkerSettings) : Supervised :=
  ⟨.start controller, .launch worker⟩

/-- What a move makes of the two, if it can happen. -/
def step (s : Supervised) : SupervisedMove → Option Supervised
  | .controller m =>
    (s.controller.step s.target.openLink m).map fun moved =>
      ⟨moved.1, { s.target with link := moved.2 }⟩
  | .target m => (s.target.step m).map fun target => { s with target }

variable {s s' : Supervised} {m : SupervisedMove}

theorem of_controllerStep {m : ControllerMove} (h : s.step (.controller m) = some s') :
    ∃ c link, s.controller.Transition s.target.openLink m c link ∧
      s' = ⟨c, { s.target with link }⟩ := by
  obtain ⟨⟨c, link⟩, hs, rfl⟩ := Option.map_eq_some_iff.mp h
  exact ⟨c, link, Controller.transition_of_step hs, rfl⟩

theorem of_targetStep {m : TargetMove} (h : s.step (.target m) = some s') :
    ∃ t, s.target.Transition m (s.target.localMove? m) t ∧ s' = ⟨s.controller, t⟩ := by
  obtain ⟨t, hs, rfl⟩ := Option.map_eq_some_iff.mp h
  exact ⟨t, Target.transition_of_step hs, rfl⟩

/-! ## The worker's history -/

/-- The move of the worker beside its generator that a move amounts to. -/
def localMove? (s : Supervised) : SupervisedMove → Option LocalMove
  | .controller _ => none
  | .target m => s.target.localMove? m

/-- What happened to the worker beside its generator. -/
def localHistory (history : List (Supervised × SupervisedMove)) : List (LocalRun × LocalMove) :=
  history.filterMap fun e => (e.1.localMove? e.2).map (e.1.target.run, ·)

variable {history : List (Supervised × SupervisedMove)}

theorem localHistory_cons_of_none (h : s.localMove? m = none) :
    localHistory ((s, m) :: history) = localHistory history := by
  simp [localHistory, h]

theorem localHistory_cons_of_some {move : LocalMove} (h : s.localMove? m = some move) :
    localHistory ((s, m) :: history) = (s.target.run, move) :: localHistory history := by
  simp [localHistory, h]

/-- How often the worker made moves of some kind. -/
theorem countP_localHistory_cons (p : LocalMove → Bool) (s : Supervised) (m : SupervisedMove)
    (history : List (Supervised × SupervisedMove)) :
    (localHistory ((s, m) :: history)).countP (fun e => p e.2) =
      (localHistory history).countP (fun e => p e.2) + ((s.localMove? m).any p).toNat := by
  cases hmove : s.localMove? m with
  | none => rw [localHistory_cons_of_none hmove]; rfl
  | some move => rw [localHistory_cons_of_some hmove, Execution.countP_history_cons]; rfl

/-- A target's execution is one of its worker beside its generator. -/
theorem localExecution {controller : ControllerSettings} {worker : WorkerSettings}
    (hrun : Execution step (launch controller worker) history s) :
    Execution LocalRun.step (.start worker) (localHistory history) s.target.run := by
  induction hrun with
  | nil => exact .nil
  | @cons history s s' m _ hs ih =>
    cases m with
    | controller m =>
      obtain ⟨c, link, -, rfl⟩ := of_controllerStep hs
      rw [localHistory_cons_of_none rfl]
      exact ih
    | target m =>
      obtain ⟨t, ht, rfl⟩ := of_targetStep hs
      rcases Target.run_transition ht with ⟨hnone, hsame⟩ | ⟨move, hmove, hs⟩
      · rw [localHistory_cons_of_none (s := s) (m := .target m) hnone]
        exact hsame ▸ ih
      · rw [localHistory_cons_of_some (s := s) (m := .target m) hmove]
        exact ih.cons hs

/-! ## The verdict -/

/-- The watchdog's verdict was taken. -/
def verdictTaken (history : List (Supervised × SupervisedMove)) : Bool :=
  history.any (·.2.isVerdict)

/-- A controller reports a hang if and only if it has taken the verdict. -/
theorem hang_isSome {controller : ControllerSettings} {worker : WorkerSettings}
    (hrun : Execution step (launch controller worker) history s) :
    s.controller.hang.isSome = verdictTaken history := by
  induction hrun with
  | nil => rfl
  | @cons history s s' m _ hs ih =>
    cases m with
    | target m =>
      obtain ⟨t, -, rfl⟩ := of_targetStep hs
      exact ih
    | controller m =>
      obtain ⟨c, link, ht, rfl⟩ := of_controllerStep hs
      rcases Controller.hang_transition ht with ⟨hm, hsame⟩ | ⟨rfl, hhang⟩
      · have hother : (SupervisedMove.controller m).isVerdict = false := by
          cases m <;> first | rfl | exact absurd rfl hm
        simp only [hsame, ih, verdictTaken, List.any_cons, hother, Bool.false_or]
      · simp [verdictTaken, hhang, SupervisedMove.isVerdict]

theorem settings_of_run {controller : ControllerSettings} {worker : WorkerSettings}
    (hrun : Execution step (launch controller worker) history s) :
    s.controller.settings = controller := by
  induction hrun with
  | nil => rfl
  | @cons history s s' m _ hs ih =>
    cases m with
    | target m =>
      obtain ⟨t, -, rfl⟩ := of_targetStep hs
      exact ih
    | controller m =>
      obtain ⟨c, link, ht, rfl⟩ := of_controllerStep hs
      exact (Controller.settings_transition ht).trans ih

end Supervised

end InterruptStress
