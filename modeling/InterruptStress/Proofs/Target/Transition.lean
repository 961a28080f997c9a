import InterruptStress.Target.Basic

/-!
# What a move makes of a target

`Target.Transition` says from outside what a move of a target can be: one rule for each thing
that can happen, with what it needs and what the target is afterwards.  The middle index is the
move of the worker beside its generator that the target's move amounts to, if it amounts to one
(`Target.localMove?`), so that a target's history is at the same time a history of its worker.
-/

namespace InterruptStress

/-! ## Channels -/

namespace Channel

variable {α : Type} {c : Channel α}

theorem offer_of_receiving (value : α) (h : c.receiving = true) :
    c.offer value = { c with queue := c.queue ++ [value] } := by
  simp [offer, send, h]

@[simp] theorem receiving_offer (value : α) : (c.offer value).receiving = c.receiving := by
  unfold offer send
  cases h : c.receiving <;> simp [h]

end Channel

/-! ## Events -/

def TargetEvent.isStep : TargetEvent → Bool
  | .step .. => true
  | _ => false

/-- What an ending agent says. -/
def Farewell.event? : Farewell → Option TargetEvent
  | .announce event => some event
  | .closeCommands => none

/-! ## The tracer's answers -/

namespace Tracer

variable {t : Tracer}

theorem look_of_detached (hdetached : t.detached = true) : t.look = (some false, t) := by
  simp [look, hdetached]

theorem look_of_suspended (hattached : t.detached = false) (hsuspended : t.suspended = true) :
    t.look = (none, { t with parked := true }) := by
  simp [look, hattached, hsuspended]

theorem look_of_released (hattached : t.detached = false) (hreleased : t.suspended = false) :
    t.look = (some true, t) := by
  simp [look, hattached, hreleased]

variable {receiving : Bool} {number : UInt32} {policy : SuspendPolicy}

theorem line_of_detached (hdetached : t.detached = true) :
    t.line receiving number = ⟨t, none, some false⟩ := by
  simp [line, hdetached]

theorem line_of_unrequested (hattached : t.detached = false) (hrequest : t.request = none) :
    t.line receiving number = ⟨t, none, some true⟩ := by
  simp [line, hattached, hrequest]

theorem line_of_closed (hattached : t.detached = false) (hrequest : t.request = some policy) :
    t.line false number =
      ⟨{ t with suspended := policy == .thread, detached := true }, none, some false⟩ := by
  simp [line, hattached, hrequest]

theorem line_of_suspending (hattached : t.detached = false) (hrequest : t.request = some .thread) :
    t.line true number =
      ⟨{ t with suspended := true, parked := true }, some (t.stepEvent number true), none⟩ := by
  simp [line, look, hattached, hrequest]

theorem line_of_passing (hattached : t.detached = false) (hrequest : t.request = some .none) :
    t.line true number =
      ⟨{ t with suspended := false }, some (t.stepEvent number false), some true⟩ := by
  simp [line, look, hattached, hrequest,
    show (SuspendPolicy.none == SuspendPolicy.thread) = false from rfl]

end Tracer

namespace Target

/-! ## The target's moves and the worker's -/

/-- The move of the worker beside its generator that a move of the target amounts to. -/
def localMove? (t : Target) : TargetMove → Option LocalMove
  | .main =>
    match t.main with
    | .working =>
      match t.run.worker.phase with
      | .reporting line =>
        (t.tracer.line t.link.events.receiving line.number).accepted.map .report
      | .finished _ => none
      | _ => some (.advance .worker)
    | .parkedAtLine => if t.tracer.parked then none else t.tracer.look.1.map .report
    | _ => none
  | .generator => some (.advance .generator)
  | .expire thread => some (.expire thread)
  | .stir thread => some (.stir thread)
  | .applyCommand =>
    match t.agent, t.link.commands.queue with
    | .serving, .interrupt thread :: _ =>
      if thread = t.tracer.thread then some .interrupt else none
    | _, _ => none
  | .farewell =>
    match t.agent with
    | .exiting _ => some .interrupt
    | _ => none
  | _ => none

/-- The main thread waits for its start. -/
def isEntering (t : Target) : Bool :=
  match t.main with
  | .entering => true
  | .parkedAtStart => !t.tracer.parked
  | _ => false

theorem of_isEntering {t : Target} (h : t.isEntering = true) :
    t.main = .entering ∨ t.main = .parkedAtStart := by
  unfold isEntering at h
  split at h
  · next hmain => exact .inl hmain
  · next hmain => exact .inr hmain
  · cases h

theorem not_ended_of_isEntering {t : Target} (h : t.isEntering = true) (exit : TargetExit) :
    t.main ≠ .ended exit := by
  intro hended
  simp [isEntering, hended] at h

/-! ## Transitions -/

/-- What each move can make of a target. -/
inductive Transition (t : Target) : TargetMove → Option LocalMove → Target → Prop where
  | waitForStart (hmain : t.isEntering = true) (hattached : t.tracer.detached = false)
      (hsuspended : t.tracer.suspended = true) :
      Transition t .main none
        { t with main := .parkedAtStart, tracer := { t.tracer with parked := true } }
  | begin (hmain : t.isEntering = true) (hattached : t.tracer.detached = false)
      (hreleased : t.tracer.suspended = false) :
      Transition t .main none { t with main := .working }
  | refuseStart (hmain : t.isEntering = true) (hdetached : t.tracer.detached = true) :
      Transition t .main none { t with main := .ended detachedBeforeStart }
  /-- The worker reports a line and has to wait in it. -/
  | suspend (line : WorkerLine) (hmain : t.main = .working)
      (hw : t.run.worker.phase = .reporting line) (hattached : t.tracer.detached = false)
      (hrequest : t.tracer.request = some .thread) (hheard : t.link.events.receiving = true) :
      Transition t .main none
        { t with
          main := .parkedAtLine
          tracer := { t.tracer with suspended := true, parked := true }
          link := { t.link with
            events := t.link.events.offer (t.tracer.stepEvent line.number true) } }
  /-- The worker reports a line and goes on. -/
  | step (line : WorkerLine) (run : LocalRun) (hmain : t.main = .working)
      (hw : t.run.worker.phase = .reporting line) (hattached : t.tracer.detached = false)
      (hrequest : t.tracer.request = some .none) (hheard : t.link.events.receiving = true)
      (hs : t.run.step (.report true) = some run) :
      Transition t .main (some (.report true))
        { t with
          run
          tracer := { t.tracer with suspended := false }
          link := { t.link with
            events := t.link.events.offer (t.tracer.stepEvent line.number false) } }
  /-- Nobody has asked for steps. -/
  | pass (line : WorkerLine) (run : LocalRun) (hmain : t.main = .working)
      (hw : t.run.worker.phase = .reporting line) (hattached : t.tracer.detached = false)
      (hrequest : t.tracer.request = none) (hs : t.run.step (.report true) = some run) :
      Transition t .main (some (.report true)) { t with run }
  /-- Nobody receives the step any more. -/
  | lose (line : WorkerLine) (policy : SuspendPolicy) (run : LocalRun) (hmain : t.main = .working)
      (hw : t.run.worker.phase = .reporting line) (hattached : t.tracer.detached = false)
      (hrequest : t.tracer.request = some policy) (hdeaf : t.link.events.receiving = false)
      (hs : t.run.step (.report false) = some run) :
      Transition t .main (some (.report false))
        { t with
          run
          tracer := { t.tracer with suspended := policy == .thread, detached := true } }
  | refuse (line : WorkerLine) (run : LocalRun)
      (hmain : t.main = .working ∧ t.run.worker.phase = .reporting line ∨
        t.main = .parkedAtLine ∧ t.tracer.parked = false)
      (hdetached : t.tracer.detached = true) (hs : t.run.step (.report false) = some run) :
      Transition t .main (some (.report false)) { t with main := .working, run }
  /-- The worker was woken in a line for no reason. -/
  | waitOn (hmain : t.main = .parkedAtLine) (hwoken : t.tracer.parked = false)
      (hattached : t.tracer.detached = false) (hsuspended : t.tracer.suspended = true) :
      Transition t .main none { t with tracer := { t.tracer with parked := true } }
  /-- The worker was resumed in a line. -/
  | goOn (run : LocalRun) (hmain : t.main = .parkedAtLine) (hwoken : t.tracer.parked = false)
      (hattached : t.tracer.detached = false) (hreleased : t.tracer.suspended = false)
      (hs : t.run.step (.report true) = some run) :
      Transition t .main (some (.report true)) { t with main := .working, run }
  | finish (result : Except WorkerError WorkerReport) (hmain : t.main = .working)
      (hw : t.run.worker.phase = .finished result) :
      Transition t .main none { t with main := .ended (exitFor result) }
  /-- A thread goes on by itself. -/
  | goLocal (m : TargetMove) (move : LocalMove) (run : LocalRun)
      (hm : m = .main ∧ t.main = .working ∧ move = .advance .worker ∨
        m = .generator ∧ move = .advance .generator ∨
        (∃ thread, m = .expire thread ∧ move = .expire thread) ∨
        ∃ thread, m = .stir thread ∧ move = .stir thread)
      (hs : t.run.step move = some run) : Transition t m (some move) { t with run }
  | stir : Transition t .stirTracer none { t with tracer := t.tracer.stir }
  | request (policy : SuspendPolicy) (rest : List ControlCommand) (hagent : t.agent = .serving)
      (hq : t.link.commands.queue = .createStepRequest t.tracer.thread policy :: rest) :
      Transition t .applyCommand none
        { t with
          tracer := t.tracer.enable policy
          link := { t.link with commands := { t.link.commands with queue := rest } } }
  | resume (rest : List ControlCommand) (hagent : t.agent = .serving)
      (hq : t.link.commands.queue = .resume :: rest) :
      Transition t .applyCommand none
        { t with
          tracer := t.tracer.resume
          link := { t.link with commands := { t.link.commands with queue := rest } } }
  | interrupt (rest : List ControlCommand) (hagent : t.agent = .serving)
      (hq : t.link.commands.queue = .interrupt t.tracer.thread :: rest) :
      Transition t .applyCommand (some .interrupt)
        { t with
          run := { t.run with token := t.run.token.interrupt }
          link := { t.link with commands := { t.link.commands with queue := rest } } }
  /-- A command for a thread that there is not. -/
  | ignore (command : ControlCommand) (rest : List ControlCommand) (hagent : t.agent = .serving)
      (hq : t.link.commands.queue = command :: rest)
      (hother : (∃ thread policy, thread ≠ t.tracer.thread ∧
          command = .createStepRequest thread policy) ∨
        ∃ thread, thread ≠ t.tracer.thread ∧ command = .interrupt thread) :
      Transition t .applyCommand none
        { t with link := { t.link with commands := { t.link.commands with queue := rest } } }
  | exit (code : Int32) (rest : List ControlCommand) (hagent : t.agent = .serving)
      (hq : t.link.commands.queue = .exit code :: rest) :
      Transition t .applyCommand none
        { t with
          tracer := t.tracer.detach
          agent := .exiting code
          link := { t.link with commands := { t.link.commands with queue := rest } } }
  /-- The controller has gone. -/
  | abandon (hagent : t.agent = .serving) (hq : t.link.commands.queue = [])
      (hgone : t.link.commands.sending = false) :
      Transition t .applyCommand none
        { t with
          tracer := t.tracer.detach
          agent := farewells [.death abandoned] }
  | noticeExit (exit : TargetExit) (hagent : t.agent = .serving) (hmain : t.main = .ended exit) :
      Transition t .noticeExit none
        { t with agent := farewells [.threadDeath t.tracer.thread, .death exit] }
  /-- The main thread's sleep is interrupted, so that it sees that the tracer is detached. -/
  | interruptMain (code : Int32) (hagent : t.agent = .exiting code) :
      Transition t .farewell (some .interrupt)
        { t with
          run := { t.run with token := t.run.token.interrupt }
          agent := farewells [.death (exitedOnCommand code)] }
  | announce (event : TargetEvent) (rest : List Farewell)
      (hagent : t.agent = .ending (.announce event :: rest)) :
      Transition t .farewell none
        { t with
          agent := .ending rest
          link := { t.link with events := t.link.events.offer event } }
  | closeCommands (rest : List Farewell) (hagent : t.agent = .ending (.closeCommands :: rest)) :
      Transition t .farewell none
        { t with
          agent := .ending rest
          link := { t.link with commands := t.link.commands.close } }

variable {t t' : Target} {m : TargetMove} {move : Option LocalMove}

theorem of_onRun {move : LocalMove} (h : t.onRun move = some t') :
    ∃ run, t.run.step move = some run ∧ t' = { t with run } := by
  obtain ⟨run, hs, rfl⟩ := Option.map_eq_some_iff.mp h
  exact ⟨run, hs, rfl⟩

theorem transition_of_askStart (hmain : t.isEntering = true) :
    t.Transition .main none t.askStart := by
  unfold askStart
  cases hdetached : t.tracer.detached with
  | true =>
    rw [Tracer.look_of_detached hdetached]
    exact .refuseStart hmain hdetached
  | false =>
    cases hsuspended : t.tracer.suspended with
    | true =>
      rw [Tracer.look_of_suspended hdetached hsuspended]
      exact .waitForStart hmain hdetached hsuspended
    | false =>
      rw [Tracer.look_of_released hdetached hsuspended]
      exact .begin hmain hdetached hsuspended

/-- What a line that the worker reports leads to. -/
theorem transition_of_reportLine {line : WorkerLine} (hmain : t.main = .working)
    (hw : t.run.worker.phase = .reporting line) (h : t.reportLine line = some t') :
    t.Transition .main
      ((t.tracer.line t.link.events.receiving line.number).accepted.map .report) t' := by
  unfold reportLine at h
  cases hdetached : t.tracer.detached with
  | true =>
    rw [Tracer.line_of_detached hdetached] at h ⊢
    obtain ⟨run, hs, rfl⟩ := of_onRun h
    exact .refuse line run (.inl ⟨hmain, hw⟩) hdetached hs
  | false =>
    cases hrequest : t.tracer.request with
    | none =>
      rw [Tracer.line_of_unrequested hdetached hrequest] at h ⊢
      obtain ⟨run, hs, rfl⟩ := of_onRun h
      rw [← hmain]
      exact .pass line run hmain hw hdetached hrequest hs
    | some policy =>
      cases hheard : t.link.events.receiving with
      | false =>
        rw [hheard, Tracer.line_of_closed hdetached hrequest] at h
        rw [Tracer.line_of_closed hdetached hrequest]
        obtain ⟨run, hs, rfl⟩ := of_onRun h
        rw [← hmain]
        exact .lose line policy run hmain hw hdetached hrequest hheard hs
      | true =>
        cases policy with
        | thread =>
          rw [hheard, Tracer.line_of_suspending hdetached hrequest] at h
          rw [Tracer.line_of_suspending hdetached hrequest]
          obtain rfl := Option.some.inj h
          exact .suspend line hmain hw hdetached hrequest hheard
        | none =>
          rw [hheard, Tracer.line_of_passing hdetached hrequest] at h
          rw [Tracer.line_of_passing hdetached hrequest]
          obtain ⟨run, hs, rfl⟩ := of_onRun h
          rw [← hmain]
          exact .step line run hmain hw hdetached hrequest hheard hs

theorem localMove?_working (hmain : t.main = .working)
    (hline : ∀ line, t.run.worker.phase ≠ .reporting line)
    (hdone : ∀ result, t.run.worker.phase ≠ .finished result) :
    t.localMove? .main = some (.advance .worker) := by
  simp only [localMove?, hmain]

theorem localMove?_parkedAtLine (hmain : t.main = .parkedAtLine)
    (hwoken : t.tracer.parked = false) :
    t.localMove? .main = t.tracer.look.1.map .report := by
  simp [localMove?, hmain, hwoken]

theorem transition_of_moveMain (h : t.moveMain = some t') :
    t.Transition .main (t.localMove? .main) t' := by
  unfold moveMain at h
  split at h
  next hmain =>
    obtain rfl := Option.some.inj h
    rw [show t.localMove? .main = none by simp only [localMove?, hmain]]
    exact transition_of_askStart (by simp [isEntering, hmain])
  next hmain =>
    split at h
    · cases h
    · next hparked =>
      obtain rfl := Option.some.inj h
      rw [show t.localMove? .main = none by simp only [localMove?, hmain]]
      exact transition_of_askStart (by simp [isEntering, hmain, hparked])
  next hmain =>
    split at h
    · cases h
    · next hparked =>
      have hwoken : t.tracer.parked = false := eq_false_of_ne_true hparked
      rw [localMove?_parkedAtLine hmain hwoken]
      cases hdetached : t.tracer.detached with
      | true =>
        rw [Tracer.look_of_detached hdetached] at h ⊢
        obtain ⟨run, hs, rfl⟩ := of_onRun h
        exact .refuse .loop run (.inr ⟨hmain, hwoken⟩) hdetached hs
      | false =>
        cases hsuspended : t.tracer.suspended with
        | true =>
          rw [Tracer.look_of_suspended hdetached hsuspended] at h ⊢
          obtain rfl := Option.some.inj h
          exact .waitOn hmain hwoken hdetached hsuspended
        | false =>
          rw [Tracer.look_of_released hdetached hsuspended] at h ⊢
          obtain ⟨run, hs, rfl⟩ := of_onRun h
          exact .goOn run hmain hwoken hdetached hsuspended hs
  next hmain =>
    split at h
    · next line hw =>
      rw [show t.localMove? .main =
          (t.tracer.line t.link.events.receiving line.number).accepted.map .report by
        simp only [localMove?, hmain, hw]]
      exact transition_of_reportLine hmain hw h
    · next result hw =>
      rw [show t.localMove? .main = none by simp only [localMove?, hmain, hw]]
      obtain rfl := Option.some.inj h
      exact .finish result hmain hw
    · next hline hdone =>
      rw [localMove?_working hmain hline hdone]
      obtain ⟨run, hs, rfl⟩ := of_onRun h
      exact .goLocal _ _ run (.inl ⟨rfl, hmain, rfl⟩) hs
  next => cases h

theorem transition_of_applyCommand (h : t.applyCommand = some t') :
    t.Transition .applyCommand (t.localMove? .applyCommand) t' := by
  unfold Target.applyCommand at h
  split at h
  next hagent =>
    unfold Channel.receive at h
    cases hq : t.link.commands.queue with
    | nil =>
      rw [show t.localMove? .applyCommand = none by simp only [localMove?, hagent, hq]]
      cases hgone : t.link.commands.sending with
      | true => simp [hq, hgone] at h
      | false =>
        obtain rfl : _ = t' := by simpa [hq, hgone] using h
        exact .abandon hagent hq hgone
    | cons command rest =>
      simp only [hq, Option.some.injEq] at h
      cases command with
      | createStepRequest thread policy =>
        rw [show t.localMove? .applyCommand = none by simp only [localMove?, hagent, hq]]
        simp only [apply] at h
        split at h
        · next hthread =>
          subst hthread h
          exact .request policy rest hagent hq
        · next hthread =>
          subst h
          exact .ignore _ rest hagent hq (.inl ⟨thread, policy, hthread, rfl⟩)
      | resume =>
        rw [show t.localMove? .applyCommand = none by simp only [localMove?, hagent, hq]]
        subst h
        exact .resume rest hagent hq
      | interrupt thread =>
        simp only [apply] at h
        split at h
        · next hthread =>
          subst hthread h
          rw [show t.localMove? .applyCommand = some .interrupt by
            simp only [localMove?, hagent, hq, if_true]]
          exact .interrupt rest hagent hq
        · next hthread =>
          subst h
          rw [show t.localMove? .applyCommand = none by
            simp only [localMove?, hagent, hq, if_neg hthread]]
          exact .ignore _ rest hagent hq (.inr ⟨thread, hthread, rfl⟩)
      | exit code =>
        rw [show t.localMove? .applyCommand = none by simp only [localMove?, hagent, hq]]
        subst h
        exact .exit code rest hagent hq
  next => cases h

/-- Every move that is made is one of the transitions, with the local move that it amounts to. -/
theorem transition_of_step (h : t.step m = some t') : t.Transition m (t.localMove? m) t' := by
  cases m with
  | main => exact transition_of_moveMain h
  | generator =>
    obtain ⟨run, hs, rfl⟩ := of_onRun h
    exact .goLocal _ _ run (.inr (.inl ⟨rfl, rfl⟩)) hs
  | expire thread =>
    obtain ⟨run, hs, rfl⟩ := of_onRun h
    exact .goLocal _ _ run (.inr (.inr (.inl ⟨thread, rfl, rfl⟩))) hs
  | stir thread =>
    obtain ⟨run, hs, rfl⟩ := of_onRun h
    exact .goLocal _ _ run (.inr (.inr (.inr ⟨thread, rfl, rfl⟩))) hs
  | stirTracer =>
    obtain rfl := Option.some.inj h
    exact .stir
  | applyCommand => exact transition_of_applyCommand h
  | noticeExit =>
    simp only [step, Target.noticeExit] at h
    split at h
    · next exit hagent hmain =>
      obtain rfl := Option.some.inj h
      exact .noticeExit exit hagent hmain
    · cases h
  | farewell =>
    simp only [step, Target.farewell] at h
    split at h
    · next code hagent =>
      obtain rfl := Option.some.inj h
      rw [show t.localMove? .farewell = some .interrupt by simp only [localMove?, hagent]]
      exact .interruptMain code hagent
    · next event rest hagent =>
      obtain rfl := Option.some.inj h
      rw [show t.localMove? .farewell = none by simp only [localMove?, hagent]]
      exact .announce event rest hagent
    · next rest hagent =>
      obtain rfl := Option.some.inj h
      rw [show t.localMove? .farewell = none by simp only [localMove?, hagent]]
      exact .closeCommands rest hagent
    · cases h

/-- Whatever a move does to the worker beside its generator is the local move that it amounts to. -/
theorem run_transition (h : t.Transition m move t') :
    move = none ∧ t'.run = t.run ∨ ∃ m, move = some m ∧ t.run.step m = some t'.run := by
  cases h with
  | step _ _ _ _ _ _ _ hs | pass _ _ _ _ _ _ hs | lose _ _ _ _ _ _ _ _ hs | refuse _ _ _ _ hs
  | goOn _ _ _ _ _ hs => exact .inr ⟨_, rfl, hs⟩
  | goLocal _ _ _ _ hs => exact .inr ⟨_, rfl, hs⟩
  | interrupt | interruptMain => exact .inr ⟨_, rfl, rfl⟩
  | _ => exact .inl ⟨rfl, rfl⟩

end Target

end InterruptStress
