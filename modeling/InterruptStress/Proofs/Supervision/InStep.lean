import InterruptStress.Proofs.Supervision.Supervised

/-!
# How a controller and its target keep in step

`Supervised.InStep` is what every state has until a verdict is taken.  Its core is one equation:
the commands that are under way (queued, still to be sent in answer to an event, or due in answer
to an event that is queued), Interrupts apart, are exactly those that the tracer waits for.
Around it stand who may still use which end of a channel, and the order of the target's farewell:
the main thread's death, the target's, and the disconnect, each of them once, when the main
thread has ended and before the controller leaves.
-/

namespace InterruptStress

/-! ## Signals -/

/-- An interrupt that was sent is queued behind everything else. -/
theorem ThreadRef.of_signal {r : ThreadRef} {commands commands' : Channel ControlCommand}
    (h : r.signal commands = .ok commands') :
    r.alive = true ∧ commands.receiving = true ∧
      commands' = { commands with queue := commands.queue ++ [.interrupt r.id] } := by
  unfold signal at h
  split at h
  · next halive =>
    unfold Channel.send at h
    split at h
    · next hreceiving => exact ⟨halive, hreceiving, (Except.ok.inj h).symm⟩
    · cases h
  · cases h

/-! ## Commands under way -/

def ControlCommand.isInterrupt : ControlCommand → Bool
  | .interrupt _ => true
  | _ => false

/-- The command that an act sends. -/
def ControllerAct.command? : ControllerAct → Option ControlCommand
  | .send command => some command
  | .startGenerator => none

@[simp] theorem ControllerAct.command?_send (command : ControlCommand) :
    (ControllerAct.send command).command? = some command := rfl

/-- The commands that answer an event. -/
def TargetEvent.answers (policy : SuspendPolicy) : TargetEvent → List ControlCommand
  | .started thread => [.createStepRequest thread policy, .resume]
  | .step _ _ suspended => if suspended then [.resume] else []
  | _ => []

namespace ControllerPhase

/-- What is still to be done in answer to an event. -/
def acts : ControllerPhase → List ControllerAct
  | .acting acts => acts
  | _ => []

/-- The controller still answers events. -/
def isOpen : ControllerPhase → Bool
  | .listening | .acting _ => true
  | _ => false

/-- The controller has received its last event. -/
def isLeaving : ControllerPhase → Bool
  | .ending | .joining | .finished => true
  | _ => false

theorem not_leaving_of_open {phase : ControllerPhase} (h : phase.isOpen = true) :
    ¬ phase.isLeaving = true := by
  intro hleaving
  cases phase <;> simp_all [isOpen, isLeaving]

end ControllerPhase

@[simp] theorem Controller.acts_acting (acts : List ControllerAct) :
    (Controller.acting acts).acts = acts := by
  cases acts <;> rfl

@[simp] theorem Controller.isOpen_acting (acts : List ControllerAct) :
    (Controller.acting acts).isOpen = true := by
  cases acts <;> rfl

/-- The commands that the tracer waits for. -/
def Tracer.awaited (t : Tracer) (policy : SuspendPolicy) : List ControlCommand :=
  if t.suspended then
    match t.request with
    | none => [.createStepRequest t.thread policy, .resume]
    | some _ => [.resume]
  else []

/-- Whoever waits for a command is suspended, and no Interrupt is waited for. -/
theorem Tracer.of_mem_awaited {t : Tracer} {policy : SuspendPolicy} {command : ControlCommand}
    (h : command ∈ t.awaited policy) : t.suspended = true ∧ command.isInterrupt = false := by
  unfold awaited at h
  split at h
  · next hsuspended =>
    refine ⟨hsuspended, ?_⟩
    split at h
    · rcases List.mem_cons.mp h with rfl | h
      · rfl
      · rw [List.mem_singleton.mp h]
        rfl
    · rw [List.mem_singleton.mp h]
      rfl
  · cases h

/-- The first command that the tracer waits for is a step request until it has one. -/
theorem Tracer.of_awaited_eq_cons {t : Tracer} {policy : SuspendPolicy} {command : ControlCommand}
    {rest : List ControlCommand} (h : t.awaited policy = command :: rest) :
    t.suspended = true ∧
      (t.request = none ∧ command = .createStepRequest t.thread policy ∧ rest = [.resume] ∨
        (∃ p, t.request = some p) ∧ command = .resume ∧ rest = []) := by
  unfold awaited at h
  split at h
  · next hsuspended =>
    refine ⟨hsuspended, ?_⟩
    split at h
    · next hrequest =>
      obtain ⟨rfl, rfl⟩ := List.cons.inj h
      exact .inl ⟨hrequest, rfl, rfl⟩
    · next p hrequest =>
      obtain ⟨rfl, rfl⟩ := List.cons.inj h
      exact .inr ⟨⟨p, hrequest⟩, rfl, rfl⟩
  · cases h

/-! ## The farewell -/

/-- The events with which a target ends. -/
def TargetEvent.isFarewell : TargetEvent → Bool
  | .threadDeath _ | .death _ | .disconnected => true
  | _ => false

/-- How far the farewell of a target has got: what of it is still to be received, what the
controller knows of the exit, and whether it has left. -/
inductive Leavetaking (thread : ThreadId) (exit : TargetExit) (phase : ControllerPhase)
    (known : Option TargetExit) (before : List TargetEvent) : List TargetEvent → Prop where
  | all (hopen : phase.isOpen = true) (hknown : known = none) :
      Leavetaking thread exit phase known before [.threadDeath thread, .death exit, .disconnected]
  | death (hopen : phase.isOpen = true) (hknown : known = none) :
      Leavetaking thread exit phase known before [.death exit, .disconnected]
  | disconnect (hopen : phase.isOpen = true) (hknown : known = some exit) :
      Leavetaking thread exit phase known before [.disconnected]
  | gone (hleaving : phase.isLeaving = true) (hknown : known = some exit) (hbefore : before = []) :
      Leavetaking thread exit phase known before []

namespace Leavetaking

variable {thread : ThreadId} {exit : TargetExit} {phase : ControllerPhase}
  {known : Option TargetExit} {before left : List TargetEvent}

/-- While something is left, the controller listens. -/
theorem isOpen (h : Leavetaking thread exit phase known before left) (hleft : left ≠ []) :
    phase.isOpen = true := by
  cases h with
  | gone => exact absurd rfl hleft
  | all hopen | death hopen | disconnect hopen => exact hopen

theorem open_or_leaving (h : Leavetaking thread exit phase known before left) :
    phase.isOpen = true ∨ phase.isLeaving = true := by
  cases h with
  | gone hleaving => exact .inr hleaving
  | all hopen | death hopen | disconnect hopen => exact .inl hopen

theorem isLeaving (h : Leavetaking thread exit phase known before left) (hleft : left = []) :
    phase.isLeaving = true := by
  cases h with
  | gone hleaving => exact hleaving
  | _ => cases hleft

theorem of_open {phase' : ControllerPhase} (h : Leavetaking thread exit phase known before left)
    (hopen : phase.isOpen = true) (hopen' : phase'.isOpen = true) :
    Leavetaking thread exit phase' known before left := by
  cases h with
  | all _ hknown => exact .all hopen' hknown
  | death _ hknown => exact .death hopen' hknown
  | disconnect _ hknown => exact .disconnect hopen' hknown
  | gone hleaving => exact absurd hleaving (ControllerPhase.not_leaving_of_open hopen)

theorem of_leaving {phase' : ControllerPhase} (h : Leavetaking thread exit phase known before left)
    (hleaving : phase.isLeaving = true) (hleaving' : phase'.isLeaving = true) :
    Leavetaking thread exit phase' known before left := by
  cases h with
  | gone _ hknown hbefore => exact .gone hleaving' hknown hbefore
  | all hopen | death hopen | disconnect hopen =>
    exact absurd hleaving (ControllerPhase.not_leaving_of_open hopen)

theorem isFarewell (h : Leavetaking thread exit phase known before left) :
    ∀ e ∈ left, e.isFarewell = true := by
  cases h <;> simp [TargetEvent.isFarewell]

end Leavetaking

theorem TargetEvent.answers_of_isFarewell {event : TargetEvent} (h : event.isFarewell = true)
    (policy : SuspendPolicy) : event.answers policy = [] := by
  cases event <;> first | rfl | cases h

/-- The target serves its controller, or its farewell is under way behind all other events. -/
def Parting (agent : AgentPhase) (main : MainPhase) (thread : ThreadId) (queue : List TargetEvent)
    (phase : ControllerPhase) (known : Option TargetExit) : Prop :=
  match agent with
  | .serving => phase.isOpen = true ∧ known = none ∧ ∀ e ∈ queue, e.isFarewell = false
  | .exiting _ => False
  | .ending rest =>
    ∃ exit before after, main = .ended exit ∧ queue = before ++ after ∧
      (∀ e ∈ before, e.isFarewell = false) ∧
      Leavetaking thread exit phase known before (after ++ rest.filterMap Farewell.event?)

namespace Parting

variable {agent : AgentPhase} {main : MainPhase} {thread : ThreadId} {queue : List TargetEvent}
  {phase phase' : ControllerPhase} {known : Option TargetExit}

theorem of_open (h : Parting agent main thread queue phase known) (hopen : phase.isOpen = true)
    (hopen' : phase'.isOpen = true) : Parting agent main thread queue phase' known := by
  unfold Parting at h ⊢
  cases agent with
  | serving => exact ⟨hopen', h.2⟩
  | exiting => exact h.elim
  | ending rest =>
    obtain ⟨exit, before, after, hmain, hqueue, hbefore, hleft⟩ := h
    exact ⟨exit, before, after, hmain, hqueue, hbefore, hleft.of_open hopen hopen'⟩

theorem of_leaving (h : Parting agent main thread queue phase known)
    (hleaving : phase.isLeaving = true) (hleaving' : phase'.isLeaving = true) :
    Parting agent main thread queue phase' known := by
  unfold Parting at h ⊢
  cases agent with
  | serving => exact absurd hleaving (ControllerPhase.not_leaving_of_open h.1)
  | exiting => exact h.elim
  | ending rest =>
    obtain ⟨exit, before, after, hmain, hqueue, hbefore, hleft⟩ := h
    exact ⟨exit, before, after, hmain, hqueue, hbefore, hleft.of_leaving hleaving hleaving'⟩

/-- Whoever is silent has announced the disconnect. -/
theorem isLeaving_of_silent {t : Target}
    (h : Parting t.agent main thread [] phase known) (hsilent : t.isSilent = true) :
    phase.isLeaving = true := by
  unfold Target.isSilent at hsilent
  split at hsilent
  · next hagent _ =>
    simp only [Parting, hagent] at h
    obtain ⟨exit, before, after, -, hqueue, -, hleft⟩ := h
    obtain ⟨-, rfl⟩ := List.append_eq_nil_iff.mp hqueue.symm
    exact hleft.isLeaving rfl
  · cases hsilent

end Parting

theorem parting_of_serving {agent : AgentPhase} {main : MainPhase} {thread : ThreadId}
    {queue : List TargetEvent} {phase : ControllerPhase} {known : Option TargetExit}
    (hagent : agent = .serving)
    (h : phase.isOpen = true ∧ known = none ∧ ∀ e ∈ queue, e.isFarewell = false) :
    Parting agent main thread queue phase known := by
  subst hagent
  exact h

namespace Supervised

/-- The commands under way to the tracer. -/
def due (s : Supervised) : List ControlCommand :=
  s.target.link.commands.queue.filter (fun c => !c.isInterrupt) ++
    s.controller.phase.acts.filterMap ControllerAct.command? ++
    s.target.link.events.queue.flatMap (TargetEvent.answers s.controller.settings.suspend)

/-- What a controller and its target have in common until a verdict is taken. -/
structure InStep (s : Supervised) : Prop where
  stream : s.due = s.target.tracer.awaited s.controller.settings.suspend
  requested : s.target.tracer.request = none → s.target.tracer.suspended = true
  policy : ∀ p, s.target.tracer.request = some p → p = s.controller.settings.suspend
  attached : s.target.tracer.detached = false
  released : s.target.main = .working ∨ (∃ exit, s.target.main = .ended exit) →
    s.target.tracer.suspended = false
  waiting : s.target.tracer.parked = true → s.target.tracer.suspended = true ∧
    (s.target.main = .parkedAtStart ∨ s.target.main = .parkedAtLine)
  served : s.target.agent = .serving →
    s.target.link.commands.sending = true ∧ s.target.link.commands.receiving = true
  heard : s.target.link.events.receiving = false → s.controller.phase = .finished
  parting : Parting s.target.agent s.target.main s.target.tracer.thread
    s.target.link.events.queue s.controller.phase s.controller.exit

variable {s s' : Supervised}

namespace InStep

/-- A target whose main thread has not ended serves its controller. -/
theorem serving (h : s.InStep) (hmain : ∀ exit, s.target.main ≠ .ended exit) :
    s.target.agent = .serving ∧ s.controller.phase.isOpen = true ∧ s.controller.exit = none ∧
      ∀ e ∈ s.target.link.events.queue, e.isFarewell = false := by
  have hp := h.parting
  unfold Parting at hp
  split at hp
  · next hagent => exact ⟨hagent, hp⟩
  · exact hp.elim
  · obtain ⟨exit, _, _, hended, -⟩ := hp
    exact absurd hended (hmain exit)

/-- A controller that is still to receive events can be reached. -/
theorem receiving (h : s.InStep) (hopen : s.controller.phase ≠ .finished) :
    s.target.link.events.receiving = true :=
  eq_true_of_ne_false fun hdeaf => hopen (h.heard hdeaf)

/-- A command that is due is no Interrupt, waited for, and can be received. -/
theorem serving_of_due (h : s.InStep) {command : ControlCommand} (hmem : command ∈ s.due) :
    s.target.tracer.suspended = true ∧ command.isInterrupt = false ∧
      s.target.agent = .serving ∧ s.target.link.commands.receiving = true := by
  rw [h.stream] at hmem
  obtain ⟨hsuspended, hother⟩ := Tracer.of_mem_awaited hmem
  have hagent : s.target.agent = .serving :=
    (h.serving fun exit hended => by
      simp [h.released (.inr ⟨exit, hended⟩)] at hsuspended).1
  exact ⟨hsuspended, hother, hagent, (h.served hagent).2⟩

/-- Nothing is due to a thread that is not suspended. -/
theorem due_of_released (h : s.InStep) (hreleased : s.target.tracer.suspended = false) :
    s.due = [] := by
  rw [h.stream, Tracer.awaited, hreleased]
  rfl

end InStep

theorem due_eq_cons {command : ControlCommand} {rest : List ControlCommand}
    (hq : s.target.link.commands.queue = command :: rest) (hc : command.isInterrupt = false) :
    s.due = command :: (rest.filter (fun c => !c.isInterrupt) ++
      s.controller.phase.acts.filterMap ControllerAct.command? ++
      s.target.link.events.queue.flatMap (TargetEvent.answers s.controller.settings.suspend)) := by
  simp [due, hq, hc]

theorem due_of_interrupt {command : ControlCommand} {rest : List ControlCommand}
    (hq : s.target.link.commands.queue = command :: rest) (hc : command.isInterrupt = true) :
    s.due = rest.filter (fun c => !c.isInterrupt) ++
      s.controller.phase.acts.filterMap ControllerAct.command? ++
      s.target.link.events.queue.flatMap (TargetEvent.answers s.controller.settings.suspend) := by
  simp [due, hq, hc]

/-- What an ending target announces is part of its farewell. -/
theorem InStep.isFarewell_of_announce (h : s.InStep) {event : TargetEvent} {rest : List Farewell}
    (hagent : s.target.agent = .ending (.announce event :: rest)) : event.isFarewell = true := by
  have hparting := h.parting
  simp only [Parting, hagent] at hparting
  obtain ⟨_, _, _, -, -, -, hleft⟩ := hparting
  exact hleft.isFarewell event (by simp [Farewell.event?])

/-- A thread that is not suspended does not wait for a resume. -/
theorem InStep.unparked (h : s.InStep) (hreleased : s.target.tracer.suspended = false) :
    s.target.tracer.parked = false := by
  refine eq_false_of_ne_true fun hparked => ?_
  simp [(h.waiting hparked).1] at hreleased

/-- Nobody tells a target that is in step to exit. -/
theorem InStep.not_exit (h : s.InStep) (code : Int32) (rest : List ControlCommand) :
    s.target.link.commands.queue ≠ .exit code :: rest := by
  intro hq
  have hdue := (due_eq_cons hq rfl).symm.trans h.stream
  obtain ⟨-, ⟨-, hcommand, -⟩ | ⟨-, hcommand, -⟩⟩ := Tracer.of_awaited_eq_cons hdue.symm
  · cases hcommand
  · cases hcommand

theorem InStep.not_exiting (h : s.InStep) (code : Int32) : s.target.agent ≠ .exiting code := by
  intro hagent
  have hparting := h.parting
  rw [hagent] at hparting
  exact hparting

/-- Whatever a target does keeps it in step. -/
theorem inStep_target {m : TargetMove} {move : Option LocalMove} {t : Target} (h : s.InStep)
    (ht : s.target.Transition m move t) : InStep { s with target := t } := by
  have hserving (hmain : s.target.main = .working ∨ s.target.main = .parkedAtLine) :=
    h.serving fun exit hended => by simp [hended] at hmain
  cases ht with
  | waitForStart hmain _ hsuspended =>
    obtain ⟨hagent, hopen⟩ := h.serving (Target.not_ended_of_isEntering hmain)
    exact { h with
      released := by simp
      waiting := fun _ => ⟨hsuspended, .inl rfl⟩
      parting := parting_of_serving hagent hopen }
  | begin hmain _ hreleased =>
    obtain ⟨hagent, hopen⟩ := h.serving (Target.not_ended_of_isEntering hmain)
    exact { h with
      released := fun _ => hreleased
      waiting := by simp [h.unparked hreleased]
      parting := parting_of_serving hagent hopen }
  | refuseStart _ hdetached => simp [h.attached] at hdetached
  | suspend line hmain hw hattached hrequest hheard =>
    obtain ⟨hagent, hopen, hknown, hqueue⟩ := hserving (.inl hmain)
    have hnone := h.due_of_released (h.released (.inl hmain))
    rw [Channel.offer_of_receiving _ hheard]
    exact { h with
      stream := by
        simp only [due, List.append_eq_nil_iff] at hnone
        simp [due, hnone, TargetEvent.answers, Tracer.stepEvent, Tracer.awaited, hrequest]
      requested := by simp
      released := by simp
      waiting := by simp
      heard := h.heard
      parting := by
        refine parting_of_serving hagent ⟨hopen, hknown, ?_⟩
        simpa [or_imp, forall_and, Tracer.stepEvent, TargetEvent.isFarewell] using hqueue }
  | step line run hmain hw hattached hrequest hheard hs =>
    obtain ⟨hagent, hopen, hknown, hqueue⟩ := hserving (.inl hmain)
    have hreleased := h.released (.inl hmain)
    have hnone := h.due_of_released hreleased
    rw [Channel.offer_of_receiving _ hheard]
    exact { h with
      stream := by
        simp only [due, List.append_eq_nil_iff] at hnone
        simp [due, hnone, TargetEvent.answers, Tracer.stepEvent, Tracer.awaited]
      requested := by simp [hrequest]
      released := by simp
      waiting := by simp [h.unparked hreleased]
      heard := h.heard
      parting := by
        refine parting_of_serving hagent ⟨hopen, hknown, ?_⟩
        simpa [or_imp, forall_and, Tracer.stepEvent, TargetEvent.isFarewell] using hqueue }
  | pass line run hmain hw _ hrequest =>
    have hsuspended := h.requested hrequest
    simp [h.released (.inl hmain)] at hsuspended
  | lose line policy run hmain hw _ _ hdeaf =>
    have hopen := (hserving (.inl hmain)).2.1
    simp [h.heard hdeaf, ControllerPhase.isOpen] at hopen
  | refuse _ _ _ hdetached => simp [h.attached] at hdetached
  | waitOn hmain _ _ hsuspended =>
    exact { h with waiting := fun _ => ⟨hsuspended, .inr hmain⟩ }
  | goOn run hmain _ _ hreleased =>
    obtain ⟨hagent, hopen⟩ := hserving (.inr hmain)
    exact { h with
      released := fun _ => hreleased
      waiting := by simp [h.unparked hreleased]
      parting := parting_of_serving hagent hopen }
  | finish result hmain =>
    obtain ⟨hagent, hopen⟩ := hserving (.inl hmain)
    have hreleased := h.released (.inl hmain)
    exact { h with
      released := fun _ => hreleased
      waiting := by simp [h.unparked hreleased]
      parting := parting_of_serving hagent hopen }
  | goLocal => exact { h with }
  | stir => exact { h with waiting := by simp [Tracer.stir] }
  | request policy rest hagent hq =>
    have hdue := (due_eq_cons hq rfl).symm.trans h.stream
    obtain ⟨hsuspended, ⟨-, hcommand, hrest⟩ | ⟨-, hcommand, -⟩⟩ :=
      Tracer.of_awaited_eq_cons hdue.symm
    · obtain rfl : policy = s.controller.settings.suspend := by simpa using hcommand
      exact { h with
        stream := hrest.trans (by simp [Tracer.awaited, Tracer.enable, hsuspended])
        requested := fun _ => hsuspended
        policy := fun p hp => (Option.some.inj hp).symm }
    · cases hcommand
  | resume rest hagent hq =>
    have hdue := (due_eq_cons hq rfl).symm.trans h.stream
    obtain ⟨-, ⟨-, hcommand, -⟩ | ⟨⟨p, hp⟩, -, hrest⟩⟩ := Tracer.of_awaited_eq_cons hdue.symm
    · cases hcommand
    · exact { h with
        stream := hrest
        requested := by simp [Tracer.resume, hp]
        released := fun _ => rfl
        waiting := by simp [Tracer.resume] }
  | interrupt rest hagent hq =>
    exact { h with stream := (due_of_interrupt hq rfl).symm.trans h.stream }
  | ignore command rest hagent hq hother =>
    rcases hother with ⟨thread, policy, hthread, rfl⟩ | ⟨thread, -, rfl⟩
    · have hdue := (due_eq_cons hq rfl).symm.trans h.stream
      obtain ⟨-, ⟨-, hcommand, -⟩ | ⟨-, hcommand, -⟩⟩ := Tracer.of_awaited_eq_cons hdue.symm
      · exact absurd (ControlCommand.createStepRequest.inj hcommand).1 hthread
      · cases hcommand
    · exact { h with stream := (due_of_interrupt hq rfl).symm.trans h.stream }
  | exit code rest hagent hq => exact absurd hq (h.not_exit code rest)
  | abandon hagent _ hgone => simp [(h.served hagent).1] at hgone
  | interruptMain code hagent => exact absurd hagent (h.not_exiting code)
  | noticeExit exit hagent hmain =>
    have hparting := h.parting
    simp only [Parting, hagent] at hparting
    obtain ⟨hopen, hknown, hqueue⟩ := hparting
    exact { h with
      served := by simp [Target.farewells]
      parting := ⟨exit, s.target.link.events.queue, [], hmain, (List.append_nil _).symm, hqueue,
        .all hopen hknown⟩ }
  | announce event rest hagent =>
    have hparting := h.parting
    simp only [Parting, hagent] at hparting
    obtain ⟨exit, before, after, hmain, hqueue, hbefore, hleft⟩ := hparting
    have hleft : Leavetaking s.target.tracer.thread exit s.controller.phase s.controller.exit before
        ((after ++ [event]) ++ rest.filterMap Farewell.event?) := by
      simpa [Farewell.event?] using hleft
    have hheard : s.target.link.events.receiving = true :=
      h.receiving fun hfinished => by
        have hopen := hleft.isOpen (by simp)
        simp [hfinished, ControllerPhase.isOpen] at hopen
    have hanswers : event.answers s.controller.settings.suspend = [] :=
      TargetEvent.answers_of_isFarewell (h.isFarewell_of_announce hagent) _
    rw [Channel.offer_of_receiving _ hheard]
    exact { h with
      stream := by
        rw [← h.stream]
        simp [due, hanswers]
      served := by simp
      heard := h.heard
      parting := ⟨exit, before, after ++ [event], hmain, by simp [hqueue], hbefore, hleft⟩ }
  | closeCommands rest hagent =>
    have hparting := h.parting
    simp only [Parting, hagent] at hparting
    obtain ⟨exit, before, after, hmain, hqueue, hbefore, hleft⟩ := hparting
    have hreleased := h.released (.inr ⟨exit, hmain⟩)
    have hnone := h.due_of_released hreleased
    exact { h with
      stream := by
        simp only [due, List.append_eq_nil_iff] at hnone
        simp [due, Channel.close, hnone, Tracer.awaited, hreleased]
      served := by simp
      parting := ⟨exit, before, after, hmain, hqueue, hbefore, hleft⟩ }

end Supervised

/-! ## The controller's moves -/

section Handle

variable {c : Controller} {event : TargetEvent}

theorem acts_handle (event : TargetEvent) (hphase : c.phase = .listening) :
    (c.handle event).phase.acts.filterMap ControllerAct.command? =
      event.answers c.settings.suspend := by
  cases event with
  | started thread =>
    simp only [Controller.handle, Controller.acts_acting, Controller.greeting]
    split <;> rfl
  | step thread location suspended => cases suspended <;> rfl
  | threadDeath thread =>
    simp only [Controller.handle]
    split <;> simp [hphase, ControllerPhase.acts, Controller.markDead, Controller.modifyLatest,
      TargetEvent.answers]
  | death exit => simp [Controller.handle, hphase, ControllerPhase.acts, TargetEvent.answers]
  | disconnected => rfl

/-- An event that is no part of the farewell leaves the controller listening, knowing nothing. -/
theorem handle_of_not_farewell (hevent : event.isFarewell = false) :
    (c.handle event).phase.isOpen = true ∧ (c.handle event).exit = c.exit := by
  cases event with
  | started thread => exact ⟨Controller.isOpen_acting _, rfl⟩
  | step thread location suspended => exact ⟨Controller.isOpen_acting _, rfl⟩
  | _ => cases hevent

theorem Leavetaking.handle {thread : ThreadId} {exit : TargetExit} {left : List TargetEvent}
    (h : Leavetaking thread exit c.phase c.exit [] (event :: left)) :
    Leavetaking thread exit (c.handle event).phase (c.handle event).exit [] left := by
  cases h with
  | all hopen hknown =>
    refine .death ?_ ?_ <;> simp only [Controller.handle] <;> split <;> assumption
  | death hopen => exact .disconnect hopen rfl
  | disconnect hopen hknown => exact .gone rfl hknown rfl

/-- An event that is taken before the farewell leaves all of it. -/
theorem Leavetaking.pass {thread : ThreadId} {exit : TargetExit} {before left : List TargetEvent}
    (h : Leavetaking thread exit c.phase c.exit (event :: before) left)
    (hevent : event.isFarewell = false) :
    Leavetaking thread exit (c.handle event).phase (c.handle event).exit before left := by
  obtain ⟨hopen, hexit⟩ := handle_of_not_farewell (c := c) hevent
  cases h with
  | all _ hknown => exact .all hopen (hexit.trans hknown)
  | death _ hknown => exact .death hopen (hexit.trans hknown)
  | disconnect _ hknown => exact .disconnect hopen (hexit.trans hknown)
  | gone _ _ hbefore => cases hbefore

end Handle

/-- Taking an event brings the farewell nearer to its end. -/
theorem parting_handle {agent : AgentPhase} {main : MainPhase} {thread : ThreadId}
    {c : Controller} {event : TargetEvent} {rest : List TargetEvent}
    (h : Parting agent main thread (event :: rest) c.phase c.exit) :
    Parting agent main thread rest (c.handle event).phase (c.handle event).exit := by
  unfold Parting at h ⊢
  cases agent with
  | serving =>
    obtain ⟨-, hknown, hqueue⟩ := h
    obtain ⟨hevent, hrest⟩ := List.forall_mem_cons.mp hqueue
    obtain ⟨hopen, hexit⟩ := handle_of_not_farewell (c := c) hevent
    exact ⟨hopen, hexit.trans hknown, hrest⟩
  | exiting => exact h.elim
  | ending farewells =>
    obtain ⟨exit, before, after, hmain, hqueue, hbefore, hleft⟩ := h
    cases before with
    | nil =>
      obtain rfl : event :: rest = after := hqueue
      exact ⟨exit, [], rest, hmain, rfl, by simp, hleft.handle⟩
    | cons first before =>
      obtain ⟨rfl, rfl⟩ := List.cons.inj hqueue
      obtain ⟨hevent, hbefore⟩ := List.forall_mem_cons.mp hbefore
      exact ⟨exit, before, after, hmain, rfl, hbefore, hleft.pass hevent⟩

namespace Supervised

variable {s s' : Supervised}

namespace InStep

/-- The controller answers events or leaves; it forces nobody. -/
theorem open_or_leaving (h : s.InStep) :
    s.controller.phase.isOpen = true ∨ s.controller.phase.isLeaving = true := by
  have hp := h.parting
  unfold Parting at hp
  split at hp
  · exact .inl hp.1
  · exact hp.elim
  · obtain ⟨_, _, _, -, -, -, hleft⟩ := hp
    exact hleft.open_or_leaving

theorem not_forcing (h : s.InStep) : s.controller.phase ≠ .forcing := by
  intro hphase
  have hnever := h.open_or_leaving
  simp [hphase, ControllerPhase.isOpen, ControllerPhase.isLeaving] at hnever

theorem not_draining (h : s.InStep) : s.controller.phase ≠ .draining := by
  intro hphase
  have hnever := h.open_or_leaving
  simp [hphase, ControllerPhase.isOpen, ControllerPhase.isLeaving] at hnever

/-- Once the controller leaves, nothing is left of the target's farewell. -/
theorem left (h : s.InStep) (hclosed : s.controller.phase.isOpen = false) :
    ∃ exit rest, s.target.agent = .ending rest ∧ s.target.main = .ended exit ∧
      s.controller.exit = some exit ∧ s.target.link.events.queue = [] ∧
      rest.filterMap Farewell.event? = [] := by
  have hp := h.parting
  unfold Parting at hp
  split at hp
  · simp [hp.1] at hclosed
  · exact hp.elim
  · next rest hagent =>
    obtain ⟨exit, before, after, hmain, hqueue, -, hleft⟩ := hp
    have hnil : after ++ rest.filterMap Farewell.event? = [] :=
      Decidable.byContradiction fun hne => by simp [hleft.isOpen hne] at hclosed
    obtain ⟨rfl, hrest⟩ := List.append_eq_nil_iff.mp hnil
    rw [hrest] at hleft
    cases hleft with
    | gone _ hknown hbefore =>
      exact ⟨exit, rest, hagent, hmain, hknown, by simp [hqueue, hbefore], hrest⟩

end InStep

/-- Whatever a controller does keeps it in step, unless it takes a verdict. -/
theorem inStep_controller {m : ControllerMove} {c : Controller} {link : Link} (h : s.InStep)
    (ht : s.controller.Transition s.target.openLink m c link) (hm : m ≠ .takeVerdict) :
    InStep ⟨c, { s.target with link }⟩ := by
  cases ht with
  | take writing event rest hphase hq =>
    have hq : s.target.link.events.queue = event :: rest := hq
    have hset := Controller.settings_handle (c := { s.controller with
      log := s.controller.log.record event writing }) event
    have hheard := h.receiving (by simp [hphase])
    exact {
      stream := by
        have hacts := acts_handle event (c := { s.controller with
          log := s.controller.log.record event writing }) hphase
        have hstream := h.stream
        simp only [due, hphase, hq, ControllerPhase.acts, List.filterMap_nil, List.append_nil,
          List.flatMap_cons] at hstream
        simp only [due, hset, hacts]
        rw [← hstream, List.append_assoc]
        rfl
      requested := h.requested
      policy := fun p hp => (h.policy p hp).trans (congrArg ControllerSettings.suspend hset).symm
      attached := h.attached
      released := h.released
      waiting := h.waiting
      served := h.served
      heard := fun hdeaf => by
        have hdeaf : s.target.link.events.receiving = false := hdeaf
        simp [hheard] at hdeaf
      parting := by
        have hparting := h.parting
        rw [hq] at hparting
        exact parting_handle (c := { s.controller with
          log := s.controller.log.record event writing }) hparting }
  | takeLast _ _ _ hphase => exact absurd hphase h.not_draining
  | takeNone writing hphase hq hsilent =>
    -- whoever is silent has announced the disconnect, and the controller has taken it
    have hlistening := hphase.resolve_right h.not_draining
    have hsilent : s.target.isSilent = true := by simpa [Target.openLink] using hsilent
    have hparting := h.parting
    rw [show s.target.link.events.queue = [] from hq] at hparting
    have hleaving := hparting.isLeaving_of_silent hsilent
    simp [hlistening, ControllerPhase.isLeaving] at hleaving
  | send command rest hphase =>
    have hacts : s.controller.phase.acts = .send command :: rest := by rw [hphase]; rfl
    have hopen : s.controller.phase.isOpen = true := by rw [hphase]; rfl
    have hmem : command ∈ s.due := by simp [due, hacts]
    obtain ⟨-, hother, hagent, hreceiving⟩ := h.serving_of_due hmem
    rw [Channel.offer_of_receiving _
      (show s.target.openLink.commands.receiving = true from hreceiving)]
    exact { h with
      stream := by
        refine Eq.trans ?_ h.stream
        simp [due, hacts, Target.openLink, hother]
      served := h.served
      heard := fun hdeaf => by
        have hfinished := h.heard hdeaf
        simp [hphase] at hfinished
      parting := h.parting.of_open hopen (Controller.isOpen_acting rest) }
  | startGenerator rest hphase =>
    have hacts : s.controller.phase.acts.filterMap ControllerAct.command? =
        rest.filterMap ControllerAct.command? := by rw [hphase]; rfl
    exact { h with
      stream := by
        refine Eq.trans ?_ h.stream
        simp only [due, hacts, Controller.modifyLatest, Controller.acts_acting, Target.openLink]
      heard := fun hdeaf => by
        have hfinished := h.heard hdeaf
        simp [hphase] at hfinished
      parting := h.parting.of_open (by simp [hphase, ControllerPhase.isOpen])
        (Controller.isOpen_acting rest) }
  | force hphase => exact absurd hphase h.not_forcing
  | leave hphase =>
    obtain ⟨exit, rest, hagent, hmain, hknown, hq, hrest⟩ :=
      h.left (by simp [hphase, ControllerPhase.isOpen])
    have hcommands : (if s.controller.sessions.isEmpty then s.target.link.commands.hangUp
        else s.target.link.commands).queue = s.target.link.commands.queue := by
      split <;> rfl
    exact { h with
      stream := by
        refine Eq.trans ?_ h.stream
        simp only [due, hphase, ControllerPhase.acts, Target.openLink, hcommands,
          Controller.markDead, Controller.modifyLatest]
      served := by simp [hagent]
      heard := fun hdeaf => by
        have hfinished := h.heard hdeaf
        simp [hphase] at hfinished
      parting := h.parting.of_leaving (by rw [hphase]; rfl) rfl }
  | finish hphase =>
    obtain ⟨exit, rest, hagent, hmain, hknown, hq, hrest⟩ :=
      h.left (by simp [hphase, ControllerPhase.isOpen])
    have hcommands : (if s.controller.hasSenders then s.target.link.commands
        else s.target.link.commands.hangUp).queue = s.target.link.commands.queue := by
      split <;> rfl
    exact { h with
      stream := by
        refine Eq.trans ?_ h.stream
        simp [due, hphase, ControllerPhase.acts, Target.openLink, hcommands, Channel.close, hq]
      served := by simp [hagent]
      heard := fun _ => rfl
      parting := by
        have hparting := h.parting.of_leaving (by rw [hphase]; rfl)
          (rfl : ControllerPhase.finished.isLeaving = true)
        rwa [hq] at hparting }
  | beginWatch | look | bark => exact { h with }
  | takeVerdict => exact absurd rfl hm
  | giveUp hphase => exact absurd hphase h.not_draining
  | signal k session g g' commands hk hg hsent =>
    obtain ⟨-, -, rfl⟩ := ThreadRef.of_signal hsent
    exact { h with
      stream := by
        refine Eq.trans ?_ h.stream
        simp [due, Target.openLink, ControlCommand.isInterrupt]
      served := h.served }
  | missSignal => exact { h with }
  | pause => exact { h with }

/-! ## Whole runs -/

theorem inStep_launch (controller : ControllerSettings) (worker : WorkerSettings) :
    (launch controller worker).InStep where
  stream := rfl
  requested := fun _ => rfl
  policy := by simp [launch, Target.launch, Tracer.new]
  attached := rfl
  released := by simp [launch, Target.launch]
  waiting := by simp [launch, Target.launch, Tracer.new]
  served := fun _ => ⟨rfl, rfl⟩
  heard := by simp [launch, Target.launch, Link.new, Channel.new]
  parting := ⟨rfl, rfl, by simp [launch, Target.launch, Channel.offer, Channel.send, Channel.new,
    TargetEvent.isFarewell]⟩

/-- A move after which no hang is reported was none that takes a verdict. -/
theorem unhung_of_step {m : SupervisedMove} (hs : s.step m = some s')
    (hhang : s'.controller.hang = none) :
    s.controller.hang = none ∧ m ≠ .controller .takeVerdict := by
  cases m with
  | target m =>
    obtain ⟨t, -, rfl⟩ := of_targetStep hs
    exact ⟨hhang, by simp⟩
  | controller m =>
    obtain ⟨c, link, ht, rfl⟩ := of_controllerStep hs
    rcases Controller.hang_transition ht with ⟨hm, hsame⟩ | ⟨-, hsome⟩
    · exact ⟨hsame.symm.trans hhang, by simpa using hm⟩
    · simp [show c.hang = none from hhang] at hsome

theorem inStep_step {m : SupervisedMove} (h : s.InStep) (hs : s.step m = some s')
    (hhang : s'.controller.hang = none) : s'.InStep := by
  have hm := (unhung_of_step hs hhang).2
  cases m with
  | target m =>
    obtain ⟨t, ht, rfl⟩ := of_targetStep hs
    exact inStep_target h ht
  | controller m =>
    obtain ⟨c, link, ht, rfl⟩ := of_controllerStep hs
    exact inStep_controller h ht (by simpa using hm)

/-- Until a verdict is taken, controller and target keep in step. -/
theorem inStep_of_run {controller : ControllerSettings} {worker : WorkerSettings}
    {history : List (Supervised × SupervisedMove)}
    (hrun : Execution step (launch controller worker) history s)
    (hhang : s.controller.hang = none) : s.InStep := by
  induction hrun with
  | nil => exact inStep_launch controller worker
  | cons _ hs ih => exact inStep_step (ih (unhung_of_step hs hhang).1) hs hhang

/-- What holds of a launch, and what every move that is made in step keeps, holds until a verdict
is taken. -/
theorem unhung_induction {controller : ControllerSettings} {worker : WorkerSettings}
    {P : List (Supervised × SupervisedMove) → Supervised → Prop}
    (hlaunch : P [] (launch controller worker))
    (htarget : ∀ history s m t, s.InStep → P history s →
      s.target.Transition m (s.target.localMove? m) t →
        P ((s, .target m) :: history) { s with target := t })
    (hcontroller : ∀ history s m c link, s.InStep → P history s →
      s.controller.Transition s.target.openLink m c link → m ≠ .takeVerdict →
        P ((s, .controller m) :: history) ⟨c, { s.target with link }⟩)
    {history : List (Supervised × SupervisedMove)}
    (hrun : Execution step (launch controller worker) history s)
    (hhang : s.controller.hang = none) : P history s := by
  induction hrun with
  | nil => exact hlaunch
  | @cons history s s' m hbefore hs ih =>
    obtain ⟨hunhung, hm⟩ := unhung_of_step hs hhang
    have h := inStep_of_run hbefore hunhung
    cases m with
    | target m =>
      obtain ⟨t, ht, rfl⟩ := of_targetStep hs
      exact htarget history s m t h (ih hunhung) ht
    | controller m =>
      obtain ⟨c, link, ht, rfl⟩ := of_controllerStep hs
      exact hcontroller history s m c link h (ih hunhung) ht (by simpa using hm)

end Supervised

end InterruptStress
