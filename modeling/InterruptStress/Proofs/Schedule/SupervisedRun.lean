import InterruptStress.Proofs.Supervision.Supervised
import InterruptStress.Schedule.SupervisedRun

/-!
# A scheduled run is an execution

The schedule by which a controller and a target in its process are run makes moves of the two and
no others, so what holds of all their executions holds of the run that is carried out
(`SupervisedRun.execution_of_complete`).  The schedule never asks whether an event can still
follow; up to that flag its states are those of the execution.
-/

namespace InterruptStress

/-! ## Links without the flag -/

/-- A link on which events may still follow. -/
def Link.reopen (l : Link) : Link := { l with events := { l.events with sending := true } }

theorem Link.reopen_offer (l : Link) (event : TargetEvent) :
    { l.reopen with events := l.reopen.events.offer event } =
      Link.reopen { l with events := l.events.offer event } := by
  cases hreceiving : l.events.receiving <;>
    simp [Link.reopen, Channel.offer, Channel.send, hreceiving]

def Target.reopen (t : Target) : Target := { t with link := t.link.reopen }

namespace Target

variable {t : Target}

theorem reopen_askStart : t.reopen.askStart = t.askStart.reopen := by
  simp only [askStart, reopen]
  split <;> rfl

theorem reopen_onRun (move : LocalMove) : t.reopen.onRun move = (t.onRun move).map reopen := by
  simp only [onRun, reopen, Option.map_map]
  rfl

theorem reopen_endLine (accepted : Bool) :
    t.reopen.endLine accepted = (t.endLine accepted).map reopen :=
  reopen_onRun (t := { t with main := .working }) (.report accepted)

theorem reopen_reportLine (line : WorkerLine) :
    t.reopen.reportLine line = (t.reportLine line).map reopen := by
  have hline : t.reopen.tracer.line t.reopen.link.events.receiving line.number =
      t.tracer.line t.link.events.receiving line.number := rfl
  simp only [reportLine, hline]
  cases (t.tracer.line t.link.events.receiving line.number).event with
  | none =>
    cases (t.tracer.line t.link.events.receiving line.number).accepted with
    | none => rfl
    | some accepted => exact reopen_endLine (t := { t with tracer := _ }) accepted
  | some event =>
    have hoffer : { t.reopen.link with events := t.reopen.link.events.offer event } =
        Link.reopen { t.link with events := t.link.events.offer event } := Link.reopen_offer _ _
    simp only [hoffer]
    cases (t.tracer.line t.link.events.receiving line.number).accepted with
    | none => rfl
    | some accepted => exact reopen_endLine (t := { t with tracer := _, link := _ }) accepted

theorem reopen_moveMain : t.reopen.moveMain = t.moveMain.map reopen := by
  have hmain : t.reopen.main = t.main := rfl
  have htracer : t.reopen.tracer = t.tracer := rfl
  have hphase : t.reopen.run.worker.phase = t.run.worker.phase := rfl
  unfold moveMain
  rw [hmain, htracer, hphase]
  cases t.main with
  | entering => exact congrArg some reopen_askStart
  | parkedAtStart =>
    simp only
    split
    · rfl
    · exact congrArg some reopen_askStart
  | parkedAtLine =>
    simp only
    split
    · rfl
    · cases hlook : t.tracer.look with
      | mk accepted tracer =>
        cases accepted with
        | none => rfl
        | some accepted => exact reopen_endLine (t := { t with tracer }) accepted
  | working =>
    cases t.run.worker.phase with
    | reporting line => exact reopen_reportLine line
    | finished result => rfl
    | _ => exact reopen_onRun _
  | ended => rfl

theorem reopen_apply (command : ControlCommand) :
    t.reopen.apply command = (t.apply command).reopen := by
  cases command with
  | createStepRequest thread suspend | interrupt thread =>
    by_cases hthread : thread = t.tracer.thread <;> simp [apply, reopen, hthread]
  | resume | exit code => rfl

theorem reopen_applyCommand : t.reopen.applyCommand = t.applyCommand.map reopen := by
  have hagent : t.reopen.agent = t.agent := rfl
  have hcommands : t.reopen.link.commands = t.link.commands := rfl
  unfold applyCommand
  rw [hagent, hcommands]
  cases t.agent with
  | exiting | ending => rfl
  | serving =>
    cases t.link.commands.receive with
    | mk received commands =>
      cases received with
      | item command =>
        let t' : Target := { t with agent := .serving, link := { t.link with commands } }
        exact congrArg some (reopen_apply (t := t') command)
      | nothing | ended => rfl

theorem reopen_farewell : t.reopen.farewell = t.farewell.map reopen := by
  have hagent : t.reopen.agent = t.agent := rfl
  unfold farewell
  rw [hagent]
  split
  · rfl
  · exact congrArg some (congrArg (Target.mk _ _ _ _) (Link.reopen_offer _ _))
  · rfl
  · rfl

/-- A target does not ask whether events can follow. -/
theorem reopen_step (m : TargetMove) : t.reopen.step m = (t.step m).map reopen := by
  cases m with
  | main => exact reopen_moveMain
  | generator | expire | stir => exact reopen_onRun _
  | stirTracer => rfl
  | applyCommand => exact reopen_applyCommand
  | noticeExit =>
    simp only [step, noticeExit, reopen]
    split <;> rfl
  | farewell => exact reopen_farewell

end Target

/-! ## The controller -/

namespace Controller

variable {c c' : Controller} {l l' : Link} {m : ControllerMove}

/-- The link of what a controller has done. -/
def reopenLink (moved : Controller × Link) : Controller × Link := (moved.1, moved.2.reopen)

theorem reopen_act : c.act l.reopen = (c.act l).map reopenLink := by
  unfold act
  split
  · rfl
  · rfl
  · rfl
  · rfl
  · split <;> rfl
  · rfl

theorem reopen_moveGenerator (k : Nat) :
    c.moveGenerator l.reopen k = (c.moveGenerator l k).map reopenLink := by
  unfold moveGenerator
  cases c.sessions[k]? with
  | none => rfl
  | some session =>
    cases hg : session.generator with
    | none => simp [hg]
    | some g =>
      have hcommands : l.reopen.commands = l.commands := rfl
      simp only [Option.bind_eq_bind, Option.bind_some, hg, hcommands]
      cases g.phase with
      | sending =>
        cases session.ref.signal l.commands <;> simp only [Option.map_map] <;> rfl
      | pausing => simp only [Option.map_map]; rfl
      | _ => rfl

/-- An event that has come can be received whether or not others follow. -/
theorem receive_of_reopen {writing : Writing} (h : c.receive l.reopen writing = some (c', l')) :
    ∃ l'', c.receive l writing = some (c', l'') ∧ l' = l''.reopen := by
  cases transition_of_receive h with
  | take _ event rest hphase hq | takeLast _ event rest hphase hq =>
    have hq : l.events.queue = event :: rest := hq
    refine ⟨{ l with events := { l.events with queue := rest } }, ?_, rfl⟩
    simp [receive, Channel.receive, hphase, hq]
  | takeNone _ _ _ hsilent => cases hsilent
  | pause _ _ _ _ _ _ hm => rcases hm with ⟨hm, -⟩ | ⟨hm, -⟩ <;> cases hm

/-- What a controller does on a link on which events may still follow, it can do on the link as it
is. -/
theorem step_of_reopen (h : c.step l.reopen m = some (c', l')) :
    ∃ l'', c.step l m = some (c', l'') ∧ l' = l''.reopen := by
  have hmoved {moved : Option (Controller × Link)} (h : moved.map reopenLink = some (c', l')) :
      ∃ l'', moved = some (c', l'') ∧ l' = l''.reopen := by
    obtain ⟨⟨c₁, l₁⟩, hmoved, hsame⟩ := Option.map_eq_some_iff.mp h
    obtain ⟨rfl, rfl⟩ := Prod.mk.inj hsame
    exact ⟨l₁, hmoved, rfl⟩
  cases m with
  | receive writing => exact receive_of_reopen h
  | act => exact hmoved (reopen_act.symm.trans h)
  | generator k => exact hmoved ((reopen_moveGenerator k).symm.trans h)
  | beginWatch | look | takeVerdict | giveUp | wake =>
    refine hmoved (Eq.trans ?_ h)
    simp only [step, Option.map_map]
    rfl

end Controller

/-! ## The schedule -/

/-- The two, of which the controller has a journal. -/
def Supervised.withLog (s : Supervised) (log : EventLog) : Supervised :=
  ⟨s.controller.withLog log, s.target⟩

namespace SupervisedRun

/-- A run that is carried out, and a state of the two that it stands for. -/
structure Follows (r : SupervisedRun) (s : Supervised) : Prop where
  controller : r.controller = s.controller
  endpoint : ∃ c, r.endpoint = .inProcess c ∧ c.target = s.target.reopen

variable {r r' : SupervisedRun} {s : Supervised}

theorem step_of_move {m : ControllerMove} (h : r.Follows s) (hs : r.move m = some r') :
    ∃ s', s.step (.controller m) = some s' ∧ r'.Follows s' := by
  obtain ⟨hcontroller, c, hendpoint, htarget⟩ := h
  obtain ⟨⟨c', l'⟩, hmoved, rfl⟩ := Option.map_eq_some_iff.mp hs
  have hlink : r.endpoint.link = s.target.openLink.reopen := by
    rw [hendpoint, Endpoint.link, htarget]
    rfl
  rw [hcontroller, hlink] at hmoved
  obtain ⟨l, hl, rfl⟩ := Controller.step_of_reopen hmoved
  refine ⟨⟨c', { s.target with link := l }⟩, ?_, rfl, c.mapLink fun _ => l.reopen, ?_, ?_⟩
  · simp [Supervised.step, hl]
  · simp [hendpoint, Endpoint.mapLink]
  · simp only [ClockedTarget.mapLink, htarget]
    rfl

theorem step_of_moveEndpoint {c c' : ClockedTarget} {m : TargetMove} (h : r.Follows s)
    (hc : r.endpoint = .inProcess c) (hs : c.move r.now m = some c') :
    ∃ s', s.step (.target m) = some s' ∧ Follows { r with endpoint := .inProcess c' } s' := by
  obtain ⟨hcontroller, c₁, hendpoint, htarget⟩ := h
  obtain rfl : c = c₁ := Endpoint.inProcess.inj (hc.symm.trans hendpoint)
  obtain ⟨opened, hopened, rfl⟩ := Option.map_eq_some_iff.mp hs
  rw [htarget, Target.reopen_step] at hopened
  obtain ⟨t, ht, rfl⟩ := Option.map_eq_some_iff.mp hopened
  exact ⟨⟨s.controller, t⟩, Option.map_eq_some_iff.mpr ⟨t, ht, rfl⟩, hcontroller, _, rfl, rfl⟩

theorem eq_some_of_orElse {α : Type} {o o' : Option α} {x : α} (h : (o <|> o') = some x) :
    o = some x ∨ o' = some x := by
  cases o with
  | none => exact .inr h
  | some _ => exact .inl h

/-- Whatever happens next at a moment is a move of the two. -/
theorem step_of_moveNow (h : r.Follows s) (hs : r.moveNow = some r') :
    ∃ m s', s.step m = some s' ∧ r'.Follows s' := by
  have hmove {m : ControllerMove} (hs : r.move m = some r') :
      ∃ m s', s.step m = some s' ∧ r'.Follows s' := by
    obtain ⟨s', hstep, hfollows⟩ := step_of_move h hs
    exact ⟨_, s', hstep, hfollows⟩
  have htarget {c : ClockedTarget} {m : TargetMove} (hc : r.endpoint = .inProcess c)
      {c' : ClockedTarget} (hs : c.move r.now m = some c')
      (hr : { r with endpoint := .inProcess c' } = r') :
      ∃ m s', s.step m = some s' ∧ r'.Follows s' := by
    obtain ⟨s', hstep, hfollows⟩ := step_of_moveEndpoint h hc hs
    exact ⟨_, s', hstep, hr ▸ hfollows⟩
  obtain ⟨c, hc, -⟩ := h.endpoint
  unfold moveNow at hs
  rcases eq_some_of_orElse hs with hs | hs
  · exact hmove hs
  rcases eq_some_of_orElse hs with hs | hs
  · unfold act at hs
    split at hs
    · have hlater (due : Nat) : Follows { r with graceEnd := due } s := ⟨h.controller, h.endpoint⟩
      obtain ⟨s', hstep, hfollows⟩ := step_of_move (hlater _) hs
      exact ⟨_, s', hstep, hfollows⟩
    · exact hmove hs
  rcases eq_some_of_orElse hs with hs | hs
  · split at hs
    · exact hmove hs
    · cases hs
  rcases eq_some_of_orElse hs with hs | hs
  · obtain ⟨endpoint, hturn, hr⟩ := Option.map_eq_some_iff.mp hs
    rw [hc] at hturn
    obtain ⟨c', hclocked, rfl⟩ := Option.map_eq_some_iff.mp hturn
    obtain ⟨m, -, hmoved⟩ := List.exists_of_findSome?_eq_some hclocked
    exact htarget hc hmoved hr
  rcases eq_some_of_orElse hs with hs | hs
  · exact hmove hs
  rcases eq_some_of_orElse hs with hs | hs
  · exact hmove hs
  rcases eq_some_of_orElse hs with hs | hs
  · split at hs
    · exact hmove hs
    · cases hs
  rcases eq_some_of_orElse hs with hs | hs
  · obtain ⟨k, -, hadvance⟩ := List.exists_of_findSome?_eq_some hs
    obtain ⟨r₁, hmoved, rfl⟩ := Option.map_eq_some_iff.mp hadvance
    obtain ⟨s', hstep, hcontroller, hendpoint⟩ := step_of_move h hmoved
    exact ⟨_, s', hstep, hcontroller, hendpoint⟩
  rcases eq_some_of_orElse hs with hs | hs
  · obtain ⟨endpoint, hexpire, hr⟩ := Option.map_eq_some_iff.mp hs
    rw [hc] at hexpire
    obtain ⟨c', hclocked, rfl⟩ := Option.map_eq_some_iff.mp hexpire
    obtain ⟨thread, -, hdue⟩ := List.exists_of_findSome?_eq_some hclocked
    split at hdue
    · exact htarget hc hdue hr
    · cases hdue
  · obtain ⟨k, -, hs⟩ := List.exists_of_findSome?_eq_some hs
    split at hs
    · exact hmove hs
    · cases hs

/-- Whatever happens next under the schedule is a move of the two, or takes time only. -/
theorem step_of_turn (h : r.Follows s) (hs : r.turn = some r') :
    r'.Follows s ∨ ∃ m s', s.step m = some s' ∧ r'.Follows s' := by
  unfold turn at hs
  split at hs
  · cases hs
  rcases eq_some_of_orElse hs with hs | hs
  · exact .inr (step_of_moveNow h hs)
  · obtain ⟨due, -, rfl⟩ := Option.map_eq_some_iff.mp hs
    exact .inl ⟨h.controller, h.endpoint⟩

/-- A controller and a target in its process, as they are run, make an execution, whatever journal
the controller has. -/
theorem execution_of_complete (controller : ControllerSettings) (worker : WorkerSettings)
    (log : EventLog) (writing : Writing) :
    ∃ history s, Execution Supervised.step
        ((Supervised.launch controller worker).withLog log) history s ∧
      (SupervisedRun.start controller (.launch .inProcess worker) log writing).complete.Follows
        s := by
  refine exhaust_induction (P := fun r : SupervisedRun => ∃ history s,
    Execution Supervised.step ((Supervised.launch controller worker).withLog log) history s ∧
      r.Follows s) ?_ _ ?_
  · rintro r r' ⟨history, s, hrun, h⟩ hs
    rcases step_of_turn h hs with h' | ⟨m, s', hstep, h'⟩
    · exact ⟨history, s, hrun, h'⟩
    · exact ⟨_, s', hrun.cons hstep, h'⟩
  · exact ⟨[], _, .nil, rfl, _, rfl, rfl⟩

end SupervisedRun

end InterruptStress
