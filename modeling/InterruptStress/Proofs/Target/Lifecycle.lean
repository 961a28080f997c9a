import InterruptStress.Proofs.Execution
import InterruptStress.Proofs.Target.Transition
import InterruptStress.Proofs.Worker.Transition

/-!
# The life of a target

Whoever attends a target receives its events and sends it commands of any kind, in any order,
until the last sender goes.  All that the target says is one word: its start, its steps, and a
farewell that tells what ended it.  Every state of every execution has said a beginning of such a
word (`Attended.lifecycle_of_run`).  That the farewell is said once and in order rests on the agent
alone; that no step comes into it rests on the tracer, which was detached or left by an ended
thread before the farewell began.  And an agent that has something to do is never held up, so an
ended service is followed by the whole farewell (`Attended.agentTurns_le`).
-/

namespace InterruptStress

/-- A target, and what was received of its events. -/
structure Attended where
  target : Target
  received : List TargetEvent

inductive AttendedMove where
  | target (m : TargetMove)
  /-- The generator's thread cannot be started. -/
  | failStart (text : String)
  | send (command : ControlCommand)
  /-- The last sender goes. -/
  | hangUp
  /-- The first event that waits is received. -/
  | receive

/-- It is the agent that moves. -/
def TargetMove.isAgentTurn : TargetMove → Bool
  | .applyCommand | .noticeExit | .farewell => true
  | _ => false

namespace AttendedMove

def isAgentTurn : AttendedMove → Bool
  | .target m => m.isAgentTurn
  | _ => false

def isSend : AttendedMove → Bool
  | .send _ => true
  | _ => false

end AttendedMove

/-- What makes an agent end its service. -/
inductive EndCause where
  /-- The main thread has ended. -/
  | ended (exit : TargetExit)
  /-- A command said so. -/
  | exited (code : Int32)
  /-- Nobody is left to send a command. -/
  | abandoned
deriving DecidableEq

namespace EndCause

def exit : EndCause → TargetExit
  | ended exit => exit
  | exited code => Target.exitedOnCommand code
  | abandoned => Target.abandoned

/-- What a target tells about its end. -/
def news : EndCause → List TargetEvent
  | ended exit => [.threadDeath .main, .death exit]
  | exited code => [.death (Target.exitedOnCommand code)]
  | abandoned => [.death Target.abandoned]

/-- All that a target says once its service has ended. -/
def farewell (cause : EndCause) : List TargetEvent := cause.news ++ [.disconnected]

variable {cause : EndCause} {said : List TargetEvent}

theorem filterMap_announce (events : List TargetEvent) :
    (events.map Farewell.announce).filterMap Farewell.event? = events := by
  rw [List.filterMap_map]
  exact List.filterMap_some

theorem disconnected_not_mem_news : .disconnected ∉ cause.news := by
  cases cause <;> simp [news]

theorem exit_of_mem_farewell {exit : TargetExit} (h : .death exit ∈ cause.farewell) :
    exit = cause.exit := by
  cases cause <;> simpa [farewell, news, EndCause.exit] using h

theorem ended_of_mem_farewell {thread : ThreadId} (h : .threadDeath thread ∈ cause.farewell) :
    ∃ exit, cause = .ended exit := by
  cases cause with
  | ended exit => exact ⟨exit, rfl⟩
  | exited | abandoned => simp [farewell, news] at h

/-- The thread's death is told before the target's. -/
theorem threadDeath_of_death {exit exit' : TargetExit} (h : said <+: farewell (.ended exit))
    (hdeath : .death exit' ∈ said) : .threadDeath .main ∈ said := by
  cases said with
  | nil => cases hdeath
  | cons event said =>
    obtain ⟨rfl, -⟩ := List.cons_prefix_cons.mp h
    exact List.mem_cons_self

end EndCause

namespace Attended

def launch (settings : WorkerSettings) : Attended := ⟨.launch settings, []⟩

/-- What a move makes of an attended target, if it can happen. -/
def step (s : Attended) : AttendedMove → Option Attended
  | .target m => (s.target.step m).map fun target => { s with target }
  | .failStart text =>
    match s.target.main with
    | .working => (s.target.onRun (.failStart text)).map fun target => { s with target }
    | _ => none
  | .send command =>
    if s.target.link.commands.sending then
      let commands := s.target.link.commands.offer command
      some { s with target := { s.target with link := { s.target.link with commands } } }
    else none
  | .hangUp =>
    let commands := s.target.link.commands.hangUp
    some { s with target := { s.target with link := { s.target.link with commands } } }
  | .receive =>
    match s.target.link.events.receive with
    | (.item event, events) =>
      some ⟨{ s.target with link := { s.target.link with events } }, s.received ++ [event]⟩
    | _ => none

/-- Every event that a target has sent: those received, and those that wait. -/
def said (s : Attended) : List TargetEvent := s.received ++ s.target.link.events.queue

/-- What a move ends the agent's service for, if it ends it. -/
def endCause? (s : Attended) : AttendedMove → Option EndCause
  | .target .applyCommand =>
    match s.target.agent, s.target.link.commands.receive.1 with
    | .serving, .item (.exit code) => some (.exited code)
    | .serving, .ended => some .abandoned
    | _, _ => none
  | .target .noticeExit =>
    match s.target.agent, s.target.main with
    | .serving, .ended exit => some (.ended exit)
    | _, _ => none
  | _ => none

/-- What ended the agent's service, as a history tells. -/
def endCauses (history : List (Attended × AttendedMove)) : List EndCause :=
  history.filterMap fun e => e.1.endCause? e.2

variable {s : Attended} {m : AttendedMove} {history : List (Attended × AttendedMove)}

theorem endCauses_cons :
    endCauses ((s, m) :: history) = (s.endCause? m).toList ++ endCauses history := by
  unfold endCauses
  rw [List.filterMap_cons]
  cases s.endCause? m <;> rfl

end Attended

/-! ## Own results and forced ends -/

theorem head_append {a b : String} {c : Char} (h : a.toList.head? = some c) :
    (a ++ b).toList.head? = some c := by
  rw [String.toList_append, List.head?_append, h]
  rfl

theorem Violation.head_message (v : Violation) :
    v.message.toList.head? = some 'T' ∨ v.message.toList.head? = some 'I' := by
  cases v with
  | notInterrupted => exact .inl (head_append (by decide))
  | statusNotCleared => exact .inl (head_append (head_append (by decide)))
  | accountingMismatch => exact .inr (head_append (head_append (head_append (by decide))))

/-- A worker's failure is told in a sentence that begins with a capital. -/
theorem WorkerError.head_message (e : WorkerError) :
    ∃ c, e.message.toList.head? = some c ∧ c.isUpper = true := by
  cases e with
  | violation cause =>
    rcases cause.head_message with h | h
    · exact ⟨'T', h, rfl⟩
    · exact ⟨'I', h, rfl⟩
  | wait => exact ⟨'W', head_append (by decide), rfl⟩
  | detached => exact ⟨'W', by decide, rfl⟩
  | generator => exact ⟨'G', head_append (by decide), rfl⟩
  | spawn => exact ⟨'F', head_append (by decide), rfl⟩

/-- No worker's result is the exit of a target that was made to end for a reason that begins
with a small letter. -/
theorem Target.exitFor_ne_forced {code : Int32} {reason : String} {c : Char}
    (hreason : reason.toList.head? = some c) (hsmall : c.isUpper = false)
    (result : Except WorkerError WorkerReport) : exitFor result ≠ .forced code reason := by
  intro hsame
  cases result with
  | ok report => cases congrArg TargetExit.report hsame
  | error e =>
    have hmessage : e.message = reason := Option.some.inj (congrArg TargetExit.failure hsame)
    obtain ⟨c', hhead, hcapital⟩ := e.head_message
    rw [hmessage, hreason] at hhead
    obtain rfl := Option.some.inj hhead
    simp [hsmall] at hcapital

theorem EndCause.exit_ne_exitFor {cause : EndCause} (hcause : ∀ exit, cause ≠ .ended exit)
    (result : Except WorkerError WorkerReport) : cause.exit ≠ Target.exitFor result := by
  cases cause with
  | ended exit => exact absurd rfl (hcause exit)
  | exited code => exact (Target.exitFor_ne_forced (c := 't') (by decide) rfl result).symm
  | abandoned => exact (Target.exitFor_ne_forced (c := 'c') (by decide) rfl result).symm

/-! ## What lasts -/

/-- A worker that has finished keeps its result. -/
theorem LocalRun.phase_of_finished {s s' : LocalRun} {m : LocalMove}
    {result : Except WorkerError WorkerReport} (hresult : s.worker.phase = .finished result)
    (h : s.step m = some s') : s'.worker.phase = .finished result := by
  cases transition_of_step h <;> simp_all

namespace Target

variable {t t' : Target} {m : TargetMove} {move : Option LocalMove}

theorem phase_of_finished {result : Except WorkerError WorkerReport}
    (hresult : t.run.worker.phase = .finished result) (h : t.Transition m move t') :
    t'.run.worker.phase = .finished result := by
  rcases run_transition h with ⟨-, hrun⟩ | ⟨_, -, hs⟩
  · rw [hrun, hresult]
  · exact LocalRun.phase_of_finished hresult hs

theorem ended_of_transition {exit : TargetExit} (hended : t.main = .ended exit)
    (h : t.Transition m move t') : t'.main = .ended exit := by
  cases h with
  | waitForStart hmain | begin hmain | refuseStart hmain =>
    exact absurd hended (not_ended_of_isEntering hmain exit)
  | suspend _ hmain | waitOn hmain | goOn _ hmain | finish _ hmain => simp [hmain] at hended
  | refuse _ _ hmain => rcases hmain with ⟨hmain, -⟩ | ⟨hmain, -⟩ <;> simp [hmain] at hended
  | _ => exact hended

theorem thread_of_transition (h : t.Transition m move t') : t'.tracer.thread = t.tracer.thread := by
  cases h <;> rfl

/-- A target never closes the receiver's end of its events. -/
theorem heard_of_transition (h : t.Transition m move t') :
    t'.link.events.receiving = t.link.events.receiving := by
  cases h with
  | suspend | step | announce => exact Channel.receiving_offer _
  | _ => rfl

theorem detached_of_transition (hdetached : t.tracer.detached = true)
    (h : t.Transition m move t') : t'.tracer.detached = true := by
  cases h with
  | exit | abandon | lose => rfl
  | _ => exact hdetached

/-! ## The agent's service -/

/-- The main thread reports no line any more. -/
def IsQuiet (t : Target) : Prop := t.tracer.detached = true ∨ ∃ exit, t.main = .ended exit

/-- The exit of the main thread is the worker's own result, unless the tracer was detached. -/
def IsOwn (t : Target) : Prop :=
  ∀ exit, t.main = .ended exit →
    t.tracer.detached = true ∨ ∃ result, t.run.worker.phase = .finished result ∧
      exit = exitFor result

theorem IsOwn.of_unmoved (hown : t.IsOwn) (hmain : t'.main = t.main)
    (hdetached : t.tracer.detached = true → t'.tracer.detached = true)
    (hresult : ∀ result, t.run.worker.phase = .finished result →
      t'.run.worker.phase = .finished result) : t'.IsOwn := by
  intro exit hended
  rcases hown exit (hmain ▸ hended) with hgone | ⟨result, hp, hexit⟩
  · exact .inl (hdetached hgone)
  · exact .inr ⟨result, hresult result hp, hexit⟩

theorem IsOwn.of_transition (hown : t.IsOwn) (h : t.Transition m move t') : t'.IsOwn := by
  have hkept (hmain : t'.main = t.main) : t'.IsOwn :=
    hown.of_unmoved hmain (detached_of_transition · h) fun _ hp => phase_of_finished hp h
  cases h with
  | refuseStart hmain hdetached => exact fun _ _ => .inl hdetached
  | finish result hmain hw =>
    exact fun exit hended => .inr ⟨result, hw, (MainPhase.ended.inj hended).symm⟩
  | waitForStart | begin | suspend | refuse | goOn =>
    intro exit hended
    cases hended
  | _ => exact hkept rfl

/-- How far the agent is: what ended its service, if it has ended, and what has been said of
that. -/
inductive Service (t : Target) : List EndCause → List TargetEvent → Prop where
  | serving (hagent : t.agent = .serving) (hattached : t.tracer.detached = false)
      (hopen : t.link.commands.receiving = true) : Service t [] []
  | exiting (code : Int32) (hagent : t.agent = .exiting code)
      (hdetached : t.tracer.detached = true) : Service t [.exited code] []
  | ending (cause : EndCause) (done rest : List Farewell) (hagent : t.agent = .ending rest)
      (hwhole : farewells cause.news = .ending (done ++ rest)) (hquiet : t.IsQuiet)
      (hown : ∀ exit, cause = .ended exit →
        ∃ result, t.run.worker.phase = .finished result ∧ exit = exitFor result)
      (hclosed : .closeCommands ∈ done → t.link.commands.receiving = false) :
      Service t [cause] (done.filterMap Farewell.event?)

namespace Service

variable {causes : List EndCause} {said : List TargetEvent}

/-- While lines may be reported, the agent serves and no farewell has begun. -/
theorem of_not_quiet (h : t.Service causes said) (hquiet : ¬ t.IsQuiet) :
    causes = [] ∧ said = [] := by
  cases h with
  | serving => exact ⟨rfl, rfl⟩
  | exiting _ _ hdetached => exact absurd (.inl hdetached) hquiet
  | ending _ _ _ _ _ hq => exact absurd hq hquiet

theorem of_serving (h : t.Service causes said) (hagent : t.agent = .serving) :
    causes = [] ∧ said = [] ∧ t.tracer.detached = false ∧ t.link.commands.receiving = true := by
  cases h with
  | serving _ hattached hopen => exact ⟨rfl, rfl, hattached, hopen⟩
  | exiting _ h' | ending _ _ _ h' => simp [hagent] at h'

/-- What the agent has no part in leaves its service as it is. -/
theorem of_unserved (h : t.Service causes said) (hagent : t'.agent = t.agent)
    (hdetached : t'.tracer.detached = t.tracer.detached)
    (hcommands : t'.link.commands.receiving = t.link.commands.receiving)
    (hended : ∀ exit, t.main = .ended exit → t'.main = .ended exit)
    (hresult : ∀ result, t.run.worker.phase = .finished result →
      t'.run.worker.phase = .finished result) :
    t'.Service causes said := by
  cases h with
  | serving hserving hattached hopen =>
    exact .serving (hagent.trans hserving) (hdetached.trans hattached) (hcommands.trans hopen)
  | exiting code hexiting hgone =>
    exact .exiting code (hagent.trans hexiting) (hdetached.trans hgone)
  | ending cause done rest hending hwhole hquiet hown hclosed =>
    refine .ending cause done rest (hagent.trans hending) hwhole ?_ ?_
      fun hmem => hcommands.trans (hclosed hmem)
    · rcases hquiet with hgone | ⟨exit, hmain⟩
      · exact .inl (hdetached.trans hgone)
      · exact .inr ⟨exit, hended exit hmain⟩
    · intro exit hcause
      obtain ⟨result, hp, hexit⟩ := hown exit hcause
      exact ⟨result, hresult result hp, hexit⟩

/-- The farewell of a target that was told to exit begins. -/
theorem of_interruptMain {code : Int32} (h : t.Service causes said)
    (hagent : t.agent = .exiting code) :
    said = [] ∧ Service { t with
      run := { t.run with token := t.run.token.interrupt }
      agent := farewells [.death (exitedOnCommand code)] } causes [] := by
  cases h with
  | exiting code' hexiting hdetached =>
    obtain rfl : code = code' := AgentPhase.exiting.inj (hagent.symm.trans hexiting)
    exact ⟨rfl, .ending (.exited code) [] _ rfl rfl (.inl hdetached) nofun nofun⟩
  | serving h' | ending _ _ _ h' => simp [hagent] at h'

theorem of_announce {event : TargetEvent} {rest : List Farewell} (h : t.Service causes said)
    (hagent : t.agent = .ending (.announce event :: rest)) :
    Service { t with
      agent := .ending rest
      link := { t.link with events := t.link.events.offer event } } causes (said ++ [event]) := by
  cases h with
  | ending cause done rest' hending hwhole hquiet hown hclosed =>
    obtain rfl := AgentPhase.ending.inj (hagent.symm.trans hending)
    have hdone : done.filterMap Farewell.event? ++ [event] =
        (done ++ [Farewell.announce event]).filterMap Farewell.event? := by
      rw [List.filterMap_append]
      rfl
    rw [hdone]
    refine .ending cause _ rest rfl ?_ hquiet hown fun hmem => hclosed ?_
    · rw [hwhole, List.append_assoc]
      rfl
    · simpa using hmem
  | serving h' | exiting _ h' => simp [hagent] at h'

theorem of_closeCommands {rest : List Farewell} (h : t.Service causes said)
    (hagent : t.agent = .ending (.closeCommands :: rest)) :
    Service { t with
      agent := .ending rest
      link := { t.link with commands := t.link.commands.close } } causes said := by
  cases h with
  | ending cause done rest' hending hwhole hquiet hown hclosed =>
    obtain rfl := AgentPhase.ending.inj (hagent.symm.trans hending)
    have hdone : done.filterMap Farewell.event? =
        (done ++ [Farewell.closeCommands]).filterMap Farewell.event? := by
      rw [List.filterMap_append]
      exact (List.append_nil _).symm
    rw [hdone]
    refine .ending cause _ rest rfl ?_ hquiet hown fun _ => rfl
    rw [hwhole, List.append_assoc]
    rfl
  | serving h' | exiting _ h' => simp [hagent] at h'

/-- What has been said is the beginning of a farewell. -/
theorem isPrefix (h : t.Service causes said) :
    said = [] ∨ ∃ cause, causes = [cause] ∧ said <+: cause.farewell := by
  cases h with
  | serving | exiting => exact .inl rfl
  | ending cause done rest hagent hwhole =>
    have hsplit := congrArg (List.filterMap Farewell.event?) (AgentPhase.ending.inj hwhole)
    rw [List.filterMap_append, List.filterMap_append, EndCause.filterMap_announce] at hsplit
    exact .inr ⟨cause, rfl, _, hsplit.symm⟩

/-- Once the disconnect is announced, all is said and the command channel is closed. -/
theorem of_disconnected (h : t.Service causes said) (hmem : .disconnected ∈ said) :
    ∃ cause, causes = [cause] ∧ said = cause.farewell ∧ t.link.commands.receiving = false := by
  cases h with
  | serving | exiting => cases hmem
  | ending cause done rest hagent hwhole hquiet hown hclosed =>
    have hwhole : cause.news.map .announce ++ [.closeCommands] ++
        [Farewell.announce .disconnected] = done ++ rest := by
      rw [List.append_assoc]
      exact AgentPhase.ending.inj hwhole
    have hannounced : Farewell.announce .disconnected ∈ done := by
      obtain ⟨farewell, hmem, hevent⟩ := List.mem_filterMap.mp hmem
      cases farewell with
      | announce event => rwa [Option.some.inj hevent] at hmem
      | closeCommands => cases hevent
    rcases List.eq_nil_or_concat rest with rfl | ⟨rest, last, rfl⟩
    · rw [List.append_nil] at hwhole
      subst hwhole
      refine ⟨cause, rfl, ?_, hclosed (by simp)⟩
      rw [List.append_assoc, List.filterMap_append, EndCause.filterMap_announce]
      rfl
    · -- the disconnect comes last, so it is not among what has been done already
      rw [List.concat_eq_append, ← List.append_assoc] at hwhole
      have hdone := (List.append_inj' hwhole rfl).1
      have hearly : Farewell.announce .disconnected ∈
          cause.news.map .announce ++ [.closeCommands] :=
        hdone ▸ List.mem_append_left rest hannounced
      simp [EndCause.disconnected_not_mem_news] at hearly

theorem of_done (h : t.Service causes said) (hagent : t.agent = .ending []) :
    .disconnected ∈ said := by
  cases h with
  | ending cause done rest hending hwhole =>
    obtain rfl := AgentPhase.ending.inj (hagent.symm.trans hending)
    rw [List.append_nil] at hwhole
    rw [← AgentPhase.ending.inj hwhole, List.filterMap_append]
    exact List.mem_append_right _ (List.mem_singleton.mpr rfl)
  | serving h' | exiting _ h' => simp [hagent] at h'

/-- The death that is told is that of the one cause, after the thread's own if the thread has
ended. -/
theorem of_death {exit : TargetExit} (h : t.Service causes said) (hdeath : .death exit ∈ said) :
    ∃ cause, causes = [cause] ∧ exit = cause.exit ∧
      (.threadDeath .main ∈ said ↔ ∃ exit, cause = .ended exit) ∧
      ∀ exit, cause = .ended exit →
        ∃ result, t.run.worker.phase = .finished result ∧ exit = exitFor result := by
  have hsaid := h.isPrefix
  cases h with
  | serving | exiting => cases hdeath
  | ending cause done rest hagent hwhole hquiet hown =>
    rcases hsaid with hnil | ⟨cause', hcause, hsaid⟩
    · simp [hnil] at hdeath
    · obtain rfl : cause = cause' := (List.cons.inj hcause).1
      refine ⟨cause, rfl, EndCause.exit_of_mem_farewell (hsaid.subset hdeath), ⟨?_, ?_⟩, hown⟩
      · exact fun hmem => EndCause.ended_of_mem_farewell (hsaid.subset hmem)
      · rintro ⟨exit', rfl⟩
        exact EndCause.threadDeath_of_death hsaid hdeath

/-- The thread's death is told exactly with the worker's own result. -/
theorem threadDeath_iff {exit : TargetExit} (h : t.Service causes said)
    (hdeath : .death exit ∈ said) :
    .threadDeath .main ∈ said ↔
      ∃ result, t.run.worker.result? = some result ∧ exit = exitFor result := by
  obtain ⟨cause, -, rfl, htold, hown⟩ := h.of_death hdeath
  rw [htold]
  constructor
  · rintro ⟨exit, rfl⟩
    obtain ⟨result, hp, hexit⟩ := hown exit rfl
    exact ⟨result, by simp [Worker.result?, hp], hexit⟩
  · rintro ⟨result, -, hexit⟩
    cases cause with
    | ended exit => exact ⟨exit, rfl⟩
    | exited | abandoned => exact absurd hexit (EndCause.exit_ne_exitFor (by simp) result)

end Service

end Target

/-! ## The agent's errands -/

theorem Channel.length_offer_le {α : Type} {c : Channel α} (value : α) :
    (c.offer value).queue.length ≤ c.queue.length + 1 := by
  unfold offer send
  cases c.receiving <;> simp

namespace Target

variable {t t' : Target} {m : TargetMove} {move : Option LocalMove}

/-- How many turns the agent can still take without a further command. -/
def errands (t : Target) : Nat :=
  match t.agent with
  | .serving => t.link.commands.queue.length + 5
  | .exiting _ => 4
  | .ending rest => rest.length

/-- Every turn of the agent brings it nearer to its end, and nothing else that the target does
takes it further away. -/
theorem errands_of_transition (h : t.Transition m move t') :
    t'.errands + m.isAgentTurn.toNat ≤ t.errands := by
  cases h with
  | goLocal _ _ _ hm =>
    have hturn : m.isAgentTurn = false := by
      rcases hm with ⟨rfl, -⟩ | ⟨rfl, -⟩ | ⟨_, rfl, -⟩ | ⟨_, rfl, -⟩ <;> rfl
    rw [hturn]
    exact Nat.le_refl _
  | request _ _ hagent hq | resume _ hagent hq | interrupt _ hagent hq | ignore _ _ hagent hq
  | exit _ _ hagent hq =>
    simp only [errands, hagent, hq, TargetMove.isAgentTurn, List.length_cons, Bool.toNat_true]
    omega
  | abandon hagent | noticeExit _ hagent | interruptMain _ hagent =>
    simp [errands, hagent, farewells, TargetMove.isAgentTurn]
  | announce _ _ hagent | closeCommands _ hagent =>
    simp [errands, hagent, TargetMove.isAgentTurn]
  | _ => exact Nat.le_refl _

/-- An agent that has something to do can do it. -/
theorem agentTurn_of_called {causes : List EndCause} {said : List TargetEvent}
    (h : t.Service causes said) (hmore : .disconnected ∉ said)
    (hcall : t.link.commands.sending = false ∨ causes ≠ [] ∨ ∃ exit, t.main = .ended exit) :
    ∃ m t', m.isAgentTurn = true ∧ t.step m = some t' := by
  cases hagent : t.agent with
  | serving =>
    obtain ⟨rfl, -⟩ := h.of_serving hagent
    rcases hcall with hgone | hended | ⟨exit, hmain⟩
    · refine ⟨.applyCommand, ?_⟩
      cases hq : t.link.commands.queue <;>
        simp [TargetMove.isAgentTurn, step, applyCommand, hagent, Channel.receive, hq, hgone]
    · exact absurd rfl hended
    · exact ⟨.noticeExit, by simp [TargetMove.isAgentTurn, step, noticeExit, hagent, hmain]⟩
  | exiting code =>
    exact ⟨.farewell, by simp [TargetMove.isAgentTurn, step, Target.farewell, hagent]⟩
  | ending rest =>
    cases rest with
    | nil => exact absurd (h.of_done hagent) hmore
    | cons next rest =>
      refine ⟨.farewell, ?_⟩
      cases next <;> simp [TargetMove.isAgentTurn, step, Target.farewell, hagent]

end Target

/-! ## What has been said -/

namespace Attended

variable {s s' : Attended} {m : AttendedMove} {causes : List EndCause}
  {history : List (Attended × AttendedMove)}

/-- A target has said its start, then its steps, and then what its agent has said of its end. -/
def Spoken (s : Attended) (causes : List EndCause) : Prop :=
  ∃ steps farewell, s.said = .started .main :: (steps ++ farewell) ∧
    (∀ event ∈ steps, event.isStep = true) ∧ s.target.Service causes farewell

structure Orderly (s : Attended) (causes : List EndCause) : Prop where
  heard : s.target.link.events.receiving = true
  thread : s.target.tracer.thread = .main
  own : s.target.IsOwn
  spoken : s.Spoken causes

theorem said_offer (target : Target) (event : TargetEvent)
    (hheard : s.target.link.events.receiving = true)
    (hevents : target.link.events = s.target.link.events.offer event) :
    said { s with target } = s.said ++ [event] := by
  rw [said, hevents, Channel.offer_of_receiving event hheard, said, List.append_assoc]

theorem Spoken.of_unserved (h : s.Spoken causes) (hsaid : s'.said = s.said)
    (hservice : ∀ farewell, s.target.Service causes farewell → s'.target.Service causes farewell) :
    s'.Spoken causes := by
  obtain ⟨steps, farewell, hall, hsteps, hs⟩ := h
  exact ⟨steps, farewell, hsaid.trans hall, hsteps, hservice farewell hs⟩

/-- A line that is reported is reported before the farewell. -/
theorem Spoken.of_step {event : TargetEvent} (h : s.Spoken causes)
    (hsaid : s'.said = s.said ++ [event]) (hevent : event.isStep = true)
    (hquiet : ¬ s.target.IsQuiet)
    (hservice : s.target.Service causes [] → s'.target.Service causes []) :
    s'.Spoken causes := by
  obtain ⟨steps, farewell, hall, hsteps, hs⟩ := h
  obtain ⟨-, rfl⟩ := hs.of_not_quiet hquiet
  refine ⟨steps ++ [event], [], ?_, ?_, hservice hs⟩
  · rw [hsaid, hall, List.append_nil, List.append_nil, List.cons_append]
  · intro e hmem
    rcases List.mem_append.mp hmem with hmem | hmem
    · exact hsteps e hmem
    · rwa [List.mem_singleton.mp hmem]

/-- A move that the agent has no part in and that says nothing. -/
theorem Orderly.spoken_of_calm {m : TargetMove} {move : Option LocalMove} {t : Target}
    (h : s.Orderly causes) (ht : s.target.Transition m move t)
    (hcause : s.endCause? (.target m) = none) (hagent : t.agent = s.target.agent)
    (hdetached : t.tracer.detached = s.target.tracer.detached)
    (hcommands : t.link.commands.receiving = s.target.link.commands.receiving)
    (hevents : t.link.events = s.target.link.events) :
    Spoken { s with target := t } ((s.endCause? (.target m)).toList ++ causes) := by
  rw [hcause]
  refine h.spoken.of_unserved ?_ fun _ hs =>
    hs.of_unserved hagent hdetached hcommands (fun _ hmain => Target.ended_of_transition hmain ht)
      fun _ hp => Target.phase_of_finished hp ht
  rw [said, said, hevents]

/-- A move that reports a line. -/
theorem Orderly.spoken_of_report {m : TargetMove} {move : Option LocalMove} {t : Target}
    (h : s.Orderly causes) (ht : s.target.Transition m move t) (event : TargetEvent)
    (hcause : s.endCause? (.target m) = none) (hagent : t.agent = s.target.agent)
    (hdetached : t.tracer.detached = s.target.tracer.detached)
    (hcommands : t.link.commands.receiving = s.target.link.commands.receiving)
    (hevents : t.link.events = s.target.link.events.offer event) (hevent : event.isStep = true)
    (hattached : s.target.tracer.detached = false) (hmain : s.target.main = .working) :
    Spoken { s with target := t } ((s.endCause? (.target m)).toList ++ causes) := by
  have hloud : ¬ s.target.IsQuiet := by
    rintro (hgone | ⟨exit, hended⟩)
    · simp [hattached] at hgone
    · simp [hmain] at hended
  rw [hcause]
  exact h.spoken.of_step (said_offer t event h.heard hevents) hevent hloud fun hs =>
    hs.of_unserved hagent hdetached hcommands (fun _ hmain => Target.ended_of_transition hmain ht)
      fun _ hp => Target.phase_of_finished hp ht

/-- A move of the target keeps the order of what it says. -/
theorem Orderly.spoken_of_transition {m : TargetMove} {move : Option LocalMove} {t : Target}
    (h : s.Orderly causes) (ht : s.target.Transition m move t) :
    Spoken { s with target := t } ((s.endCause? (.target m)).toList ++ causes) := by
  have hcalm := h.spoken_of_calm ht
  have hreport := h.spoken_of_report ht
  obtain ⟨steps, farewell, hall, hsteps, hs⟩ := h.spoken
  cases ht with
  | waitForStart | begin | refuseStart | pass | refuse | waitOn | goOn | finish | stir =>
    exact hcalm rfl rfl rfl rfl rfl
  | suspend line hmain _ hattached | step line _ hmain _ hattached =>
    exact hreport _ rfl rfl rfl rfl rfl rfl hattached hmain
  | lose _ _ _ _ _ _ _ hdeaf => simp [h.heard] at hdeaf
  | goLocal _ _ _ hm =>
    refine hcalm ?_ rfl rfl rfl rfl
    rcases hm with ⟨rfl, -⟩ | ⟨rfl, -⟩ | ⟨_, rfl, -⟩ | ⟨_, rfl, -⟩ <;> rfl
  | request _ _ hagent hq | resume _ hagent hq | interrupt _ hagent hq =>
    exact hcalm (by simp [endCause?, Channel.receive, hagent, hq]) rfl rfl rfl rfl
  | ignore _ _ hagent hq hother =>
    refine hcalm ?_ rfl rfl rfl rfl
    rcases hother with ⟨_, _, -, rfl⟩ | ⟨_, -, rfl⟩ <;>
      simp [endCause?, Channel.receive, hagent, hq]
  | exit code rest hagent hq =>
    obtain ⟨rfl, rfl, -⟩ := hs.of_serving hagent
    have hcause : s.endCause? (.target .applyCommand) = some (.exited code) := by
      simp [endCause?, Channel.receive, hagent, hq]
    rw [hcause]
    exact ⟨steps, [], hall, hsteps, .exiting code rfl rfl⟩
  | abandon hagent hq hgone =>
    obtain ⟨rfl, rfl, -⟩ := hs.of_serving hagent
    have hcause : s.endCause? (.target .applyCommand) = some .abandoned := by
      simp [endCause?, Channel.receive, hagent, hq, hgone]
    rw [hcause]
    exact ⟨steps, [], hall, hsteps, .ending .abandoned [] _ rfl rfl (.inl rfl) nofun nofun⟩
  | noticeExit exit hagent hmain =>
    obtain ⟨rfl, rfl, hattached, -⟩ := hs.of_serving hagent
    have hcause : s.endCause? (.target .noticeExit) = some (.ended exit) := by
      simp [endCause?, hagent, hmain]
    rw [hcause]
    refine ⟨steps, [], hall, hsteps,
      .ending (.ended exit) [] _ rfl ?_ (.inr ⟨exit, hmain⟩) ?_ nofun⟩
    · rw [h.thread]
      rfl
    · intro exit' hsame
      obtain rfl := EndCause.ended.inj hsame
      rcases h.own exit hmain with hgone | hown
      · simp [hattached] at hgone
      · exact hown
  | interruptMain code hagent =>
    obtain ⟨rfl, hs'⟩ := hs.of_interruptMain hagent
    exact ⟨steps, [], hall, hsteps, hs'⟩
  | announce event rest hagent =>
    refine ⟨steps, farewell ++ [event], ?_, hsteps, hs.of_announce hagent⟩
    rw [said_offer _ event h.heard rfl, hall, List.cons_append, List.append_assoc]
  | closeCommands rest hagent =>
    exact ⟨steps, farewell, hall, hsteps, hs.of_closeCommands hagent⟩

theorem of_receive (h : s.step .receive = some s') :
    ∃ event rest, s.target.link.events.queue = event :: rest ∧
      s' = ⟨{ s.target with
        link := { s.target.link with events := { s.target.link.events with queue := rest } } },
        s.received ++ [event]⟩ := by
  simp only [step, Channel.receive] at h
  cases hq : s.target.link.events.queue with
  | nil =>
    rw [hq] at h
    cases hsending : s.target.link.events.sending <;> simp [hsending] at h
  | cons event rest =>
    rw [hq] at h
    exact ⟨event, rest, rfl, (Option.some.inj h).symm⟩

/-- Whatever happens keeps the order of what is said. -/
theorem Orderly.of_step (h : s.Orderly causes) (hs : s.step m = some s') :
    s'.Orderly ((s.endCause? m).toList ++ causes) := by
  cases m with
  | target m =>
    obtain ⟨t, ht, rfl⟩ := Option.map_eq_some_iff.mp hs
    have ht := Target.transition_of_step ht
    exact ⟨(Target.heard_of_transition ht).trans h.heard,
      (Target.thread_of_transition ht).trans h.thread, h.own.of_transition ht,
      h.spoken_of_transition ht⟩
  | failStart text =>
    simp only [step] at hs
    split at hs
    · obtain ⟨t, ht, rfl⟩ := Option.map_eq_some_iff.mp hs
      obtain ⟨run, hrun, rfl⟩ := Target.of_onRun ht
      have hresult (result : Except WorkerError WorkerReport)
          (hp : s.target.run.worker.phase = .finished result) :
          run.worker.phase = .finished result :=
        LocalRun.phase_of_finished hp hrun
      refine ⟨h.heard, h.thread, ?_, ?_⟩
      · exact h.own.of_unmoved rfl id hresult
      · exact h.spoken.of_unserved rfl fun _ hs =>
          hs.of_unserved rfl rfl rfl (fun _ hmain => hmain) hresult
    · cases hs
  | send command =>
    simp only [step] at hs
    split at hs
    · obtain rfl := Option.some.inj hs
      refine ⟨h.heard, h.thread, h.own, h.spoken.of_unserved rfl fun _ hs => ?_⟩
      exact hs.of_unserved rfl rfl (Channel.receiving_offer _) (fun _ hmain => hmain) fun _ hp => hp
    · cases hs
  | hangUp =>
    obtain rfl := Option.some.inj hs
    refine ⟨h.heard, h.thread, h.own, h.spoken.of_unserved rfl fun _ hs => ?_⟩
    exact hs.of_unserved rfl rfl rfl (fun _ hmain => hmain) fun _ hp => hp
  | receive =>
    obtain ⟨event, rest, hq, rfl⟩ := of_receive hs
    refine ⟨h.heard, h.thread, h.own, h.spoken.of_unserved ?_ fun _ hs => ?_⟩
    · simp [said, hq]
    · exact hs.of_unserved rfl rfl rfl (fun _ hmain => hmain) fun _ hp => hp

theorem orderly_of_run {settings : WorkerSettings}
    (hrun : Execution step (launch settings) history s) : s.Orderly (endCauses history) := by
  induction hrun with
  | nil => exact ⟨rfl, rfl, nofun, [], [], rfl, nofun, .serving rfl rfl rfl⟩
  | cons _ hs ih =>
    rw [endCauses_cons]
    exact ih.of_step hs

/-! ## The agent's turns -/

/-- Only a command that is sent gives the agent more to do. -/
theorem errands_of_step (hs : s.step m = some s') :
    s'.target.errands + m.isAgentTurn.toNat ≤ s.target.errands + m.isSend.toNat := by
  cases m with
  | target m =>
    obtain ⟨t, ht, rfl⟩ := Option.map_eq_some_iff.mp hs
    exact Target.errands_of_transition (Target.transition_of_step ht)
  | failStart text =>
    simp only [step] at hs
    split at hs
    · obtain ⟨t, ht, rfl⟩ := Option.map_eq_some_iff.mp hs
      obtain ⟨run, hrun, rfl⟩ := Target.of_onRun ht
      exact Nat.le_refl _
    · cases hs
  | send command =>
    simp only [step] at hs
    split at hs
    · obtain rfl := Option.some.inj hs
      simp only [Target.errands]
      cases s.target.agent with
      | serving => exact Nat.add_le_add_right (Channel.length_offer_le command) 5
      | exiting | ending => exact Nat.le_succ _
    · cases hs
  | hangUp =>
    obtain rfl := Option.some.inj hs
    exact Nat.le_refl _
  | receive =>
    obtain ⟨event, rest, hq, rfl⟩ := of_receive hs
    exact Nat.le_refl _

/-- The agent takes at most five turns more than commands were sent. -/
theorem agentTurns_le {settings : WorkerSettings}
    (hrun : Execution step (launch settings) history s) :
    history.countP (fun e => e.2.isAgentTurn) + s.target.errands ≤
      history.countP (fun e => e.2.isSend) + 5 := by
  induction hrun with
  | nil => exact Nat.le_refl _
  | cons _ hs ih =>
    have hstep := errands_of_step hs
    rw [Execution.countP_history_cons, Execution.countP_history_cons]
    omega

/-! ## The whole life -/

/-- What has been said in a state: the steps, and what has been said of the end. -/
structure Lifecycle (history : List (Attended × AttendedMove)) (s : Attended)
    (steps farewell : List TargetEvent) : Prop where
  said : s.received ++ s.target.link.events.queue = .started .main :: (steps ++ farewell)
  stepping : ∀ event ∈ steps, event.isStep = true
  /-- One thing ends the service, and the farewell tells of it. -/
  cause : farewell = [] ∨
    ∃ cause, endCauses history = [cause] ∧ farewell <+: cause.farewell
  /-- Nothing follows the disconnect, and no command is taken any more. -/
  complete : .disconnected ∈ farewell →
    (∃ cause, endCauses history = [cause] ∧ farewell = cause.farewell) ∧
      ∀ command, s.target.link.commands.send command = .error .disconnected
  /-- The thread's death is told exactly with the worker's own result. -/
  ownResult : ∀ exit, .death exit ∈ farewell →
    (.threadDeath .main ∈ farewell ↔
      ∃ result, s.target.run.worker.result? = some result ∧ exit = Target.exitFor result)
  exitCode : ∀ exit code, .death exit ∈ farewell → .exited code ∈ endCauses history →
    exit.code = code
  abandonedCode : ∀ exit, .death exit ∈ farewell → .abandoned ∈ endCauses history →
    exit.code = TargetExit.forcedCode
  /-- Nobody goes silent before the disconnect. -/
  silent : s.target.isSilent = true → .disconnected ∈ farewell
  /-- An agent that has something to do is not held up. -/
  unhindered : .disconnected ∉ farewell →
    s.target.link.commands.sending = false ∨ endCauses history ≠ [] ∨
      (∃ exit, s.target.main = .ended exit) →
    ∃ m s', m.isAgentTurn = true ∧ s.step m = some s'
  turns : history.countP (fun e => e.2.isAgentTurn) ≤ history.countP (fun e => e.2.isSend) + 5

/-- Whatever commands a target is sent, in whatever order, and whenever its last sender goes:
every state has said a beginning of one life. -/
theorem lifecycle_of_run {settings : WorkerSettings}
    (hrun : Execution step (launch settings) history s) :
    ∃ steps farewell, s.Lifecycle history steps farewell := by
  have h := orderly_of_run hrun
  obtain ⟨steps, farewell, hsaid, hsteps, hs⟩ := h.spoken
  refine ⟨steps, farewell, hsaid, hsteps, hs.isPrefix, ?_, ?_, ?_, ?_, ?_, ?_,
    Nat.le_of_add_right_le (agentTurns_le hrun)⟩
  · intro hmem
    obtain ⟨cause, hcause, hfarewell, hclosed⟩ := hs.of_disconnected hmem
    refine ⟨⟨cause, hcause, hfarewell⟩, fun command => ?_⟩
    simp [Channel.send, hclosed]
  · intro exit hdeath
    exact hs.threadDeath_iff hdeath
  · intro exit code hdeath hcode
    obtain ⟨cause, hcauses, rfl, -⟩ := hs.of_death hdeath
    rw [hcauses, List.mem_singleton] at hcode
    rw [← hcode]
    rfl
  · intro exit hdeath habandoned
    obtain ⟨cause, hcauses, rfl, -⟩ := hs.of_death hdeath
    rw [hcauses, List.mem_singleton] at habandoned
    rw [← habandoned]
    rfl
  · intro hsilent
    unfold Target.isSilent at hsilent
    split at hsilent
    · next hagent _ => exact hs.of_done hagent
    · cases hsilent
  · intro hmore hcall
    obtain ⟨m, t, hm, ht⟩ := Target.agentTurn_of_called hs hmore hcall
    exact ⟨.target m, { s with target := t }, hm, by simp [step, ht]⟩

/-- A target that is told to exit before its start. -/
theorem lifecycle_of_run_exited :
    ∃ history s steps farewell,
      Execution step (launch ⟨.precise, 1, .ofMillis 10, .ofMillis 1⟩) history s ∧
      s.received = [.started .main, .death (Target.exitedOnCommand 7), .disconnected] ∧
      endCauses history = [.exited 7] ∧ s.Lifecycle history steps farewell := by
  let apply : AttendedMove := .target .applyCommand
  let farewell : AttendedMove := .target .farewell
  have hrun := Execution.of_replay (.nil : Execution step
      (launch ⟨.precise, 1, .ofMillis 10, .ofMillis 1⟩) [] _)
    [.send (.exit 7), apply, farewell, .target .main, .receive, farewell, farewell, farewell,
      .receive, .receive] rfl
  obtain ⟨_, _, hlife⟩ := lifecycle_of_run hrun
  exact ⟨_, _, _, _, hrun, rfl, rfl, hlife⟩

end Attended

end InterruptStress
