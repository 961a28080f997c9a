import InterruptStress.Proofs.Execution
import InterruptStress.Proofs.Target.Transition

/-!
# A traced thread

A tracer in the hands of callers that nothing is known of.  They install step requests, resume,
detach and close the receiver of the events in any order, and the thread may wake up for no reason;
the thread itself waits for its start once and, if it was let go, reports lines for as long as it
likes (`TracedThread.act`).

What was done, the latest first, tells which request is in force, whether the receiver is closed and
whether the tracer is detached (`request?`, `isClosed`, `isDetached`), and so which steps are sent
(`steps`); the state is looked at for none of these.  The main result, `TracedThread.calls_of_run`,
says what the thread's calls return: each is refused exactly when the tracer is detached, a start
is let go only by a resume, and a line whose step suspends the thread only by a resume that came
after that step.
-/

namespace InterruptStress

/-- What a traced thread asks of its tracer. -/
inductive TracedCall where
  | start
  | line (number : UInt32)
deriving DecidableEq

inductive TracedPhase where
  /-- Has not asked for its start. -/
  | created
  /-- Waits in a call. -/
  | within (call : TracedCall)
  /-- Was let go, and may report a line. -/
  | free
  /-- Was not let start. -/
  | refused
deriving DecidableEq

/-- The call that a thread waits in. -/
def TracedPhase.call? : TracedPhase → Option TracedCall
  | within call => some call
  | _ => none

theorem TracedPhase.call?_eq_some_iff {phase : TracedPhase} {call : TracedCall} :
    phase.call? = some call ↔ phase = .within call := by
  cases phase <;> simp [call?]

structure TracedThread where
  tracer : Tracer
  /-- The receiver of the events is not closed. -/
  receiving : Bool
  phase : TracedPhase

/-- What can happen to a tracer and to its thread. -/
inductive TracerMove where
  | enable (policy : SuspendPolicy)
  | resume
  | detach
  /-- The receiver of the events goes away. -/
  | close
  /-- The thread's wait ends for no reason. -/
  | stir
  | start
  | line (number : UInt32)
  /-- The thread, no longer parked, looks whether it may go on. -/
  | wake

/-- What comes of a move. -/
structure TracedOutcome where
  thread : TracedThread
  event : Option TargetEvent
  /-- Whether the call that the thread is in was let go; nothing if it did not return. -/
  accepted : Option Bool

/-- Where a thread is once a call was let go, was refused or has to wait. -/
def TracedCall.phaseAfter : TracedCall → Option Bool → TracedPhase
  | call, none => .within call
  | .start, some false => .refused
  | .line _, some false => .free
  | _, some true => .free

@[simp] theorem TracedCall.phaseAfter_none (call : TracedCall) :
    call.phaseAfter none = .within call := by cases call <;> rfl

@[simp] theorem TracedCall.phaseAfter_true (call : TracedCall) :
    call.phaseAfter (some true) = .free := by cases call <;> rfl

namespace TracedThread

def new (id : ThreadId) : TracedThread := ⟨.new id, true, .created⟩

/-- What a caller does to the tracer. -/
def withTracer (s : TracedThread) (tracer : Tracer) : TracedOutcome :=
  ⟨{ s with tracer }, none, none⟩

/-- The thread looks whether a call may return. -/
def await (s : TracedThread) (call : TracedCall) : TracedOutcome :=
  let found := s.tracer.look
  ⟨{ s with tracer := found.2, phase := call.phaseAfter found.1 }, none, found.1⟩

/-- The thread reports a line. -/
def report (s : TracedThread) (number : UInt32) : TracedOutcome :=
  let outcome := s.tracer.line s.receiving number
  ⟨{ s with
      tracer := outcome.tracer
      phase := (TracedCall.line number).phaseAfter outcome.accepted },
    outcome.event, outcome.accepted⟩

/-- What comes of a move, if it can be made. -/
def act (s : TracedThread) : TracerMove → Option TracedOutcome
  | .enable policy => some (s.withTracer (s.tracer.enable policy))
  | .resume => some (s.withTracer s.tracer.resume)
  | .detach => some (s.withTracer s.tracer.detach)
  | .close => some ⟨{ s with receiving := false }, none, none⟩
  | .stir => some (s.withTracer s.tracer.stir)
  | .start => if s.phase = .created then some (s.await .start) else none
  | .line number => if s.phase = .free then some (s.report number) else none
  | .wake =>
    s.phase.call?.bind fun call => if s.tracer.parked then none else some (s.await call)

def step (s : TracedThread) (m : TracerMove) : Option TracedThread :=
  (s.act m).map TracedOutcome.thread

/-- The call that the thread is in when it makes a move. -/
def call? (s : TracedThread) : TracerMove → Option TracedCall
  | .start => some .start
  | .line number => some (.line number)
  | .wake => s.phase.call?
  | _ => none

/-! ## What the moves say -/

/-- The request in force. -/
def request? : List TracerMove → Option SuspendPolicy
  | [] => none
  | .enable policy :: _ => some policy
  | _ :: earlier => request? earlier

def isClosed : List TracerMove → Bool
  | [] => false
  | .close :: _ => true
  | _ :: earlier => isClosed earlier

/-- The tracer was told to detach, or a step could not be sent. -/
def isDetached : List TracerMove → Bool
  | [] => false
  | .detach :: _ => true
  | .line _ :: earlier => isDetached earlier || (isClosed earlier && (request? earlier).isSome)
  | _ :: earlier => isDetached earlier

/-- The step that a move is to send. -/
def step? (id : ThreadId) (earlier : List TracerMove) : TracerMove → Option TargetEvent
  | .line number =>
    if isDetached earlier || isClosed earlier then none
    else (request? earlier).map fun policy =>
      .step id ⟨workerMethod, number⟩ (policy == .thread)
  | _ => none

/-- The steps that are to be sent, the first one first. -/
def steps (id : ThreadId) : List TracerMove → List TargetEvent
  | [] => []
  | m :: earlier => steps id earlier ++ (step? id earlier m).toList

/-- The event that a move sends. -/
def sentBy (e : TracedThread × TracerMove) : Option TargetEvent :=
  (e.1.act e.2).bind TracedOutcome.event

/-- The events that were sent, the first one first. -/
def sent (history : List (TracedThread × TracerMove)) : List TargetEvent :=
  history.reverse.filterMap sentBy

/-- The thread has reported a line, and after that none; `later` is what was done since. -/
structure Reported (history : List (TracedThread × TracerMove)) (number : UInt32)
    (later : List (TracedThread × TracerMove)) (before : TracedThread) : Prop where
  eq : ∃ earlier, history = later ++ (before, .line number) :: earlier
  latest : ∀ e ∈ later, ∀ other, e.2 ≠ .line other

/-- What has let a call go: a start is let go by a resume, and a line that was sent as a suspending
step by a resume that came after it. -/
def LetGo (id : ThreadId) (history : List (TracedThread × TracerMove)) : TracedCall → Prop
  | .start => .resume ∈ history.map Prod.snd
  | .line number => ∃ later before, Reported history number later before ∧
      ∀ location, sentBy (before, .line number) = some (.step id location true) →
        .resume ∈ later.map Prod.snd

/-! ## Transitions -/

/-- A move lets the thread look whether a call that it is in, or that it begins, may return. -/
inductive Awaits (s : TracedThread) : TracerMove → TracedCall → Prop where
  | first (hphase : s.phase = .created) : Awaits s .start .start
  | again (call : TracedCall) (hphase : s.phase = .within call) (hwoken : s.tracer.parked = false) :
      Awaits s .wake call

/-- What each move can do. -/
inductive Transition (s : TracedThread) : TracerMove → TracedOutcome → Prop where
  | enable (policy : SuspendPolicy) :
      Transition s (.enable policy) (s.withTracer (s.tracer.enable policy))
  | resume : Transition s .resume (s.withTracer s.tracer.resume)
  | detach : Transition s .detach (s.withTracer s.tracer.detach)
  | close : Transition s .close ⟨{ s with receiving := false }, none, none⟩
  | stir : Transition s .stir (s.withTracer s.tracer.stir)
  | refuse (m : TracerMove) (call : TracedCall) (hawaits : s.Awaits m call)
      (hdetached : s.tracer.detached = true) :
      Transition s m ⟨{ s with phase := call.phaseAfter (some false) }, none, some false⟩
  | waitOn (m : TracerMove) (call : TracedCall) (hawaits : s.Awaits m call)
      (hattached : s.tracer.detached = false) (hsuspended : s.tracer.suspended = true) :
      Transition s m ⟨⟨{ s.tracer with parked := true }, s.receiving, .within call⟩, none, none⟩
  | release (m : TracerMove) (call : TracedCall) (hawaits : s.Awaits m call)
      (hattached : s.tracer.detached = false) (hresumed : s.tracer.suspended = false) :
      Transition s m ⟨{ s with phase := .free }, none, some true⟩
  | fail (number : UInt32) (hphase : s.phase = .free) (hdetached : s.tracer.detached = true) :
      Transition s (.line number) ⟨{ s with phase := .free }, none, some false⟩
  | skip (number : UInt32) (hphase : s.phase = .free) (hattached : s.tracer.detached = false)
      (hrequest : s.tracer.request = none) :
      Transition s (.line number) ⟨{ s with phase := .free }, none, some true⟩
  | lose (number : UInt32) (policy : SuspendPolicy) (hphase : s.phase = .free)
      (hattached : s.tracer.detached = false) (hrequest : s.tracer.request = some policy)
      (hclosed : s.receiving = false) :
      Transition s (.line number)
        ⟨⟨{ s.tracer with suspended := policy == .thread, detached := true }, s.receiving, .free⟩,
          none, some false⟩
  | pass (number : UInt32) (hphase : s.phase = .free) (hattached : s.tracer.detached = false)
      (hrequest : s.tracer.request = some .none) (hopen : s.receiving = true) :
      Transition s (.line number)
        ⟨⟨{ s.tracer with suspended := false }, s.receiving, .free⟩,
          some (s.tracer.stepEvent number false), some true⟩
  | suspend (number : UInt32) (hphase : s.phase = .free) (hattached : s.tracer.detached = false)
      (hrequest : s.tracer.request = some .thread) (hopen : s.receiving = true) :
      Transition s (.line number)
        ⟨⟨{ s.tracer with suspended := true, parked := true }, s.receiving,
            .within (.line number)⟩,
          some (s.tracer.stepEvent number true), none⟩

variable {s : TracedThread} {m : TracerMove} {call : TracedCall} {outcome : TracedOutcome}
  {number : UInt32} {history : List (TracedThread × TracerMove)} {id : ThreadId}

theorem await_of_look {found : Option Bool × Tracer} (h : s.tracer.look = found) :
    s.await call = ⟨⟨found.2, s.receiving, call.phaseAfter found.1⟩, none, found.1⟩ := by
  rw [await, h]

theorem report_of_line {receiving : Bool} {found : Tracer.LineOutcome}
    (hreceiving : s.receiving = receiving) (h : s.tracer.line receiving number = found) :
    s.report number =
      ⟨⟨found.tracer, s.receiving, (TracedCall.line number).phaseAfter found.accepted⟩,
        found.event, found.accepted⟩ := by
  rw [report, hreceiving, h]

theorem transition_of_await (hawaits : s.Awaits m call) : s.Transition m (s.await call) := by
  cases hdetached : s.tracer.detached with
  | true =>
    rw [await_of_look (Tracer.look_of_detached hdetached)]
    exact .refuse m call hawaits hdetached
  | false =>
    cases hsuspended : s.tracer.suspended with
    | true =>
      rw [await_of_look (Tracer.look_of_suspended hdetached hsuspended),
        TracedCall.phaseAfter_none]
      exact .waitOn m call hawaits hdetached hsuspended
    | false =>
      rw [await_of_look (Tracer.look_of_released hdetached hsuspended), TracedCall.phaseAfter_true]
      exact .release m call hawaits hdetached hsuspended

theorem transition_of_report (hphase : s.phase = .free) :
    s.Transition (.line number) (s.report number) := by
  cases hdetached : s.tracer.detached with
  | true =>
    rw [report_of_line rfl (Tracer.line_of_detached hdetached)]
    exact .fail number hphase hdetached
  | false =>
    cases hrequest : s.tracer.request with
    | none =>
      rw [report_of_line rfl (Tracer.line_of_unrequested hdetached hrequest)]
      exact .skip number hphase hdetached hrequest
    | some policy =>
      rcases Bool.eq_false_or_eq_true s.receiving with hopen | hclosed
      · cases policy with
        | thread =>
          rw [report_of_line hopen (Tracer.line_of_suspending hdetached hrequest)]
          exact .suspend number hphase hdetached hrequest hopen
        | none =>
          rw [report_of_line hopen (Tracer.line_of_passing hdetached hrequest)]
          exact .pass number hphase hdetached hrequest hopen
      · rw [report_of_line hclosed (Tracer.line_of_closed hdetached hrequest)]
        exact .lose number policy hphase hdetached hrequest hclosed

/-- A call that the thread is in, or begins, is one that it can look at. -/
theorem act_of_awaits (h : s.Awaits m call) : s.act m = some (s.await call) := by
  cases h with
  | first hphase => exact if_pos hphase
  | again _ hphase hwoken => simp [act, TracedPhase.call?_eq_some_iff.mpr hphase, hwoken]

/-- Every move that is made is one of the transitions. -/
theorem transition_of_act (h : s.act m = some outcome) : s.Transition m outcome := by
  cases m with
  | enable policy => cases h; exact .enable policy
  | resume => cases h; exact .resume
  | detach => cases h; exact .detach
  | close => cases h; exact .close
  | stir => cases h; exact .stir
  | start =>
    obtain ⟨hphase, h⟩ := Option.ite_none_right_eq_some.mp h
    cases h
    exact transition_of_await (.first hphase)
  | line number =>
    obtain ⟨hphase, h⟩ := Option.ite_none_right_eq_some.mp h
    cases h
    exact transition_of_report hphase
  | wake =>
    obtain ⟨call, hcall, h⟩ := Option.bind_eq_some_iff.mp h
    obtain ⟨hwoken, h⟩ := Option.ite_none_left_eq_some.mp h
    cases h
    exact transition_of_await
      (.again call (TracedPhase.call?_eq_some_iff.mp hcall) (eq_false_of_ne_true hwoken))

theorem Awaits.call?_eq (h : s.Awaits m call) : s.call? m = some call := by
  cases h with
  | first => rfl
  | again _ hphase => exact TracedPhase.call?_eq_some_iff.mpr hphase

theorem Awaits.ne_line (h : s.Awaits m call) (other : UInt32) : m ≠ .line other := by
  cases h <;> nofun

theorem sentBy_of_act (h : s.act m = some outcome) : sentBy (s, m) = outcome.event := by
  simp [sentBy, h]

/-! ## The state is what was done -/

/-- A tracer's request, its receiver and whether it is detached are what the moves say. -/
structure Mirrored (id : ThreadId) (moves : List TracerMove) (s : TracedThread) : Prop where
  thread : s.tracer.thread = id
  request : s.tracer.request = request? moves
  receiving : s.receiving = !isClosed moves
  detached : s.tracer.detached = isDetached moves

variable {moves : List TracerMove}

theorem Awaits.mirrored (h : s.Awaits m call) (hs : Mirrored id moves s) :
    Mirrored id (m :: moves) s := by
  cases h <;> exact ⟨hs.thread, hs.request, hs.receiving, hs.detached⟩

theorem Mirrored.isClosed_eq (h : Mirrored id moves s) : isClosed moves = !s.receiving := by
  simp [h.receiving]

theorem mirrored_step (h : Mirrored id moves s) (hact : s.act m = some outcome) :
    Mirrored id (m :: moves) outcome.thread := by
  have hline (number : UInt32) (hunsent : isClosed moves = false ∨ request? moves = none) :
      isDetached (.line number :: moves) = isDetached moves := by
    rcases hunsent with hopen | hnone
    · simp [isDetached, hopen]
    · simp [isDetached, hnone]
  cases transition_of_act hact with
  | enable policy => exact ⟨h.thread, rfl, h.receiving, h.detached⟩
  | resume => exact ⟨h.thread, h.request, h.receiving, h.detached⟩
  | detach => exact ⟨h.thread, h.request, h.receiving, rfl⟩
  | close => exact ⟨h.thread, h.request, rfl, h.detached⟩
  | stir => exact ⟨h.thread, h.request, h.receiving, h.detached⟩
  | refuse _ call hawaits | waitOn _ call hawaits | release _ call hawaits =>
    obtain ⟨hthread, hrequest, hreceiving, hdetached⟩ := hawaits.mirrored h
    exact ⟨hthread, hrequest, hreceiving, hdetached⟩
  | fail number hphase hdetached =>
    refine ⟨h.thread, h.request, h.receiving, ?_⟩
    simp [isDetached, ← h.detached, hdetached]
  | skip number hphase hattached hrequest =>
    refine ⟨h.thread, h.request, h.receiving, ?_⟩
    rw [hline number (.inr (h.request.symm.trans hrequest))]
    exact h.detached
  | lose number policy hphase hattached hrequest hclosed =>
    refine ⟨h.thread, h.request, h.receiving, ?_⟩
    simp [isDetached, ← h.request, hrequest, h.isClosed_eq, hclosed]
  | pass number hphase hattached hrequest hopen =>
    refine ⟨h.thread, h.request, h.receiving, ?_⟩
    rw [hline number (.inl (by simp [h.isClosed_eq, hopen]))]
    exact h.detached
  | suspend number hphase hattached hrequest hopen =>
    refine ⟨h.thread, h.request, h.receiving, ?_⟩
    rw [hline number (.inl (by simp [h.isClosed_eq, hopen]))]
    exact h.detached

/-- A move sends the step that it is to send. -/
theorem event_of_act (h : Mirrored id moves s) (hact : s.act m = some outcome) :
    outcome.event = step? id moves m := by
  cases transition_of_act hact with
  | enable | resume | detach | close | stir => rfl
  | refuse _ call hawaits | waitOn _ call hawaits | release _ call hawaits =>
    cases hawaits <;> rfl
  | fail number hphase hdetached => simp [step?, ← h.detached, hdetached]
  | skip number hphase hattached hrequest => simp [step?, ← h.request, hrequest]
  | lose number policy hphase hattached hrequest hclosed => simp [step?, h.isClosed_eq, hclosed]
  | pass number hphase hattached hrequest hopen =>
    simp [step?, ← h.detached, hattached, h.isClosed_eq, hopen, ← h.request, hrequest,
      Tracer.stepEvent, h.thread,
      show (SuspendPolicy.none == SuspendPolicy.thread) = false from rfl]
  | suspend number hphase hattached hrequest hopen =>
    simp [step?, ← h.detached, hattached, h.isClosed_eq, hopen, ← h.request, hrequest,
      Tracer.stepEvent, h.thread]

theorem step?_of_detached (h : isDetached (m :: moves) = true) : step? id moves m = none := by
  cases m with
  | line number =>
    rcases Bool.or_eq_true_iff.mp h with hdetached | hlost
    · simp [step?, hdetached]
    · simp [step?, (Bool.and_eq_true_iff.mp hlost).1]
  | enable | resume | detach | close | stir | start | wake => rfl

/-- A call is refused exactly when the tracer is detached by then. -/
theorem refused_iff (h : Mirrored id moves s) (hact : s.act m = some outcome)
    (hcall : s.call? m = some call) :
    outcome.accepted = some false ↔ isDetached (m :: moves) = true := by
  rw [← (mirrored_step h hact).detached]
  cases transition_of_act hact with
  | enable | resume | detach | close | stir => cases hcall
  | refuse _ call hawaits hdetached => exact iff_of_true rfl hdetached
  | waitOn _ call hawaits hattached | release _ call hawaits hattached => simp [hattached]
  | fail number hphase hdetached => exact iff_of_true rfl hdetached
  | skip number hphase hattached => simp [hattached]
  | lose => exact iff_of_true rfl rfl
  | pass number hphase hattached | suspend number hphase hattached => simp [hattached]

/-! ## What a thread waits for -/

theorem Reported.cons {later : List (TracedThread × TracerMove)} {before : TracedThread}
    (h : Reported history number later before) (hm : ∀ other, m ≠ .line other) :
    Reported ((s, m) :: history) number ((s, m) :: later) before where
  eq := by
    obtain ⟨earlier, rfl⟩ := h.eq
    exact ⟨earlier, rfl⟩
  latest := List.forall_mem_cons.mpr ⟨hm, h.latest⟩

theorem Reported.self : Reported ((s, .line number) :: history) number [] s :=
  ⟨⟨history, rfl⟩, fun _ hmem => nomatch hmem⟩

/-- A thread that is parked waits in a call, and one that waits is released only by a resume that
came after it began to. -/
structure Held (history : List (TracedThread × TracerMove)) (s : TracedThread) : Prop where
  parked : s.tracer.parked = true → s.tracer.detached = false ∧ ∃ call, s.phase = .within call
  starting : s.phase = .created ∨ s.phase = .within .start → s.tracer.suspended = false →
    .resume ∈ history.map Prod.snd
  inLine : ∀ number, s.phase = .within (.line number) →
    ∃ later before, Reported history number later before ∧
      (s.tracer.suspended = false → .resume ∈ later.map Prod.snd)

/-- What a thread waits for is the same after a move that changes nothing about its wait. -/
theorem Held.cons {s' : TracedThread} (h : Held history s) (hm : ∀ other, m ≠ .line other)
    (hparked : s'.tracer.parked = true →
      s'.tracer.detached = false ∧ ∃ call, s'.phase = .within call)
    (hstart : s'.phase = .created ∨ s'.phase = .within .start →
      s.phase = .created ∨ s.phase = .within .start)
    (hline : ∀ number, s'.phase = .within (.line number) → s.phase = .within (.line number))
    (hsuspended : s'.tracer.suspended = false → s.tracer.suspended = false ∨ m = .resume) :
    Held ((s, m) :: history) s' where
  parked := hparked
  starting hphase hreleased := by
    rcases hsuspended hreleased with hbefore | rfl
    · exact List.mem_cons_of_mem m (h.starting (hstart hphase) hbefore)
    · exact List.mem_cons_self
  inLine number hphase := by
    obtain ⟨later, before, hreported, hresumed⟩ := h.inLine number (hline number hphase)
    refine ⟨(s, m) :: later, before, hreported.cons hm, fun hreleased => ?_⟩
    rcases hsuspended hreleased with hbefore | rfl
    · exact List.mem_cons_of_mem m (hresumed hbefore)
    · exact List.mem_cons_self

/-- A thread that is in no call waits for nothing. -/
theorem Held.of_returned {s' : TracedThread} (hparked : s'.tracer.parked = false)
    (hphase : s'.phase = .free ∨ s'.phase = .refused) : Held history s' where
  parked hset := by simp [hparked] at hset
  starting hwaits := by rcases hphase with hphase | hphase <;> simp [hphase] at hwaits
  inLine number hwaits := by rcases hphase with hphase | hphase <;> simp [hphase] at hwaits

theorem Held.parked_eq_false (h : Held history s)
    (hphase : ∀ call, s.phase ≠ .within call) : s.tracer.parked = false := by
  refine eq_false_of_ne_true fun hparked => ?_
  obtain ⟨-, call, hwithin⟩ := h.parked hparked
  exact hphase call hwithin

theorem Awaits.parked_eq_false (hawaits : s.Awaits m call) (h : Held history s) :
    s.tracer.parked = false := by
  cases hawaits with
  | first hphase => exact h.parked_eq_false (by simp [hphase])
  | again _ _ hwoken => exact hwoken

theorem held_step (h : Held history s) (hact : s.act m = some outcome) :
    Held ((s, m) :: history) outcome.thread := by
  cases transition_of_act hact with
  | enable policy => exact h.cons nofun h.parked id (fun _ => id) .inl
  | resume => exact h.cons nofun nofun id (fun _ => id) fun _ => .inr rfl
  | detach => exact h.cons nofun nofun id (fun _ => id) .inl
  | close => exact h.cons nofun h.parked id (fun _ => id) .inl
  | stir => exact h.cons nofun nofun id (fun _ => id) .inl
  | refuse _ call hawaits hdetached =>
    refine .of_returned (hawaits.parked_eq_false h) ?_
    cases call with
    | start => exact .inr rfl
    | line number => exact .inl rfl
  | waitOn _ call hawaits hattached hsuspended =>
    refine h.cons hawaits.ne_line (fun _ => ⟨hattached, call, rfl⟩) ?_ ?_ .inl
    · rintro (hcreated | hstart)
      · cases hcreated
      · cases hawaits with
        | first hphase => exact .inl hphase
        | again _ hphase => exact .inr (hphase.trans hstart)
    · intro number hline
      cases hawaits with
      | first => cases hline
      | again _ hphase => exact hphase.trans hline
  | release _ call hawaits => exact .of_returned (hawaits.parked_eq_false h) (.inl rfl)
  | fail number hphase | skip number hphase | lose number policy hphase | pass number hphase =>
    exact .of_returned (h.parked_eq_false (by simp [hphase])) (.inl rfl)
  | suspend number hphase hattached =>
    exact ⟨fun _ => ⟨hattached, _, rfl⟩, nofun, fun other hother => by
      obtain rfl : number = other := by simpa using hother
      exact ⟨[], s, .self, nofun⟩⟩

/-- A call is let go only for what it waits for. -/
theorem letGo_of_act (h : Held history s) (hact : s.act m = some outcome)
    (hcall : s.call? m = some call) (haccepted : outcome.accepted = some true) :
    LetGo id ((s, m) :: history) call := by
  have hsent := sentBy_of_act hact
  cases transition_of_act hact with
  | enable | resume | detach | close | stir => cases hcall
  | refuse | waitOn | fail | lose | suspend => simp at haccepted
  | release _ other hawaits hattached hresumed =>
    obtain rfl : other = call := Option.some.inj (hawaits.call?_eq.symm.trans hcall)
    cases hawaits with
    | first hphase => exact List.mem_cons_of_mem _ (h.starting (.inl hphase) hresumed)
    | again _ hphase =>
      cases other with
      | start => exact List.mem_cons_of_mem _ (h.starting (.inr hphase) hresumed)
      | line number =>
        obtain ⟨later, before, hreported, hsince⟩ := h.inLine number hphase
        exact ⟨_, before, hreported.cons nofun,
          fun _ _ => List.mem_cons_of_mem _ (hsince hresumed)⟩
  | skip number =>
    obtain rfl : .line number = call := Option.some.inj hcall
    exact ⟨[], s, .self, fun location hsuspends => by simp [hsent] at hsuspends⟩
  | pass number =>
    obtain rfl : .line number = call := Option.some.inj hcall
    exact ⟨[], s, .self, fun location hsuspends => by
      simp [hsent, Tracer.stepEvent] at hsuspends⟩

/-! ## Runs -/

theorem act_of_step {s' : TracedThread} (hs : s.step m = some s') :
    ∃ outcome, s.act m = some outcome ∧ outcome.thread = s' :=
  Option.map_eq_some_iff.mp hs

theorem mirrored_of_run (hrun : Execution step (new id) history s) :
    Mirrored id (history.map Prod.snd) s := by
  induction hrun with
  | nil => exact ⟨rfl, rfl, rfl, rfl⟩
  | cons _ hs ih =>
    obtain ⟨outcome, hact, rfl⟩ := act_of_step hs
    exact mirrored_step ih hact

theorem held_of_run (hrun : Execution step (new id) history s) : Held history s := by
  induction hrun with
  | nil => exact ⟨nofun, nofun, nofun⟩
  | cons _ hs ih =>
    obtain ⟨outcome, hact, rfl⟩ := act_of_step hs
    exact held_step ih hact

theorem sent_cons (e : TracedThread × TracerMove) :
    sent (e :: history) = sent history ++ (sentBy e).toList := by
  rw [sent, List.reverse_cons, List.filterMap_append]
  cases hsent : sentBy e <;> simp [sent, hsent]

/-- The steps that are to be sent are sent. -/
theorem sent_of_run (hrun : Execution step (new id) history s) :
    sent history = steps id (history.map Prod.snd) := by
  induction hrun with
  | nil => rfl
  | @cons history s s' m hrun hs ih =>
    obtain ⟨outcome, hact, rfl⟩ := act_of_step hs
    rw [sent_cons, ih, sentBy_of_act hact, event_of_act (mirrored_of_run hrun) hact]
    rfl

/-- Whatever is done to a tracer, and however its thread's calls come in between.  The steps that
are sent are, in order, the lines that were reported while a request was installed, the tracer not
detached and the receiver not closed, and each suspends the thread exactly when the request in force
says so.  A call that returns is refused exactly when the tracer is detached by then, and is let go
only for what it waits for (`LetGo`).  Once the tracer is detached nothing is sent any more, and a
call that the thread waits in can return, refused. -/
theorem calls_of_run (hrun : Execution step (new id) history s) :
    sent history = steps id (history.map Prod.snd) ∧
    (∀ m outcome call, s.act m = some outcome → s.call? m = some call →
      (outcome.accepted = some false ↔ isDetached (m :: history.map Prod.snd) = true) ∧
      (outcome.accepted = some true → LetGo id ((s, m) :: history) call)) ∧
    (∀ m outcome, s.act m = some outcome → isDetached (m :: history.map Prod.snd) = true →
      outcome.event = none) ∧
    (isDetached (history.map Prod.snd) = true → ∀ call, s.phase = .within call →
      ∃ outcome, s.act .wake = some outcome ∧ outcome.accepted = some false) := by
  have hmirrored := mirrored_of_run hrun
  have hheld := held_of_run hrun
  refine ⟨sent_of_run hrun, ?_, ?_, ?_⟩
  · intro m outcome call hact hcall
    exact ⟨refused_iff hmirrored hact hcall, letGo_of_act hheld hact hcall⟩
  · intro m outcome hact hdetached
    rw [event_of_act hmirrored hact, step?_of_detached hdetached]
  · intro hdetached call hphase
    have hwoken : s.tracer.parked = false := by
      refine eq_false_of_ne_true fun hparked => ?_
      simp [(hheld.parked hparked).1, ← hmirrored.detached] at hdetached
    have hawaits : s.Awaits .wake call := .again call hphase hwoken
    have hact := act_of_awaits hawaits
    exact ⟨_, hact, (refused_iff hmirrored hact hawaits.call?_eq).mpr hdetached⟩

/-- A thread that two resumes have let start is suspended by its second line, looks once in vain,
and is let go when it is resumed again, although its request has been replaced in between. -/
theorem calls_of_run_suspended :
    ∃ history s outcome, Execution step (new .main) history s ∧
      sent history = [.step .main ⟨workerMethod, 10⟩ false, .step .main ⟨workerMethod, 11⟩ true] ∧
      s.act .wake = some outcome ∧ outcome.accepted = some true ∧
      LetGo .main ((s, .wake) :: history) (.line 11) := by
  let moves : List TracerMove :=
    [.resume, .enable .none, .resume, .start, .line 10, .enable .thread, .line 11, .stir, .wake,
      .enable .none, .resume]
  obtain ⟨history, s, outcome, hrun, hmoves, hact, hcall, haccepted⟩ : ∃ history s outcome,
      Execution step (new .main) history s ∧ history.map Prod.snd = moves.reverse ∧
      s.act .wake = some outcome ∧ s.call? .wake = some (.line 11) ∧
      outcome.accepted = some true :=
    ⟨_, _, _, .of_replay .nil moves rfl, rfl, rfl, rfl, rfl⟩
  obtain ⟨hsent, hcalls, -, -⟩ := calls_of_run hrun
  refine ⟨history, s, outcome, hrun, ?_, hact, haccepted, (hcalls _ _ _ hact hcall).2 haccepted⟩
  rw [hsent, hmoves]
  rfl

end TracedThread

end InterruptStress
