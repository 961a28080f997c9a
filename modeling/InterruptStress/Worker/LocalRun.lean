import InterruptStress.Interruption.Generator
import InterruptStress.Worker.Loop

/-!
# A worker beside its generator

Two threads share the worker's token, the generator's token and the rendezvous.  A move is what
one thread does under one lock; which thread moves, when a sleep's time has passed, and when a
wait ends for no reason is up to the schedule.  A move that cannot happen gives nothing: a lock
is held, a wait has not been notified, or the thread has finished.
-/

namespace InterruptStress

/-- The two threads. -/
inductive LocalThread where
  | worker
  | generator
deriving DecidableEq

/-- What can happen to a worker beside its generator. -/
inductive LocalMove where
  /-- The worker's line is taken, or its probe has been detached. -/
  | report (accepted : Bool)
  /-- A thread does what it has to do next. -/
  | advance (thread : LocalThread)
  /-- A thread finds that its sleep's time has passed. -/
  | expire (thread : LocalThread)
  /-- A thread's wait ends for no reason. -/
  | stir (thread : LocalThread)
  /-- Somebody else interrupts the worker. -/
  | interrupt
  /-- The worker's token panics as its generator interrupts it. -/
  | crash
  /-- The generator's thread cannot be started. -/
  | failStart (text : String)
  /-- A token of another make ends the worker's sleep as it likes. -/
  | endSleep (result : Except WaitError SleepOutcome)
  /-- A token of another make tells the worker its status as it likes. -/
  | tellStatus (pending : Bool)

structure LocalRun where
  worker : Worker
  /-- Missing until it is started, and in remote mode. -/
  generator : Option Generator
  /-- The worker's token. -/
  token : Token
  /-- The generator's token. -/
  stop : Token
  rendezvous : Rendezvous

namespace LocalRun

/-- A worker that has not done anything yet. -/
def start (settings : WorkerSettings) : LocalRun := ⟨.start settings, none, .new, .new, .new⟩

/-- A token has one sleeper, its owner. -/
def owner : Nat := 0

/-- The settings' mode. -/
def mode (s : LocalRun) : Mode := s.worker.settings.mode

/-- How long a thread asks to sleep. -/
def span (s : LocalRun) : LocalThread → Duration
  | .worker => s.worker.settings.sleep
  | .generator => s.worker.settings.pause

/-- Lets an event happen to the worker. -/
def onWorker (s : LocalRun) (event : WorkerEvent) : Option LocalRun :=
  (s.worker.step event).map fun w => { s with worker := w }

/-- Lets an event happen to the generator. -/
def onGenerator (s : LocalRun) (event : GeneratorEvent) : Option LocalRun :=
  (s.generator.bind (·.step event)).map fun g => { s with generator := some g }

/-- The worker looks at its token to begin, to continue or to end its sleep. -/
def workerLook (s : LocalRun) (expired : Bool) : Option LocalRun :=
  let (outcome, token) := s.token.look owner expired
  let s := { s with token }
  match outcome, s.worker.phase with
  | some outcome, _ => s.onWorker (.slept (.ok outcome))
  | none, .sleeping => s.onWorker .dozed
  | none, _ => some s

/-- The generator looks at its own token to begin, to continue or to end its pause. -/
def generatorLook (s : LocalRun) (g : Generator) (expired : Bool) : Option LocalRun :=
  let (outcome, stop) := s.stop.look owner expired
  let s := { s with stop }
  match outcome, g.phase with
  | some outcome, _ => s.onGenerator (.slept (.ok outcome))
  | none, .pausing => s.onGenerator .dozed
  | none, _ => some s

/-- Interrupts the generator: in precise mode under the rendezvous, so that it cannot slip in
between a handing over and the generator's next wait. -/
def stopGenerator (s : LocalRun) : Option (Except WaitError LocalRun) :=
  match s.mode with
  | .precise =>
    s.rendezvous.notify.map fun result =>
      result.map fun rendezvous => { s with rendezvous, stop := s.stop.interrupt }
  | _ => some (.ok { s with stop := s.stop.interrupt })

/-- The worker does what it has to do next; its lines are taken by `LocalMove.report`. -/
def advanceWorker (s : LocalRun) : Option LocalRun :=
  match s.worker.phase with
  | .starting => { s with generator := some (.start s.mode) }.onWorker (.started (.ok ()))
  | .reporting _ => none
  | .sleeping => s.workerLook false
  | .asleep => if s.token.isWaiting owner then none else s.workerLook false
  | .reading => s.onWorker (.read s.token.pending)
  | .acknowledging =>
    match s.rendezvous.acknowledge with
    | none => none
    | some (.error e) => s.onWorker (.acknowledged (.error e))
    | some (.ok rendezvous) => { s with rendezvous }.onWorker (.acknowledged (.ok ()))
  | .stopping _ =>
    match s.stopGenerator with
    | none => none
    | some (.error e) => s.onWorker (.stopped (.error e))
    | some (.ok s) => s.onWorker (.stopped (.ok ()))
  | .joining _ =>
    match s.generator.bind (·.result?) with
    | none => none
    | some result => s.onWorker (.joined result)
  | .finished _ => none

/-- The generator takes the rendezvous, if it can. -/
def enterRendezvous (s : LocalRun) : Option LocalRun :=
  match s.rendezvous.enter with
  | none => none
  | some (.error e) => s.onGenerator (.entered (.error e))
  | some (.ok rendezvous) => { s with rendezvous }.onGenerator (.entered (.ok ()))

/-- The generator looks for the acknowledgement and for its stop.  A stop ends it: it clears
its own flag and gives the rendezvous back. -/
def lookForAck (s : LocalRun) : Option LocalRun :=
  match s.rendezvous.look s.stop.pending with
  | (some .interrupted, rendezvous) =>
    { s with stop := s.stop.clear, rendezvous := rendezvous.leave }.onGenerator
      (.looked (some .interrupted))
  | (wakeup, rendezvous) => { s with rendezvous }.onGenerator (.looked wakeup)

/-- The generator does what it has to do next. -/
def advanceGenerator (s : LocalRun) : Option LocalRun :=
  match s.generator with
  | none => none
  | some g =>
    match g.phase with
    | .entering => s.enterRendezvous
    | .parked => if s.rendezvous.parked then none else s.enterRendezvous
    | .sending => { s with token := s.token.interrupt }.onGenerator .sent
    | .looking => s.lookForAck
    | .pausing => s.generatorLook g false
    | .asleep => if s.stop.isWaiting owner then none else s.generatorLook g false
    | .finished _ => none

/-- The worker's sleep has run out of time. -/
def expireWorker (s : LocalRun) : Option LocalRun :=
  match s.worker.phase with
  | .sleeping | .asleep => s.workerLook true
  | _ => none

/-- The generator's pause has run out of time. -/
def expireGenerator (s : LocalRun) : Option LocalRun :=
  match s.generator with
  | none => none
  | some g =>
    match g.phase with
    | .pausing | .asleep => s.generatorLook g true
    | _ => none

/-- A waiting thread is woken for no reason. -/
def stirThread (s : LocalRun) : LocalThread → Option LocalRun
  | .worker =>
    match s.worker.phase with
    | .asleep => some { s with token := s.token.stir owner }
    | _ => none
  | .generator =>
    match s.generator.map Generator.phase with
    | some .asleep => some { s with stop := s.stop.stir owner }
    | some .parked => some { s with rendezvous := s.rendezvous.stir }
    | _ => none

/-- The worker's token panics after it took the interrupt, and whoever holds the rendezvous
leaves it poisoned. -/
def crashGenerator (s : LocalRun) : Option LocalRun :=
  { s with
    token := s.token.interrupt
    rendezvous := if s.mode = Mode.precise then s.rendezvous.crash else s.rendezvous }.onGenerator .crashed

/-- What a move makes of a worker beside its generator, if it can happen. -/
def step (s : LocalRun) : LocalMove → Option LocalRun
  | .report accepted => s.onWorker (.reported accepted)
  | .advance .worker => s.advanceWorker
  | .advance .generator => s.advanceGenerator
  | .expire .worker => s.expireWorker
  | .expire .generator => s.expireGenerator
  | .stir thread => s.stirThread thread
  | .interrupt => some { s with token := s.token.interrupt }
  | .crash => s.crashGenerator
  | .failStart text => s.onWorker (.started (.error text))
  | .endSleep result => s.onWorker (.slept result)
  | .tellStatus pending => s.onWorker (.read pending)

end LocalRun

end InterruptStress
