import InterruptStress.Protocol.Channel
import InterruptStress.Target.Tracer
import InterruptStress.Worker.LocalRun

/-!
# Targets

A target is a worker under a controller's supervision.  Its main thread waits for the first
resume, runs the worker with the tracer as its probe, and leaves its exit behind; its agent
applies commands to the tracer and to the worker's token until a command, the controller's going
away or the main thread's exit ends it.  The agent then says so: the command channel is closed
before the disconnect is announced, so that whoever still signals finds it gone.
-/

namespace InterruptStress

/-- Where the main thread is. -/
inductive MainPhase where
  /-- About to ask whether it may start. -/
  | entering
  /-- Waits for the first resume. -/
  | parkedAtStart
  /-- Runs the worker. -/
  | working
  /-- Waits in a line that it reported. -/
  | parkedAtLine
  | ended (exit : TargetExit)
deriving DecidableEq

/-- What an ending agent still has to do. -/
inductive Farewell where
  | announce (event : TargetEvent)
  | closeCommands
deriving DecidableEq

inductive AgentPhase where
  | serving
  /-- Was told to exit and has detached the tracer; the main thread's sleep is still to be
  interrupted. -/
  | exiting (code : Int32)
  | ending (rest : List Farewell)
deriving DecidableEq

/-- What can happen in a target. -/
inductive TargetMove where
  /-- The main thread does what it has to do next. -/
  | main
  /-- The generator's thread does what it has to do next. -/
  | generator
  /-- A thread finds that its sleep's time has passed. -/
  | expire (thread : LocalThread)
  /-- A thread's wait for an interrupt or an acknowledgement ends for no reason. -/
  | stir (thread : LocalThread)
  /-- The main thread's wait for a resume ends for no reason. -/
  | stirTracer
  /-- The agent applies a command, or finds that the controller has gone. -/
  | applyCommand
  /-- The agent finds that the main thread has ended. -/
  | noticeExit
  /-- The ending agent does what it has to do next. -/
  | farewell
deriving DecidableEq

structure Target where
  main : MainPhase
  run : LocalRun
  tracer : Tracer
  agent : AgentPhase
  link : Link

namespace Target

/-- A target that has just been launched: its start is announced, its main thread not yet
released. -/
def launch (settings : WorkerSettings) : Target where
  main := .entering
  run := .start settings
  tracer := .new .main
  agent := .serving
  link := { Link.new with events := Channel.new.offer (.started .main) }

/-- The exit of a target whose worker ran to its end. -/
def exitFor : Except WorkerError WorkerReport → TargetExit
  | .ok report => .passed report
  | .error e => .failed e.message

/-- The exit of a target that was detached before its worker began. -/
def detachedBeforeStart : TargetExit := .forced TargetExit.forcedCode "detached before start"

/-- The main thread asks whether it may start. -/
def askStart (t : Target) : Target :=
  match t.tracer.look with
  | (none, tracer) => { t with tracer, main := .parkedAtStart }
  | (some true, tracer) => { t with tracer, main := .working }
  | (some false, tracer) => { t with tracer, main := .ended detachedBeforeStart }

/-- Lets a move happen to the worker beside its generator. -/
def onRun (t : Target) (move : LocalMove) : Option Target :=
  (t.run.step move).map fun run => { t with run }

/-- The worker learns whether its line was taken. -/
def endLine (t : Target) (accepted : Bool) : Option Target :=
  { t with main := .working }.onRun (.report accepted)

/-- The worker reports a line. -/
def reportLine (t : Target) (line : WorkerLine) : Option Target :=
  let outcome := t.tracer.line t.link.events.receiving line.number
  let events := match outcome.event with
    | some event => t.link.events.offer event
    | none => t.link.events
  let t := { t with tracer := outcome.tracer, link := { t.link with events } }
  match outcome.accepted with
  | none => some { t with main := .parkedAtLine }
  | some accepted => t.endLine accepted

/-- The main thread does what it has to do next. -/
def moveMain (t : Target) : Option Target :=
  match t.main with
  | .entering => some t.askStart
  | .parkedAtStart => if t.tracer.parked then none else some t.askStart
  | .parkedAtLine =>
    if t.tracer.parked then none
    else
      match t.tracer.look with
      | (none, tracer) => some { t with tracer }
      | (some accepted, tracer) => { t with tracer }.endLine accepted
  | .working =>
    match t.run.worker.phase with
    | .reporting line => t.reportLine line
    | .finished result => some { t with main := .ended (exitFor result) }
    | _ => t.onRun (.advance .worker)
  | .ended _ => none

/-- The farewells of an agent. -/
def farewells (events : List TargetEvent) : AgentPhase :=
  .ending (events.map .announce ++ [.closeCommands, .announce .disconnected])

/-- The exit of a target that was told to exit. -/
def exitedOnCommand (code : Int32) : TargetExit := .forced code "terminated by controller"

/-- The exit of a target whose controller has gone. -/
def abandoned : TargetExit := .forced TargetExit.forcedCode "controller detached"

/-- Applies a command. -/
def apply (t : Target) : ControlCommand → Target
  | .createStepRequest thread suspend =>
    if thread = t.tracer.thread then { t with tracer := t.tracer.enable suspend } else t
  | .resume => { t with tracer := t.tracer.resume }
  | .interrupt thread =>
    if thread = t.tracer.thread then { t with run := { t.run with token := t.run.token.interrupt } }
    else t
  | .exit code => { t with tracer := t.tracer.detach, agent := .exiting code }

/-- The agent takes a command, or finds that nobody is left to send one. -/
def applyCommand (t : Target) : Option Target :=
  match t.agent with
  | .serving =>
    match t.link.commands.receive with
    | (.item command, commands) => some ({ t with link := { t.link with commands } }.apply command)
    | (.nothing, _) => none
    | (.ended, _) =>
      some { t with tracer := t.tracer.detach, agent := farewells [.death abandoned] }
  | _ => none

/-- The agent finds that the main thread has ended. -/
def noticeExit (t : Target) : Option Target :=
  match t.agent, t.main with
  | .serving, .ended exit =>
    some { t with agent := farewells [.threadDeath t.tracer.thread, .death exit] }
  | _, _ => none

/-- The ending agent does what it has to do next. -/
def farewell (t : Target) : Option Target :=
  match t.agent with
  | .exiting code =>
    some { t with
      run := { t.run with token := t.run.token.interrupt }
      agent := farewells [.death (exitedOnCommand code)] }
  | .ending (.announce event :: rest) =>
    some { t with
      agent := .ending rest
      link := { t.link with events := t.link.events.offer event } }
  | .ending (.closeCommands :: rest) =>
    some { t with agent := .ending rest, link := { t.link with commands := t.link.commands.close } }
  | _ => none

/-- What a move makes of a target, if it can happen. -/
def step (t : Target) : TargetMove → Option Target
  | .main => t.moveMain
  | .generator => t.onRun (.advance .generator)
  | .expire thread => t.onRun (.expire thread)
  | .stir thread => t.onRun (.stir thread)
  | .stirTracer => some { t with tracer := t.tracer.stir }
  | .applyCommand => t.applyCommand
  | .noticeExit => t.noticeExit
  | .farewell => t.farewell

/-- Whether nobody is left who could send an event: the agent and the main thread are done. -/
def isSilent (t : Target) : Bool :=
  match t.agent, t.main with
  | .ending [], .ended _ => true
  | _, _ => false

end Target

end InterruptStress
