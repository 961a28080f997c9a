import InterruptStress.Schedule.Exhaust
import InterruptStress.Target.Basic
import InterruptStress.Target.Pipe

/-!
# Targets on a clock

A target under one fixed schedule.  Its agent goes before its main thread, which goes before the
generator's; a sleep runs out when the clock says so.  The clock counts nanoseconds and is kept
by whoever runs the target.
-/

namespace InterruptStress

/-- A target with the times at which its sleeps run out. -/
structure ClockedTarget where
  target : Target
  workerDue : Nat
  generatorDue : Nat

namespace ClockedTarget

def launch (settings : WorkerSettings) : ClockedTarget := ⟨.launch settings, 0, 0⟩

/-- Lets a move happen.  A sleep that begins with it runs out after the time it was given, and a
pause takes some time in any case. -/
def move (c : ClockedTarget) (now : Nat) (m : TargetMove) : Option ClockedTarget :=
  (c.target.step m).map fun target =>
    let workerDue := match c.target.run.worker.phase with
      | .sleeping => now + (target.run.span .worker).totalNanos
      | _ => c.workerDue
    let generatorDue := match c.target.run.generator.map Generator.phase with
      | some .pausing => now + max 1 (target.run.span .generator).totalNanos
      | _ => c.generatorDue
    ⟨target, workerDue, generatorDue⟩

/-- The next move that takes no time. -/
def turn (c : ClockedTarget) (now : Nat) : Option ClockedTarget :=
  [.farewell, .applyCommand, .noticeExit, .main, .generator].findSome? (c.move now)

/-- When a thread's sleep runs out, if it sleeps. -/
def dueOf (c : ClockedTarget) : LocalThread → Option Nat
  | .worker =>
    match c.target.run.worker.phase with
    | .asleep => some c.workerDue
    | _ => none
  | .generator =>
    match c.target.run.generator.map Generator.phase with
    | some .asleep => some c.generatorDue
    | _ => none

/-- The times at which something is due. -/
def dues (c : ClockedTarget) : List Nat := [LocalThread.worker, .generator].filterMap c.dueOf

/-- Ends a sleep that has run out. -/
def expire (c : ClockedTarget) (now : Nat) : Option ClockedTarget :=
  [LocalThread.worker, .generator].findSome? fun thread =>
    if (c.dueOf thread).any (· ≤ now) then c.move now (.expire thread) else none

def mapLink (c : ClockedTarget) (f : Link → Link) : ClockedTarget :=
  { c with target := { c.target with link := f c.target.link } }

/-- Takes an event, once there is one. -/
def receive (c : ClockedTarget) : Received TargetEvent × ClockedTarget :=
  match c.target.link.events.receive with
  | (.item event, events) => (.item event, c.mapLink fun l => { l with events })
  | (_, _) => (if c.target.isSilent then .ended else .nothing, c)

end ClockedTarget

/-- A target that runs in a process of its own, as seen from inside: lines come in and go out. -/
structure ServedTarget where
  clocked : ClockedTarget
  /-- The code of the last death that was written. -/
  code : Int32
  /-- The process has ended. -/
  ended : Bool

namespace ServedTarget

def launch (settings : WorkerSettings) : ServedTarget :=
  ⟨.launch settings, TargetExit.forcedCode, false⟩

/-- No more input comes, or nobody takes it any more. -/
def closeInput (s : ServedTarget) : ServedTarget :=
  { s with clocked := s.clocked.mapLink fun l => { l with commands := l.commands.hangUp } }

/-- Reads a line of input; what is no command is passed over. -/
def read (s : ServedTarget) (line : List UInt8) : ServedTarget :=
  match Text.ofBytes? line with
  | none => s.closeInput
  | some _ =>
    match (Pipe.messageOfLine? line : Option ControlCommand) with
    | none => s
    | some command =>
      if s.clocked.target.link.commands.sending then
        match s.clocked.target.link.commands.send command with
        | .ok commands => { s with clocked := s.clocked.mapLink fun l => { l with commands } }
        | .error _ => s.closeInput
      else s

/-- Writes the next event, if there is one; the disconnect ends the process. -/
def write (s : ServedTarget) : Option (Option TargetEvent × ServedTarget) :=
  if s.ended then none
  else
    match s.clocked.receive with
    | (.item .disconnected, clocked) => some (none, { s with clocked, ended := true })
    | (.item event, clocked) =>
      let code := match event with
        | .death exit => exit.code
        | _ => s.code
      some (some event, { s with clocked, code })
    | (.nothing, _) => none
    | (.ended, clocked) => some (none, { s with clocked, ended := true })

end ServedTarget

/-- A target in a process of its own, as seen by the controller. -/
structure PipedTarget where
  served : ServedTarget
  /-- The process was made to end. -/
  killed : Bool
  /-- The disconnect has been told. -/
  told : Bool
  link : Link

namespace PipedTarget

def launch (settings : WorkerSettings) : PipedTarget := ⟨.launch settings, false, false, .new⟩

def isOver (p : PipedTarget) : Bool := p.killed || p.served.ended

/-- Passes a command on, and ends the process if the command says so or the controller has
gone. -/
def passCommand (p : PipedTarget) : Option PipedTarget :=
  if p.isOver then none
  else
    match p.link.commands.receive with
    | (.item command, commands) =>
      let killed := match command with
        | .exit _ => true
        | _ => false
      let bytes := Text.toBytes (Wire.encode command).toList
      some { p with served := p.served.read bytes, killed, link := { p.link with commands } }
    | (.nothing, _) => none
    | (.ended, _) => some { p with killed := true }

/-- Passes an event on, as it is read from the line it was written on. -/
def passEvent (p : PipedTarget) : Option PipedTarget :=
  if p.isOver then none
  else
    p.served.write.map fun (event, served) =>
      let line := event.bind fun e => Pipe.eventOfLine? (Text.toBytes (Wire.encode e).toList)
      let events := match line with
        | some event => p.link.events.offer event
        | none => p.link.events
      { p with served, link := { p.link with events } }

/-- Tells that the process has ended. -/
def tellEnd (p : PipedTarget) : Option PipedTarget :=
  if p.isOver && !p.told then
    some { p with
      told := true
      link := { events := (p.link.events.offer .disconnected).hangUp, commands := p.link.commands.close } }
  else none

/-- The next move that takes no time. -/
def turn (p : PipedTarget) (now : Nat) : Option PipedTarget :=
  p.tellEnd <|> p.passEvent <|> p.passCommand <|>
    (if p.isOver then none
     else (p.served.clocked.turn now).map fun clocked => { p with served := { p.served with clocked } })

end PipedTarget

end InterruptStress
