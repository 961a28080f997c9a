import InterruptStress.Interruption.Generator
import InterruptStress.Protocol.Channel
import InterruptStress.Settings
import InterruptStress.Supervision.EventLog
import InterruptStress.Supervision.Watchdog

/-!
# The controller

The controller receives a target's events.  It asks for steps when the target has started,
counts them, resumes what they suspend, and starts its watchdog with the first of them.  In
remote mode it runs a generator of its own, which interrupts the target's main thread through
the command channel.  Once the watchdog finds that the target hangs, it tells the target to exit
and gives it a grace period to say its last words.  It hands the events that it receives to its
journal, until one cannot be written.
-/

namespace InterruptStress

/-- A target's start: the reference to its main thread, and in remote mode the generator that
signals through this reference, once it has been started. -/
structure Session where
  ref : ThreadRef
  generator : Option Generator

/-- What a controller does in answer to an event, one thing after the other. -/
inductive ControllerAct where
  | send (command : ControlCommand)
  | startGenerator
deriving DecidableEq

inductive ControllerPhase where
  /-- Waits for an event or for a verdict. -/
  | listening
  | acting (acts : List ControllerAct)
  /-- About to tell a hung target to exit. -/
  | forcing
  /-- Collects the last words of a target that was told to exit. -/
  | draining
  /-- Gives up its reference to the target's main thread. -/
  | ending
  /-- Waits for its generator. -/
  | joining
  | finished
deriving DecidableEq

/-- The watchdog as the controller knows it. -/
inductive WatchPhase where
  | off
  /-- Started, but it has not looked at the count yet. -/
  | spawned
  | watching (watchdog : Watchdog)
  /-- A verdict that the controller has not taken yet. -/
  | hung (report : HangReport)
  | over

structure Controller where
  settings : ControllerSettings
  phase : ControllerPhase
  /-- The count of steps, of which its `StepCounter` holds 64 bits. -/
  steps : Nat
  /-- The target's starts, the latest first; there is one unless a target starts twice. -/
  sessions : List Session
  watch : WatchPhase
  hang : Option HangReport
  exit : Option TargetExit
  log : EventLog

/-- What can happen to a controller. -/
inductive ControllerMove where
  /-- It takes an event, and its journal writes it; or it finds that none follows. -/
  | receive (writing : Writing)
  /-- It does what it has to do next. -/
  | act
  /-- Its watchdog takes its first look. -/
  | beginWatch (now : Nat)
  /-- Its watchdog looks again. -/
  | look (now : Nat)
  /-- It takes the watchdog's verdict. -/
  | takeVerdict
  /-- The grace period is over. -/
  | giveUp
  /-- The generator of a session does what it has to do next. -/
  | generator (session : Nat)
  /-- The pause of a session's generator is over. -/
  | wake (session : Nat)

namespace Controller

/-- A controller that has not received anything yet and has no journal. -/
def start (settings : ControllerSettings) : Controller where
  settings
  phase := .listening
  steps := 0
  sessions := []
  watch := .off
  hang := none
  exit := none
  log := .off

/-- A controller with a journal. -/
def withLog (c : Controller) (log : EventLog) : Controller := { c with log }

/-- Acts one after the other, and listens again when there is nothing left to do. -/
def acting : List ControllerAct → ControllerPhase
  | [] => .listening
  | acts => .acting acts

/-- Replaces the latest session. -/
def modifyLatest (c : Controller) (f : Session → Session) : Controller :=
  { c with sessions := c.sessions.modifyHead f }

/-- Marks the target's main thread as dead. -/
def markDead (c : Controller) : Controller :=
  c.modifyLatest fun s => { s with ref := s.ref.markDead }

/-- The acts that answer a start. -/
def greeting (c : Controller) (thread : ThreadId) : List ControllerAct :=
  let request := .send (.createStepRequest thread c.settings.suspend)
  if c.settings.mode = .remote then [request, .startGenerator, .send .resume]
  else [request, .send .resume]

/-- Applies an event. -/
def handle (c : Controller) : TargetEvent → Controller
  | .started thread =>
    { c with
      sessions := ⟨.new thread, none⟩ :: c.sessions
      phase := acting (c.greeting thread) }
  | .step _ _ suspended =>
    { c with
      steps := c.steps + 1
      watch := match c.watch with
        | .off => .spawned
        | watch => watch
      phase := acting (if suspended then [.send .resume] else []) }
  | .threadDeath thread =>
    if c.sessions.head?.any (·.ref.id = thread) then c.markDead else c
  | .death exit => { c with exit := some exit }
  | .disconnected => { c with phase := .ending }

/-- Applies an event that comes after the target was told to exit. -/
def drain (c : Controller) : TargetEvent → Controller
  | .death exit => { c with exit := some exit }
  | .disconnected => { c with phase := .ending }
  | _ => c

/-- Takes an event, or finds that none follows. -/
def receive (c : Controller) (link : Link) (writing : Writing) : Option (Controller × Link) :=
  let respond? := match c.phase with
    | .listening => some handle
    | .draining => some drain
    | _ => none
  match respond?, link.events.receive with
  | some respond, (.item event, events) =>
    some (respond { c with log := c.log.record event writing } event, { link with events })
  | some _, (.ended, _) => some ({ c with phase := .ending }, link)
  | _, _ => none

/-- Whether a generator still holds a sender of commands. -/
def hasSenders (c : Controller) : Bool :=
  c.sessions.any fun s => s.generator.any fun g => g.result?.isNone

/-- Does what comes next. -/
def act (c : Controller) (link : Link) : Option (Controller × Link) :=
  match c.phase with
  | .acting (.send command :: rest) =>
    some ({ c with phase := acting rest }, { link with commands := link.commands.offer command })
  | .acting (.startGenerator :: rest) =>
    let c := c.modifyLatest fun s => { s with generator := some (.start .remote) }
    some ({ c with phase := acting rest }, link)
  | .forcing =>
    let commands := link.commands.offer (.exit TargetExit.forcedCode)
    some ({ c with phase := .draining }, { link with commands })
  | .ending =>
    let commands := if c.sessions.isEmpty then link.commands.hangUp else link.commands
    some ({ c.markDead with phase := .joining }, { link with commands })
  | .joining =>
    if (c.sessions.head?.bind Session.generator).any (·.result?.isNone) then none
    else
      let commands := if c.hasSenders then link.commands else link.commands.hangUp
      some ({ c with phase := .finished, watch := .over }, ⟨link.events.close, commands⟩)
  | _ => none

/-- The watchdog takes its first look. -/
def beginWatch (c : Controller) (now : Nat) : Option Controller :=
  match c.watch with
  | .spawned => some { c with watch := .watching (.start c.settings.interval c.steps now) }
  | _ => none

/-- The watchdog looks again. -/
def look (c : Controller) (now : Nat) : Option Controller :=
  match c.watch with
  | .watching w =>
    match w.look c.steps now with
    | .error report => some { c with watch := .hung report }
    | .ok w => some { c with watch := .watching w }
  | _ => none

/-- Takes the verdict of the watchdog. -/
def takeVerdict (c : Controller) : Option Controller :=
  match c.phase, c.watch with
  | .listening, .hung report =>
    some { c with phase := .forcing, watch := .over, hang := some report }
  | _, _ => none

/-- Stops waiting for the last words. -/
def giveUp (c : Controller) : Option Controller :=
  match c.phase with
  | .draining => some { c with phase := .ending }
  | _ => none

/-- Lets an event happen to a session's generator. -/
def onGenerator (c : Controller) (session : Nat) (event : GeneratorEvent) : Option Controller := do
  let s ← c.sessions[session]?
  let g ← s.generator.bind (·.step event)
  some { c with sessions := c.sessions.set session { s with generator := some g } }

/-- A session's generator does what it has to do next.  Nobody interrupts its pauses. -/
def moveGenerator (c : Controller) (link : Link) (session : Nat) : Option (Controller × Link) := do
  let s ← c.sessions[session]?
  let g ← s.generator
  match g.phase with
  | .sending =>
    match s.ref.signal link.commands with
    | .ok commands => (c.onGenerator session (.signalled (.ok ()))).map (·, { link with commands })
    | .error e => (c.onGenerator session (.signalled (.error e))).map (·, link)
  | .pausing => (c.onGenerator session .dozed).map (·, link)
  | _ => none

/-- What a move makes of a controller and its link, if it can happen. -/
def step (c : Controller) (link : Link) : ControllerMove → Option (Controller × Link)
  | .receive writing => c.receive link writing
  | .act => c.act link
  | .beginWatch now => (c.beginWatch now).map (·, link)
  | .look now => (c.look now).map (·, link)
  | .takeVerdict => c.takeVerdict.map (·, link)
  | .giveUp => c.giveUp.map (·, link)
  | .generator session => c.moveGenerator link session
  | .wake session => (c.onGenerator session (.slept (.ok .completed))).map (·, link)

/-- What became of the generator of the latest start. -/
def remoteResult (c : Controller) : Option (Except String GeneratorReport) :=
  (c.sessions.head?.bind Session.generator).bind fun g =>
    g.result?.map fun
      | .ok sent => .ok (Generator.report g.strategy sent)
      | .error e => .error e.message

/-- The report of a run. -/
def report (c : Controller) (runId : String) : RunReport where
  runId
  mode := c.settings.mode
  steps := UInt64.ofNat c.steps
  hang := c.hang
  exit := c.exit
  remote := c.remoteResult

end Controller

end InterruptStress
