import InterruptStress.Schedule.Endpoint
import InterruptStress.Supervision.Controller

/-!
# Whole runs

A controller and its endpoint under one fixed schedule.  At each moment the controller does all
it can do first, so that its watchdog begins to watch, and looks, when no event is left to be
received; then its generators go on; and time passes only when nobody can do anything.  A
script is played without regard to the pauses of generators: those end when the controller
waits for nothing else.
-/

namespace InterruptStress

structure SupervisedRun where
  controller : Controller
  endpoint : Endpoint
  /-- How the journal writes an event. -/
  writing : Writing
  now : Nat
  /-- When the grace of a target that was told to exit ends. -/
  graceEnd : Nat
  /-- When the pauses of the generators end, in the order of the controller's sessions. -/
  pauseEnds : List Nat

namespace SupervisedRun

def start (settings : ControllerSettings) (endpoint : Endpoint) (log : EventLog)
    (writing : Writing) : SupervisedRun :=
  ⟨(Controller.start settings).withLog log, endpoint, writing, 0, 0, []⟩

/-- Lets a move of the controller happen. -/
def move (r : SupervisedRun) (m : ControllerMove) : Option SupervisedRun :=
  (r.controller.step r.endpoint.link m).map fun (controller, link) =>
    let begun := controller.sessions.length - r.controller.sessions.length
    { r with
      controller
      endpoint := r.endpoint.mapLink fun _ => link
      pauseEnds := List.replicate begun 0 ++ r.pauseEnds }

def moveEndpoint (r : SupervisedRun) (moved : Option Endpoint) : Option SupervisedRun :=
  moved.map fun endpoint => { r with endpoint }

/-- The controller does what it has to do next; the grace begins with its order to exit. -/
def act (r : SupervisedRun) : Option SupervisedRun :=
  match r.controller.phase with
  | .forcing =>
    ({ r with graceEnd := r.now + r.controller.settings.exitGrace.totalNanos }).move .act
  | _ => r.move .act

/-- When the grace ends, while it lasts. -/
def graceDue (r : SupervisedRun) : Option Nat :=
  match r.controller.phase with
  | .draining => some r.graceEnd
  | _ => none

/-- When the watchdog looks next. -/
def lookDue (r : SupervisedRun) : Option Nat :=
  match r.controller.watch with
  | .watching w => some (w.since + w.interval.totalNanos)
  | _ => none

/-- When the pause of a session's generator ends, if it pauses. -/
def wakeDue (r : SupervisedRun) (session : Nat) : Option Nat :=
  let timed := r.endpoint.isLive || r.controller.phase == .joining
  match (r.controller.sessions[session]?.bind Session.generator).map Generator.phase with
  | some .asleep => if timed then r.pauseEnds[session]? else none
  | _ => none

def sessions (r : SupervisedRun) : List Nat := List.range r.controller.sessions.length

def isDue (r : SupervisedRun) (due : Option Nat) : Bool := due.any (· ≤ r.now)

/-- A generator goes on.  A pause that begins with it takes some time in any case. -/
def advanceGenerator (r : SupervisedRun) (session : Nat) : Option SupervisedRun :=
  let due := r.now + max 1 r.controller.settings.remotePause.totalNanos
  (r.move (.generator session)).map fun r => { r with pauseEnds := r.pauseEnds.set session due }

/-- The next move at this moment. -/
def moveNow (r : SupervisedRun) : Option SupervisedRun :=
  r.move (.receive r.writing) <|>
  r.act <|>
  (if r.isDue r.graceDue then r.move .giveUp else none) <|>
  r.moveEndpoint (r.endpoint.turn r.now) <|>
  r.move .takeVerdict <|>
  r.move (.beginWatch r.now) <|>
  (if r.isDue r.lookDue then r.move (.look r.now) else none) <|>
  r.sessions.findSome? r.advanceGenerator <|>
  r.moveEndpoint (r.endpoint.expire r.now) <|>
  r.sessions.findSome? fun k => if r.isDue (r.wakeDue k) then r.move (.wake k) else none

/-- The times at which something is due. -/
def dues (r : SupervisedRun) : List Nat :=
  r.endpoint.dues ++ r.graceDue.toList ++ r.lookDue.toList ++ r.sessions.filterMap r.wakeDue

/-- The next move at this moment, or the passage of time to the next that something is due. -/
def turn (r : SupervisedRun) : Option SupervisedRun :=
  if r.controller.phase = .finished then none
  else r.moveNow <|> r.dues.min?.map fun due => { r with now := max r.now due }

/-- Runs until the controller has finished. -/
def complete (r : SupervisedRun) : SupervisedRun := exhaust turn patience r

end SupervisedRun

end InterruptStress
