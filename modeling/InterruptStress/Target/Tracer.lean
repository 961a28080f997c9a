import InterruptStress.Protocol.Message

/-!
# The step tracer

The tracer is the probe that the worker of a target reports its lines to.  It keeps the
target's main thread parked until the first resume, so that a step request can be installed
before the first line; after that, each line is reported as a step, and parks the thread if the
request says so.
-/

namespace InterruptStress

/-- The method that a worker's lines are reported under. -/
def workerMethod : String := "Worker::iterate"

structure Tracer where
  thread : ThreadId
  request : Option SuspendPolicy
  suspended : Bool
  detached : Bool
  /-- The traced thread waits and has not been notified. -/
  parked : Bool
deriving DecidableEq

namespace Tracer

/-- A tracer keeps its thread parked from the start. -/
def new (thread : ThreadId) : Tracer := ⟨thread, none, true, false, false⟩

/-- Installs or replaces the step request. -/
def enable (t : Tracer) (policy : SuspendPolicy) : Tracer := { t with request := some policy }

/-- Releases the thread if it is parked. -/
def resume (t : Tracer) : Tracer := { t with suspended := false, parked := false }

/-- Fails the line or the start that the thread waits in, and every later one. -/
def detach (t : Tracer) : Tracer := { t with detached := true, parked := false }

/-- Wakes the thread for no reason. -/
def stir (t : Tracer) : Tracer := { t with parked := false }

/-- The thread looks whether it may go on: it may not once the tracer is detached, and it waits
while it is suspended. -/
def look (t : Tracer) : Option Bool × Tracer :=
  if t.detached then (some false, t)
  else if t.suspended then (none, { t with parked := true })
  else (some true, t)

/-- The step event of a line. -/
def stepEvent (t : Tracer) (line : UInt32) (suspended : Bool) : TargetEvent :=
  .step t.thread ⟨workerMethod, line⟩ suspended

/-- What comes of a line that the thread reports. -/
structure LineOutcome where
  tracer : Tracer
  /-- The event that was sent. -/
  event : Option TargetEvent
  /-- Whether the line was taken; nothing while the thread is parked in it. -/
  accepted : Option Bool

/-- The thread reports a line.  If nobody can receive the event any more, the tracer detaches. -/
def line (t : Tracer) (receiving : Bool) (number : UInt32) : LineOutcome :=
  if t.detached then ⟨t, none, some false⟩
  else
    match t.request with
    | none => ⟨t, none, some true⟩
    | some policy =>
      let suspended := policy == .thread
      let event := t.stepEvent number suspended
      let t := { t with suspended }
      if receiving then
        let (accepted, t) := t.look
        ⟨t, some event, accepted⟩
      else ⟨{ t with detached := true }, none, some false⟩

end Tracer

end InterruptStress
