import InterruptStress.Failure
import InterruptStress.Protocol.Message

/-!
# Channels and thread references

A channel is a queue between its senders and one receiver.  Sending fails once the receiver has
closed its end; receiving ends once the queue is empty and every sender has gone.  A thread
reference is what a controller holds of a thread inside its target: the thread's identity,
whether it is still alive as far as is known, and the channel to interrupt it through.
-/

namespace InterruptStress

structure Channel (α : Type) where
  queue : List α
  /-- The receiver has not closed its end. -/
  receiving : Bool
  /-- Some sender is left. -/
  sending : Bool

/-- What a receiver finds. -/
inductive Received (α : Type) where
  | item (value : α)
  /-- Nothing yet. -/
  | nothing
  /-- Nothing any more. -/
  | ended

namespace Channel
variable {α : Type}

def new : Channel α := ⟨[], true, true⟩

/-- Queues a value, unless nobody will receive it. -/
def send (c : Channel α) (value : α) : Except SignalError (Channel α) :=
  if c.receiving then .ok { c with queue := c.queue ++ [value] } else .error .disconnected

/-- Queues a value, or drops it if nobody will receive it. -/
def offer (c : Channel α) (value : α) : Channel α :=
  match c.send value with
  | .ok c => c
  | .error _ => c

/-- Takes the first value. -/
def receive (c : Channel α) : Received α × Channel α :=
  match c.queue with
  | value :: queue => (.item value, { c with queue })
  | [] => (if c.sending then .nothing else .ended, c)

/-- The receiver closes its end; what is queued is lost. -/
def close (c : Channel α) : Channel α := { c with receiving := false, queue := [] }

/-- The last sender goes. -/
def hangUp (c : Channel α) : Channel α := { c with sending := false }

end Channel

/-- Both directions between a controller and its target. -/
structure Link where
  events : Channel TargetEvent
  commands : Channel ControlCommand

def Link.new : Link := ⟨.new, .new⟩

/-- A controller's reference to a thread of its target. -/
structure ThreadRef where
  id : ThreadId
  alive : Bool
deriving DecidableEq

namespace ThreadRef

def new (id : ThreadId) : ThreadRef := ⟨id, true⟩

def markDead (r : ThreadRef) : ThreadRef := { r with alive := false }

/-- Sends an interrupt for the thread, unless it is known to be dead. -/
def signal (r : ThreadRef) (commands : Channel ControlCommand) :
    Except SignalError (Channel ControlCommand) :=
  if r.alive then commands.send (.interrupt r.id) else .error (.illegalThreadState r.id)

end ThreadRef

end InterruptStress
