import InterruptStress.Protocol.Basic

/-!
# What can go wrong in a run

Four families: the delivery of interrupts broke a rule, a blocking wait failed, an interrupt
could not be sent, and what a generator or a worker makes of these.  Each has a message, and
some name the error below them as their source.
-/

namespace InterruptStress

/-- Results can be compared where values and errors can. -/
instance decidableEqResult {ε α : Type} [DecidableEq ε] [DecidableEq α] : DecidableEq (Except ε α)
  | .ok a, .ok b => decidable_of_iff (a = b) ⟨congrArg _, Except.ok.inj⟩
  | .error a, .error b => decidable_of_iff (a = b) ⟨congrArg _, Except.error.inj⟩
  | .ok _, .error _ => isFalse nofun
  | .error _, .ok _ => isFalse nofun

/-- A broken rule of interrupt delivery. -/
inductive Violation where
  /-- A sleep ran to its end. -/
  | notInterrupted (iteration : Nat)
  /-- The status was still set after the sleep that it ended. -/
  | statusNotCleared (iteration : Nat)
  /-- The generator did not send one interrupt more than were observed. -/
  | accountingMismatch (sent observed : Nat)
deriving DecidableEq, Inhabited

def Violation.message : Violation → String
  | notInterrupted iteration => s!"Thread was never interrupted during sleep: {iteration}"
  | statusNotCleared iteration =>
    s!"Thread should not have interrupted status set (iteration {iteration})"
  | accountingMismatch sent observed =>
    s!"Interrupt accounting mismatch: sent {sent}, expected {observed + 1}"

/-- The locks that a thread may leave poisoned. -/
inductive Lock where
  | token
  | rendezvous
deriving DecidableEq, Inhabited

def Lock.name : Lock → String
  | token => "interrupt token"
  | rendezvous => "rendezvous"

/-- A blocking wait that failed, and not because of an interrupt. -/
inductive WaitError where
  /-- A thread panicked while it held the lock. -/
  | poisoned (lock : Lock)
deriving DecidableEq, Inhabited

def WaitError.message : WaitError → String
  | poisoned lock => s!"Lock poisoned: {lock.name}"

/-- An interrupt that could not be delivered through a thread reference. -/
inductive SignalError where
  | disconnected
  | illegalThreadState (thread : ThreadId)
  | transport (text : String)
deriving DecidableEq, Inhabited

namespace SignalError

def message : SignalError → String
  | disconnected => "Target disconnected"
  | illegalThreadState thread => s!"Thread {thread.display} is no longer alive"
  | transport text => s!"Transport error: {text}"

/-- The target went away, which ends a remote generator well. -/
def isTargetGone : SignalError → Bool
  | disconnected | illegalThreadState _ => true
  | transport _ => false

end SignalError

/-- How a generator failed. -/
inductive GeneratorError where
  | wait (cause : WaitError)
  | unexpectedInterrupt (sent : Nat)
  | signal (sent : Nat) (cause : SignalError)
  | panicked
deriving DecidableEq, Inhabited

namespace GeneratorError

def message : GeneratorError → String
  | wait cause => s!"Generator wait failed: {cause.message}"
  | unexpectedInterrupt sent =>
    s!"Generator was interrupted unexpectedly after {sent} interrupts sent"
  | signal sent cause => s!"Signal failed after {sent} interrupts sent: {cause.message}"
  | panicked => "Generator thread panicked"

def source : GeneratorError → Option String
  | wait cause => some cause.message
  | signal _ cause => some cause.message
  | unexpectedInterrupt _ | panicked => none

end GeneratorError

/-- How a worker failed. -/
inductive WorkerError where
  | violation (cause : Violation)
  | wait (cause : WaitError)
  /-- The probe no longer takes lines. -/
  | detached
  | generator (cause : GeneratorError)
  /-- The generator's thread could not be started. -/
  | spawn (text : String)
deriving DecidableEq, Inhabited

namespace WorkerError

/-- The message; a violation speaks for itself. -/
def message : WorkerError → String
  | violation cause => cause.message
  | wait cause => s!"Wait failed: {cause.message}"
  | detached => "Worker detached: target terminated"
  | generator cause => s!"Generator failed: {cause.message}"
  | spawn text => s!"Failed to spawn generator: {text}"

def source : WorkerError → Option String
  | violation _ => none
  | wait cause => some cause.message
  | detached => some "Step probe detached"
  | generator cause => some cause.message
  | spawn text => some text

end WorkerError

end InterruptStress
