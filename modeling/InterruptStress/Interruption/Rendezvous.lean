import InterruptStress.Failure

/-!
# The rendezvous

In precise mode the generator and the worker hand over through one lock.  The generator holds
it while it sends an interrupt and gives it up while it waits for the acknowledgement; the
worker takes it for a moment to acknowledge, or to stop the generator.  An acknowledgement is
taken before a stop, so the generator sends exactly one interrupt after the worker's last
iteration.
-/

namespace InterruptStress

/-- Why a wait for an acknowledgement ended. -/
inductive Wakeup where
  /-- The last interrupt was handled. -/
  | acknowledged
  /-- The waiting thread was interrupted itself. -/
  | interrupted
deriving DecidableEq, Inhabited

/-- The lock, the acknowledgement under it, and whether somebody waits for it un-notified. -/
structure Rendezvous where
  held : Bool
  acked : Bool
  parked : Bool
  /-- A thread panicked while it held the lock. -/
  poisoned : Bool
deriving DecidableEq

namespace Rendezvous

def new : Rendezvous := ⟨false, false, false, false⟩

/-- Takes the lock, or fails if it was left poisoned.  While it is held nobody else can. -/
def enter (r : Rendezvous) : Option (Except WaitError Rendezvous) :=
  if r.held then none
  else if r.poisoned then some (.error (.poisoned .rendezvous))
  else some (.ok { r with held := true, parked := false })

/-- Gives the lock back. -/
def leave (r : Rendezvous) : Rendezvous := { r with held := false }

/-- The holder panics. -/
def crash (r : Rendezvous) : Rendezvous := { r with held := false, poisoned := true }

/-- The holder looks for the acknowledgement and for a stop, and gives up the lock to wait if
there is neither. -/
def look (r : Rendezvous) (stopped : Bool) : Option Wakeup × Rendezvous :=
  if r.acked then (some .acknowledged, { r with acked := false })
  else if stopped then (some .interrupted, r)
  else (none, { r with held := false, parked := true })

/-- Takes the lock for a moment, to do something and to notify the waiting thread. -/
def within (r : Rendezvous) (f : Rendezvous → Rendezvous) : Option (Except WaitError Rendezvous) :=
  if r.held then none
  else if r.poisoned then some (.error (.poisoned .rendezvous))
  else some (.ok { f r with parked := false })

/-- Says that the last interrupt has been handled. -/
def acknowledge (r : Rendezvous) : Option (Except WaitError Rendezvous) :=
  r.within fun r => { r with acked := true }

/-- Notifies the waiting thread; whoever does so interrupts a token under the same lock. -/
def notify (r : Rendezvous) : Option (Except WaitError Rendezvous) := r.within id

/-- Wakes the waiting thread for no reason. -/
def stir (r : Rendezvous) : Rendezvous := { r with parked := false }

end Rendezvous

end InterruptStress
