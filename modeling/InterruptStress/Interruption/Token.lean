/-!
# Interrupt tokens

A token belongs to one thread.  It holds that thread's interrupt flag, and it knows which
sleepers wait on the flag without having been woken.  Each operation is what one thread does
while it holds the token's lock.
-/

namespace InterruptStress

/-- How a sleep ends. -/
inductive SleepOutcome where
  /-- Its time has passed. -/
  | completed
  /-- An interrupt ended it and was used up by it. -/
  | interrupted
deriving DecidableEq, Inhabited

/-- An interrupt flag and the sleepers that wait on it un-notified. -/
structure Token where
  pending : Bool
  waiters : List Nat
deriving DecidableEq

namespace Token

/-- A token that nobody has interrupted. -/
def new : Token := ⟨false, []⟩

/-- Sets the flag and notifies every sleeper. -/
def interrupt (_ : Token) : Token := ⟨true, []⟩

/-- Clears the flag. -/
def clear (t : Token) : Token := { t with pending := false }

/-- A sleeper looks at the flag, when it falls asleep and whenever it wakes; `expired` says
whether its time has passed.  A flag that is set ends the sleep and is cleared, time that has
passed ends it otherwise, and else the sleeper waits on. -/
def look (t : Token) (sleeper : Nat) (expired : Bool) : Option SleepOutcome × Token :=
  let others := t.waiters.filter (· != sleeper)
  if t.pending then (some .interrupted, ⟨false, others⟩)
  else if expired then (some .completed, ⟨false, others⟩)
  else (none, ⟨false, sleeper :: others⟩)

/-- Whether a sleeper waits and has not been notified. -/
def isWaiting (t : Token) (sleeper : Nat) : Bool := t.waiters.contains sleeper

/-- Wakes a sleeper for no reason. -/
def stir (t : Token) (sleeper : Nat) : Token :=
  { t with waiters := t.waiters.filter (· != sleeper) }

end Token

end InterruptStress
