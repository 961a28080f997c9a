import InterruptStress.Interruption.Rendezvous
import InterruptStress.Interruption.Token
import InterruptStress.Target.Tracer

/-!
# Trials

A token, a rendezvous or a tracer, put through its operations one after the other by one thread,
while another does what it is told when the first one waits.
-/

namespace InterruptStress

/-- A sleep on a token, in milliseconds, and an interrupt by another thread after some time. -/
def Token.trySleep (t : Token) (time : Nat) (interruptAfter : Option Nat) :
    Option SleepOutcome × Token :=
  let interrupted (t : Token) := if interruptAfter.isSome then t.interrupt else t
  match t.look 0 false with
  | (some outcome, t) => (some outcome, interrupted t)
  | (none, t) =>
    if interruptAfter.any (· < time) then t.interrupt.look 0 true
    else
      let (outcome, t) := t.look 0 true
      (outcome, interrupted t)

/-! ## The rendezvous -/

/-- What the other thread does at a rendezvous. -/
inductive Deed where
  | acknowledge
  /-- Interrupts a token through the rendezvous. -/
  | interrupt (token : Nat)

structure RendezvousTrial where
  rendezvous : Rendezvous
  tokens : List Token

namespace RendezvousTrial

def start (tokens : Nat) : RendezvousTrial := ⟨.new, List.replicate tokens .new⟩

def pending (t : RendezvousTrial) (k : Nat) : Bool := (t.tokens[k]?).any Token.pending

def interrupt (t : RendezvousTrial) (k : Nat) : RendezvousTrial :=
  { t with tokens := t.tokens.modify k Token.interrupt }

def clear (t : RendezvousTrial) (k : Nat) : RendezvousTrial :=
  { t with tokens := t.tokens.modify k Token.clear }

def settle {α : Type} (t : RendezvousTrial) (result : Option (Except WaitError Rendezvous))
    (value : α) (next : RendezvousTrial → RendezvousTrial) :
    Option (Except WaitError α) × RendezvousTrial :=
  match result with
  | some (.ok rendezvous) => (some (.ok value), next { t with rendezvous })
  | some (.error e) => (some (.error e), t)
  | none => (none, t)

/-- Does a deed. -/
def perform (t : RendezvousTrial) : Deed → Option (Except WaitError Unit) × RendezvousTrial
  | .acknowledge => t.settle t.rendezvous.acknowledge () id
  | .interrupt k => t.settle t.rendezvous.notify () (·.interrupt k)

/-- Takes the lock and gives it back. -/
def lock (t : RendezvousTrial) : Option (Except WaitError Unit) × RendezvousTrial :=
  t.settle (t.rendezvous.enter.map (·.map Rendezvous.leave)) () id

/-- Panics while holding the lock. -/
def crash (t : RendezvousTrial) : RendezvousTrial := { t with rendezvous := t.rendezvous.crash }

/-- The waiting thread looks once; it gives the lock back if it need not wait. -/
def look (t : RendezvousTrial) (k : Nat) : Option Wakeup × RendezvousTrial :=
  match t.rendezvous.look (t.pending k) with
  | (some .acknowledged, r) => (some .acknowledged, { t with rendezvous := r.leave })
  | (some .interrupted, r) => (some .interrupted, { t with rendezvous := r.leave }.clear k)
  | (none, rendezvous) => (none, { t with rendezvous })

/-- Waits for an acknowledgement with a token; the other thread's deed comes when the lock is
given up. -/
def wait (t : RendezvousTrial) (k : Nat) (deed : Option Deed) :
    Option (Except WaitError Wakeup) × RendezvousTrial :=
  let after (t : RendezvousTrial) : RendezvousTrial := deed.elim t fun d => (t.perform d).2
  match t.rendezvous.enter with
  | none => (none, t)
  | some (.error e) => (some (.error e), after t)
  | some (.ok rendezvous) =>
    match { t with rendezvous }.look k with
    | (some wakeup, t) => (some (.ok wakeup), after t)
    | (none, t) =>
      let (wakeup, t) := (after t).look k
      (wakeup.map .ok, t)

end RendezvousTrial

/-! ## The tracer -/

/-- The thread that reports lines to a tracer. -/
inductive LinePhase where
  | idle
  | parked
  /-- The line has ended, but nobody has been told yet whether it was taken. -/
  | ended (accepted : Bool)
deriving DecidableEq

structure TracerTrial where
  tracer : Tracer
  /-- The receiver of events is open. -/
  receiving : Bool
  line : LinePhase

/-- What comes of a line. -/
inductive LineAnswer where
  /-- The thread is still in a line. -/
  | busy
  | parked
  | ended (accepted : Bool)

namespace TracerTrial

def start (thread : ThreadId) : TracerTrial := ⟨.new thread, true, .idle⟩

/-- Changes the tracer; a parked thread that was notified looks again. -/
def update (t : TracerTrial) (f : Tracer → Tracer) : TracerTrial :=
  let tracer := f t.tracer
  match t.line, tracer.look with
  | .parked, (some accepted, tracer) => { t with tracer, line := .ended accepted }
  | .parked, (none, tracer) => { t with tracer }
  | _, _ => { t with tracer }

/-- Reports a line on the other thread. -/
def report (t : TracerTrial) (number : UInt32) : LineAnswer × Option TargetEvent × TracerTrial :=
  if t.line = .idle then
    let outcome := t.tracer.line t.receiving number
    match outcome.accepted with
    | some accepted => (.ended accepted, outcome.event, { t with tracer := outcome.tracer })
    | none => (.parked, outcome.event, { t with tracer := outcome.tracer, line := .parked })
  else (.busy, none, t)

/-- Lets go, and tells whether the line that thereby ended was taken. -/
def release (t : TracerTrial) (f : Tracer → Tracer) : Option Bool × TracerTrial :=
  let t := t.update f
  match t.line with
  | .ended accepted => (some accepted, { t with line := .idle })
  | _ => (none, t)

/-- Waits for the start; the other thread acts when it is waited for, or afterwards. -/
def awaitStart (t : TracerTrial) (f : Tracer → Tracer) : Option Bool × TracerTrial :=
  match t.tracer.look with
  | (some started, _) => (some started, t.update f)
  | (none, tracer) =>
    let t := { t with tracer }.update f
    (t.tracer.look.1, t)

end TracerTrial

end InterruptStress
