import InterruptStress.Interruption.Rendezvous
import InterruptStress.Interruption.Token

/-!
# Generators

A generator sends interrupts until it is stopped or its target has gone.  It is described by
what it does next and by what each answer makes of it; what the answers are is up to the
tokens, the rendezvous and the channel that it meets.

* In precise mode it holds the rendezvous while it sends, and waits for the acknowledgement.
* In aggressive mode it pauses after each interrupt, and being interrupted ends it well.
* In remote mode it pauses too; it ends well when its target has gone, and being interrupted
  is a failure.
-/

namespace InterruptStress

/-- What a generator does next. -/
inductive GeneratorPhase where
  /-- Takes the rendezvous for the first time. -/
  | entering
  | sending
  /-- Looks for the acknowledgement, the rendezvous in hand. -/
  | looking
  /-- Waits for the acknowledgement, the rendezvous given up. -/
  | parked
  /-- Begins its pause. -/
  | pausing
  | asleep
  | finished (result : Except GeneratorError Nat)
deriving DecidableEq

/-- What happens to a generator. -/
inductive GeneratorEvent where
  /-- It took the rendezvous, or found it poisoned. -/
  | entered (result : Except WaitError Unit)
  /-- It interrupted the token of its own target. -/
  | sent
  /-- The target's token panicked in its hands. -/
  | crashed
  /-- It signalled a thread of another target. -/
  | signalled (result : Except SignalError Unit)
  /-- It looked for the acknowledgement; with none it waits. -/
  | looked (wakeup : Option Wakeup)
  /-- It began its pause, and waits. -/
  | dozed
  /-- Its pause ended. -/
  | slept (result : Except WaitError SleepOutcome)

structure Generator where
  strategy : Mode
  phase : GeneratorPhase
  sent : Nat
deriving DecidableEq

namespace Generator

/-- A generator that has not done anything yet. -/
def start (strategy : Mode) : Generator :=
  ⟨strategy, if strategy = .precise then .entering else .sending, 0⟩

/-- The name of a generator's thread. -/
def threadName (strategy : Mode) : String := strategy.name ++ "-interruptor"

/-- The phase after an interrupt was sent. -/
def afterSending (strategy : Mode) : GeneratorPhase :=
  if strategy = .precise then .looking else .pausing

/-- What an event makes of a generator, if it can happen. -/
def step (g : Generator) : GeneratorEvent → Option Generator
  | .entered result =>
    if g.phase = .entering ∨ g.phase = .parked then
      match result with
      | .error e => some { g with phase := .finished (.error (.wait e)) }
      | .ok () => some { g with phase := if g.phase = .entering then .sending else .looking }
    else none
  | .sent =>
    if g.phase = .sending ∧ g.strategy.hasLocalGenerator then
      some { g with sent := g.sent + 1, phase := afterSending g.strategy }
    else none
  | .crashed =>
    if g.phase = .sending ∧ g.strategy.hasLocalGenerator then
      some { g with sent := g.sent + 1, phase := .finished (.error .panicked) }
    else none
  | .signalled result =>
    if g.phase = .sending ∧ !g.strategy.hasLocalGenerator then
      match result with
      | .ok () => some { g with sent := g.sent + 1, phase := afterSending g.strategy }
      | .error e =>
        if e.isTargetGone then some { g with phase := .finished (.ok g.sent) }
        else some { g with phase := .finished (.error (.signal g.sent e)) }
    else none
  | .looked wakeup =>
    if g.phase = .looking then
      match wakeup with
      | none => some { g with phase := .parked }
      | some .acknowledged => some { g with phase := .sending }
      | some .interrupted => some { g with phase := .finished (.ok g.sent) }
    else none
  | .dozed => if g.phase = .pausing then some { g with phase := .asleep } else none
  | .slept result =>
    if g.phase = .pausing ∨ g.phase = .asleep then
      match result with
      | .error e => some { g with phase := .finished (.error (.wait e)) }
      | .ok .completed => some { g with phase := .sending }
      | .ok .interrupted =>
        if g.strategy.hasLocalGenerator then some { g with phase := .finished (.ok g.sent) }
        else some { g with phase := .finished (.error (.unexpectedInterrupt g.sent)) }
    else none

/-- The result of a generator that has finished. -/
def result? (g : Generator) : Option (Except GeneratorError Nat) :=
  match g.phase with
  | .finished result => some result
  | _ => none

/-- The report of a generator that has finished well. -/
def report (strategy : Mode) (sent : Nat) : GeneratorReport := ⟨strategy, UInt64.ofNat sent⟩

end Generator

end InterruptStress
