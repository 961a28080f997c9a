import InterruptStress.Failure
import InterruptStress.Interruption.Token
import InterruptStress.Settings

/-!
# The worker's loop

A worker starts its generator, runs its iterations, and stops the generator again.  Every
iteration is one sleep that an interrupt has to end.  Like a generator, a worker is described
by what it does next and by what each answer makes of it.  The lines it reports tell where it
stands: an iteration in precise mode reports all of `loop`, `sleep`, `caught`, `acknowledge` and
`check`; in the other modes it does not acknowledge.
-/

namespace InterruptStress

/-- The lines of the loop that a worker reports. -/
inductive WorkerLine where
  | loop
  | sleep
  | caught
  | acknowledge
  | check
  | done
deriving DecidableEq, Inhabited

/-- The number of a line. -/
def WorkerLine.number : WorkerLine → UInt32
  | loop => 1
  | sleep => 2
  | caught => 3
  | acknowledge => 4
  | check => 5
  | done => 6

/-- What a worker does next.  Once its loop has ended it carries the loop's failure along. -/
inductive WorkerPhase where
  /-- Starts its generator. -/
  | starting
  /-- Reports the line it has reached. -/
  | reporting (line : WorkerLine)
  /-- Begins its sleep. -/
  | sleeping
  | asleep
  /-- Reads its interrupt status. -/
  | reading
  | acknowledging
  /-- Stops its generator. -/
  | stopping (failure : Option WorkerError)
  /-- Waits for its generator to finish. -/
  | joining (failure : Option WorkerError)
  | finished (result : Except WorkerError WorkerReport)
deriving DecidableEq

/-- What happens to a worker. -/
inductive WorkerEvent where
  /-- Its generator was started, or could not be. -/
  | started (result : Except String Unit)
  /-- Its line was taken, or the probe had been detached. -/
  | reported (accepted : Bool)
  /-- It began its sleep, and waits. -/
  | dozed
  /-- Its sleep ended. -/
  | slept (result : Except WaitError SleepOutcome)
  /-- It read its interrupt status. -/
  | read (pending : Bool)
  | acknowledged (result : Except WaitError Unit)
  /-- It told its generator to stop. -/
  | stopped (result : Except WaitError Unit)
  /-- Its generator finished. -/
  | joined (result : Except GeneratorError Nat)

structure Worker where
  settings : WorkerSettings
  phase : WorkerPhase
  /-- The number that the loop has given to the present iteration, or how many there have been. -/
  iteration : Nat
  /-- Iterations that ended well. -/
  completed : Nat
  /-- Sleeps that an interrupt ended. -/
  observed : Nat
  /-- Whether the present iteration's sleep was interrupted. -/
  interrupted : Bool

namespace Worker

/-- The line at which the next iteration begins, or the last line. -/
def nextLine (w : Worker) : WorkerLine :=
  if w.iteration < w.settings.iterations.toNat then .loop else .done

/-- A worker about to begin its next iteration. -/
def resumeLoop (w : Worker) : Worker := { w with phase := .reporting w.nextLine, interrupted := false }

/-- The result of a run whose loop and whose generator have ended.  What went wrong in the loop
comes first.  In precise mode exactly one interrupt more is sent than is observed. -/
def conclude (w : Worker) (failure : Option WorkerError) (sent : Option Nat) :
    Except WorkerError WorkerReport :=
  match failure with
  | some e => .error e
  | none =>
    if w.settings.mode = .precise ∧ sent.getD 0 ≠ w.observed + 1 then
      .error (.violation (.accountingMismatch (sent.getD 0) w.observed))
    else
      .ok ⟨w.settings.mode, UInt32.ofNat w.completed, UInt64.ofNat w.observed, sent.map UInt64.ofNat⟩

/-- A worker whose loop has ended: it has a generator to stop, or is done. -/
def endLoop (w : Worker) (failure : Option WorkerError) : Worker :=
  if w.settings.mode.hasLocalGenerator then { w with phase := .stopping failure }
  else { w with phase := .finished (w.conclude failure none) }

/-- A worker that has not done anything yet. -/
def start (settings : WorkerSettings) : Worker :=
  let w : Worker := ⟨settings, .starting, 0, 0, 0, false⟩
  if settings.mode.hasLocalGenerator then w else w.resumeLoop

/-- What a line that was taken leads to. -/
def afterLine (w : Worker) : WorkerLine → Worker
  | .loop => { w with phase := .reporting .sleep }
  | .sleep => { w with phase := .sleeping }
  | .caught => { w with phase := .reading, observed := w.observed + 1, interrupted := true }
  | .acknowledge => { w with phase := .acknowledging }
  | .check =>
    if w.interrupted then
      { w with completed := w.completed + 1, iteration := w.iteration + 1 }.resumeLoop
    else w.endLoop (some (.violation (.notInterrupted w.iteration)))
  | .done => w.endLoop none

/-- What an event makes of a worker, if it can happen. -/
def step (w : Worker) (event : WorkerEvent) : Option Worker :=
  match w.phase, event with
  | .starting, .started (.ok ()) => some w.resumeLoop
  | .starting, .started (.error text) => some { w with phase := .finished (.error (.spawn text)) }
  | .reporting line, .reported true => some (w.afterLine line)
  | .reporting _, .reported false => some (w.endLoop (some .detached))
  | .sleeping, .dozed => some { w with phase := .asleep }
  | .sleeping, .slept result | .asleep, .slept result =>
    match result with
    | .error e => some (w.endLoop (some (.wait e)))
    | .ok .completed => some { w with phase := .reporting .check }
    | .ok .interrupted => some { w with phase := .reporting .caught }
  | .reading, .read pending =>
    if w.settings.mode = .precise then
      if pending then some (w.endLoop (some (.violation (.statusNotCleared w.iteration))))
      else some { w with phase := .reporting .acknowledge }
    else some { w with phase := .reporting .check }
  | .acknowledging, .acknowledged (.ok ()) => some { w with phase := .reporting .check }
  | .acknowledging, .acknowledged (.error e) => some (w.endLoop (some (.wait e)))
  | .stopping failure, .stopped (.ok ()) => some { w with phase := .joining failure }
  | .stopping failure, .stopped (.error e) =>
    some { w with phase := .finished (.error (failure.getD (.wait e))) }
  | .joining failure, .joined (.ok sent) =>
    some { w with phase := .finished (w.conclude failure (some sent)) }
  | .joining failure, .joined (.error e) =>
    some { w with phase := .finished (.error (failure.getD (.generator e))) }
  | _, _ => none

/-- The result of a worker that has finished. -/
def result? (w : Worker) : Option (Except WorkerError WorkerReport) :=
  match w.phase with
  | .finished result => some result
  | _ => none

end Worker

end InterruptStress
