import InterruptStress.Schedule.Exhaust
import InterruptStress.Worker.LocalRun

/-!
# Rehearsals

A worker and its generator run with cues in place of parts of their surroundings: some sleeps
end as the cues say, a status reads as they say, a token panics, a probe takes only so many
lines.  The worker goes first whenever it can, then the generator, and time passes only when
neither can go on; it is counted in nanoseconds.
-/

namespace InterruptStress

/-- How a sleep ends: as it really would, or as the cue says and at once. -/
inductive SleepCue where
  | real
  | ends (result : Except WaitError SleepOutcome)

/-- What is given in place of the surroundings. -/
structure Cues where
  /-- How the worker's sleeps end, and those after the list. -/
  sleeps : List SleepCue := []
  laterSleeps : SleepCue := .real
  /-- How the generator's pauses end, and those after the list. -/
  pauses : List SleepCue := []
  laterPauses : SleepCue := .real
  /-- What comes of the signals of a remote generator; after the list the target has gone. -/
  signals : List (Except SignalError Unit) := []
  /-- The sleeps after which the worker's status reads as set. -/
  setAfter : List Nat := []
  /-- The status reads as clear after all others. -/
  clearOtherwise : Bool := false
  /-- The interrupt, counted from one, that makes the worker's token panic. -/
  crashAt : Option Nat := none
  /-- How many lines the probe takes before it is detached. -/
  lines : Option Nat := none

structure Rehearsal where
  cues : Cues
  run : LocalRun
  /-- The lines taken so far, the latest first. -/
  taken : List UInt32
  /-- How long the worker has asked to sleep, and the generator to pause, each time. -/
  sleeps : List Duration
  pauses : List Duration
  /-- How often the generator signalled. -/
  signals : Nat
  now : Nat
  /-- When the worker's sleep and the generator's pause run out. -/
  workerDue : Nat
  generatorDue : Nat

namespace Rehearsal

/-- A rehearsal that has not begun. -/
def new (cues : Cues) (run : LocalRun) : Rehearsal := ⟨cues, run, [], [], [], 0, 0, 0, 0⟩

def moved (r : Rehearsal) (run : Option LocalRun) : Option Rehearsal :=
  run.map fun run => { r with run }

/-- Begins a sleep of the worker. -/
def beginSleep (r : Rehearsal) : Option Rehearsal :=
  let cue := (r.cues.sleeps[r.sleeps.length]?).getD r.cues.laterSleeps
  let span := r.run.span .worker
  let r := { r with sleeps := span :: r.sleeps, workerDue := r.now + span.totalNanos }
  match cue with
  | .real => r.moved (r.run.step (.advance .worker))
  | .ends result => r.moved (r.run.step (.endSleep result))

/-- What the worker's status reads as, if the cues say. -/
def statusCue (r : Rehearsal) : Option Bool :=
  if (r.sleeps.length - 1) ∈ r.cues.setAfter then some true
  else if r.cues.clearOtherwise then some false
  else none

/-- The worker's turn. -/
def workerTurn (r : Rehearsal) : Option Rehearsal :=
  match r.run.worker.phase with
  | .reporting line =>
    if r.cues.lines.any fun n => n ≤ r.taken.length then r.moved (r.run.step (.report false))
    else { r with taken := line.number :: r.taken }.moved (r.run.step (.report true))
  | .sleeping => r.beginSleep
  | .reading =>
    match r.statusCue with
    | some pending => r.moved (r.run.step (.tellStatus pending))
    | none => r.moved (r.run.step (.advance .worker))
  | _ => r.moved (r.run.step (.advance .worker))

/-- Begins a pause of the generator. -/
def beginPause (r : Rehearsal) : Option Rehearsal :=
  let cue := (r.cues.pauses[r.pauses.length]?).getD r.cues.laterPauses
  let span := r.run.span .generator
  let r := { r with pauses := span :: r.pauses, generatorDue := r.now + span.totalNanos }
  match cue with
  | .real => r.moved (r.run.step (.advance .generator))
  | .ends result => r.moved (r.run.onGenerator (.slept result))

/-- Sends an interrupt: through the worker's token, or as a signal that the cues answer. -/
def send (r : Rehearsal) (g : Generator) : Option Rehearsal :=
  if g.strategy.hasLocalGenerator then
    if r.cues.crashAt = some (g.sent + 1) then r.moved (r.run.step .crash)
    else r.moved (r.run.step (.advance .generator))
  else
    let answer := (r.cues.signals[r.signals]?).getD (.error .disconnected)
    { r with signals := r.signals + 1 }.moved (r.run.onGenerator (.signalled answer))

/-- The generator's turn. -/
def generatorTurn (r : Rehearsal) : Option Rehearsal :=
  match r.run.generator with
  | none => none
  | some g =>
    match g.phase with
    | .pausing => r.beginPause
    | .sending => r.send g
    | _ => r.moved (r.run.step (.advance .generator))

/-- Time passes until the next sleep runs out. -/
def timeTurn (r : Rehearsal) : Option Rehearsal :=
  let worker := match r.run.worker.phase with
    | .asleep => some r.workerDue
    | _ => none
  let generator := match r.run.generator.map Generator.phase with
    | some .asleep => some r.generatorDue
    | _ => none
  match worker, generator with
  | some due, none => { r with now := due }.moved (r.run.step (.expire .worker))
  | none, some due => { r with now := due }.moved (r.run.step (.expire .generator))
  | some w, some g =>
    if w ≤ g then { r with now := w }.moved (r.run.step (.expire .worker))
    else { r with now := g }.moved (r.run.step (.expire .generator))
  | none, none => none

/-- The next turn. -/
def turn (r : Rehearsal) : Option Rehearsal :=
  r.workerTurn <|> r.generatorTurn <|> r.timeTurn

/-- Runs a worker to its end. -/
def worker (cues : Cues) (settings : WorkerSettings) (pending : Bool) : Rehearsal :=
  let run := LocalRun.start settings
  exhaust turn patience (new cues { run with token := if pending then run.token.interrupt else run.token })

/-- A generator before its first turn, with nobody else taking turns. -/
def ofGenerator (cues : Cues) (settings : WorkerSettings) (acked stopped : Bool) : Rehearsal :=
  let run := LocalRun.start settings
  new cues { run with
    generator := some (.start settings.mode)
    rendezvous := { run.rendezvous with acked }
    stop := if stopped then run.stop.interrupt else run.stop }

/-- Runs the generator until it finishes or waits for somebody else. -/
def settleGenerator (r : Rehearsal) : Rehearsal := exhaust generatorTurn patience r

/-- Acknowledges from outside, once the generator waits. -/
def acknowledge (r : Rehearsal) : Except WaitError Unit × Rehearsal :=
  let r := r.settleGenerator
  match r.run.rendezvous.acknowledge with
  | some (.ok rendezvous) => (.ok (), { r with run := { r.run with rendezvous } })
  | some (.error e) => (.error e, r)
  | none => (.ok (), r)

/-- Stops the generator from outside, once it waits or sleeps, and lets it finish. -/
def stopGenerator (r : Rehearsal) : Except WaitError Unit × Rehearsal :=
  let r := r.settleGenerator
  match r.run.stopGenerator with
  | some (.ok run) => (.ok (), { r with run }.settleGenerator)
  | some (.error e) => (.error e, r)
  | none => (.ok (), r)

/-- The result of a generator that has finished. -/
def generatorResult (r : Rehearsal) : Option (Except GeneratorError Nat) :=
  r.run.generator.bind Generator.result?

/-- How many interrupts the generator sent through the worker's token. -/
def targetInterrupts (r : Rehearsal) : Nat :=
  match r.run.generator with
  | some g => if g.strategy.hasLocalGenerator then g.sent else 0
  | none => 0

end Rehearsal

end InterruptStress
