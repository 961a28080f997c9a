import InterruptStress.Report

/-!
# The watchdog

A watchdog looks at the count of steps, an interval apart.  If the count is what it was at the
previous look (at the start, for the first look), the target hangs, and it has been idle since
the count was last seen to move.  Times are nanoseconds on one clock.

Between two looks its task waits for two things at once, its timer and its cancellation.  It
finds out at a poll which of them is ready; if both are, either may be taken.
-/

namespace InterruptStress

/-- The count of steps, which the controller writes and the watchdog reads. -/
structure StepCounter where
  count : UInt64
deriving DecidableEq

namespace StepCounter

def new : StepCounter := ⟨0⟩

/-- Counts a step, and gives the new count. -/
def increment (counter : StepCounter) : UInt64 × StepCounter :=
  (counter.count + 1, ⟨counter.count + 1⟩)

def get (counter : StepCounter) : UInt64 := counter.count

/-- What some steps one after the other give, and the counter after them. -/
def increments (counter : StepCounter) : Nat → List UInt64 × StepCounter
  | 0 => ([], counter)
  | n + 1 =>
    let (count, counter) := counter.increment
    let (counts, counter) := counter.increments n
    (count :: counts, counter)

end StepCounter

structure Watchdog where
  interval : Duration
  /-- The count at the previous look. -/
  last : Nat
  /-- When the count was last seen to move, or the start; the timer was set then. -/
  since : Nat
deriving DecidableEq

namespace Watchdog

/-- A watchdog that starts to watch. -/
def start (interval : Duration) (steps now : Nat) : Watchdog := ⟨interval, steps, now⟩

/-- A look at the count. -/
def look (w : Watchdog) (steps now : Nat) : Except HangReport Watchdog :=
  if steps = w.last then .error ⟨UInt64.ofNat steps, .ofNanos (now - w.since), w.interval⟩
  else .ok { w with last := steps, since := now }

/-- What the task of a watchdog meets when it is polled. -/
structure Poll where
  now : Nat
  /-- The count of steps. -/
  steps : Nat
  /-- The cancellation has been sent, or nobody is left who could send it. -/
  cancelled : Bool
  /-- Whether the task asks for its cancellation before its timer.  The order is left to chance. -/
  cancelFirst : Bool
deriving DecidableEq

/-- What a task that waits for its cancellation and its timer goes on with. -/
inductive Arm where
  | cancellation
  | timer
deriving DecidableEq

/-- The first arm that is ready, in the order in which the poll asks for them. -/
def select (w : Watchdog) (p : Poll) : Option Arm :=
  let cancellation := if p.cancelled then some Arm.cancellation else none
  let timer := if w.since + w.interval.totalNanos ≤ p.now then some Arm.timer else none
  if p.cancelFirst then cancellation <|> timer else timer <|> cancellation

/-- The task of a watchdog: it waits, or it is over. -/
inductive Task where
  | waiting (watchdog : Watchdog)
  | cancelled
  | hung (report : HangReport)
deriving DecidableEq

/-- A poll of a watchdog that waits.  After a look that saw the count move it waits again at once,
with a new timer. -/
def poll (w : Watchdog) (p : Poll) : Task :=
  match w.select p with
  | none => .waiting w
  | some .cancellation => .cancelled
  | some .timer =>
    match w.look p.steps p.now with
    | .error report => .hung report
    | .ok w => if p.cancelled then .cancelled else .waiting w

namespace Task

/-- A poll; a task that is over is not polled again. -/
def poll : Task → Poll → Task
  | .waiting w, p => w.poll p
  | task, _ => task

/-- What the task returns, if it is over: nothing if it was cancelled. -/
def result? : Task → Option (Option HangReport)
  | .waiting _ => none
  | .cancelled => some none
  | .hung report => some (some report)

end Task

/-- What some polls one after the other make of a watchdog that waits. -/
def run (w : Watchdog) (polls : List Poll) : Task := polls.foldl .poll (.waiting w)

end Watchdog

end InterruptStress
