import InterruptStress.Supervision.Watchdog

/-!
# Step times

The count of steps as it goes with time, and what a watchdog makes of it whose task is polled on
time: when its timer is due and when its cancellation is sent.  Times are nanoseconds.
-/

namespace InterruptStress

/-- Steps counted before the watchdog starts, and the times between those after. -/
structure StepTimes where
  before : Nat
  gaps : List Nat

namespace StepTimes

/-- How many of some steps, given by the gaps before each, happen within a time. -/
def countWithin (time : Nat) : List Nat → Nat
  | [] => 0
  | gap :: gaps => if gap ≤ time then countWithin (time - gap) gaps + 1 else 0

/-- The count at a time after the start. -/
def countAt (s : StepTimes) (time : Nat) : Nat := s.before + countWithin time s.gaps

/-- The count as the watchdog sees it, which starts before a step that falls on its start is
counted. -/
def seenAt (s : StepTimes) (time : Nat) : Nat := if time = 0 then s.before else s.countAt time

/-- When the task is polled: at the start, then at each multiple of the interval, and once between
two of them or at one of them if the cancellation is sent there. -/
def pollAt (interval : Duration) (cancelled : Option Nat) (k : Nat) : Nat :=
  match cancelled with
  | none => k * interval.totalNanos
  | some time => max ((k - 1) * interval.totalNanos) (min (k * interval.totalNanos) time)

/-- A poll.  If the timer is due when the cancellation is sent, the timer is asked for first. -/
def poll (s : StepTimes) (interval : Duration) (cancelled : Option Nat) (k : Nat) : Watchdog.Poll :=
  let now := pollAt interval cancelled k
  ⟨now, s.seenAt now, cancelled.any (· ≤ now), false⟩

/-- The task of the watchdog after its first polls. -/
def task (s : StepTimes) (interval : Duration) (cancelled : Option Nat) (polls : Nat) :
    Watchdog.Task :=
  (Watchdog.start interval s.before 0).run ((List.range polls).map (s.poll interval cancelled))

/-- What the watchdog finds until it is cancelled, and the count at its end.  The last of these
polls cannot see another step. -/
def watch (s : StepTimes) (interval : Duration) (cancelled : Option Nat) :
    Option HangReport × Nat :=
  match s.task interval cancelled (s.gaps.length + 3) with
  | .hung report => (some report, report.steps.toNat)
  | _ => (none, s.countAt (cancelled.getD 0))

end StepTimes

end InterruptStress
