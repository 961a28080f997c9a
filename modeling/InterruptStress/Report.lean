import InterruptStress.Duration
import InterruptStress.Binary64.Shortest
import InterruptStress.Protocol.Message

/-!
# Reports of a run

What a controller learned about one run, the reasons for which the run counts as failed, and
the texts in which both are shown.  A run has passed when there is no such reason.
-/

namespace InterruptStress

instance : Wire Duration where
  toJson d := Json.record [("secs", Wire.toJson d.secs), ("nanos", Wire.toJson d.nanos)]
  ofJson? ctx j := do
    let [secs, nanos] ← j.closedFields? ["secs", "nanos"] | none
    Duration.ofParts? (← Json.required ctx secs) (← Json.required ctx nanos)

/-- The finding that no step was seen for a whole interval. -/
structure HangReport where
  /-- Steps counted when the target stood still. -/
  steps : UInt64
  /-- Time since the count was last seen to move. -/
  idle : Duration
  /-- Time between two looks at the count. -/
  interval : Duration
deriving DecidableEq

/-- Seconds with one decimal place. -/
def Duration.secondsText (d : Duration) : String := Binary64.oneDecimal d.toSeconds.toRat ++ "s"

def HangReport.message (h : HangReport) : String :=
  s!"Target appears to be hung: no steps for {h.idle.secondsText} " ++
    s!"(interval {h.interval.secondsText}, {h.steps.toNat} steps total)"

/-- What a controller learned about one run. -/
structure RunReport where
  runId : String
  mode : Mode
  /-- Steps received. -/
  steps : UInt64
  hang : Option HangReport
  /-- Absent when the target vanished without saying how it ended. -/
  exit : Option TargetExit
  /-- What became of the controller's own generator, if there was one. -/
  remote : Option (Except String GeneratorReport)

namespace RunReport

/-- A reason for which a run counts as failed. -/
inductive Failure where
  | hung (hang : HangReport)
  | exited (code : Int32) (failure : Option String)
  | vanished
  | remoteFailed (reason : String)

def Failure.message : Failure → String
  | hung hang => hang.message
  | exited code failure => s!"Target exited with code {code.toInt}: " ++ failure.getD "unknown failure"
  | vanished => "Target disconnected without reporting an exit"
  | remoteFailed reason => s!"Remote generator failed: {reason}"

def hangFailures (r : RunReport) : List Failure := r.hang.toList.map .hung

def exitFailures (r : RunReport) : List Failure :=
  match r.exit with
  | some exit => if exit.isSuccess then [] else [.exited exit.code exit.failure]
  | none => [.vanished]

def remoteFailures (r : RunReport) : List Failure :=
  match r.remote with
  | some (.error reason) => [.remoteFailed reason]
  | _ => []

/-- Every reason for which the run failed. -/
def failures (r : RunReport) : List Failure :=
  r.hangFailures ++ r.exitFailures ++ r.remoteFailures

def passed (r : RunReport) : Bool := r.failures.isEmpty

def interruptsObserved (r : RunReport) : Option UInt64 :=
  r.exit.bind fun e => e.report.map WorkerReport.interruptsObserved

/-- The count of the generator that sent the interrupts: the controller's own if there is one,
else the one that the worker reported. -/
def interruptsSent (r : RunReport) : Option UInt64 :=
  match r.remote with
  | some (.ok remote) => some remote.interruptsSent
  | some (.error _) => none
  | none => r.exit.bind fun e => e.report.bind WorkerReport.interruptsSent

def countText : Option UInt64 → String
  | some n => toString n.toNat
  | none => "-"

/-- The lines in which a run is shown. -/
def displayLines (r : RunReport) : List String :=
  [s!"Run {r.runId} ({r.mode.name})",
   s!"  steps:               {r.steps.toNat}",
   "  interrupts sent:     " ++ countText r.interruptsSent,
   "  interrupts observed: " ++ countText r.interruptsObserved,
   "  verdict:             " ++ (if r.passed then "passed" else "FAILED")] ++
    r.failures.map fun f => "    - " ++ f.message

def display (r : RunReport) : String := "\n".intercalate r.displayLines

end RunReport

/-! ## On the wire -/

instance : Wire HangReport where
  toJson h := Json.record
    [("steps", Wire.toJson h.steps), ("idle", Wire.toJson h.idle),
     ("interval", Wire.toJson h.interval)]
  ofJson? ctx j := do
    let [steps, idle, interval] ← j.fields? ["steps", "idle", "interval"] | none
    let ctx := ctx.inner
    some ⟨← Json.required ctx steps, ← Json.required ctx idle, ← Json.required ctx interval⟩

/-- A result is an object whose only member says whether it is one. -/
instance : Wire (Except String GeneratorReport) where
  toJson r := match r with
    | .ok report => Json.record [("Ok", Wire.toJson report)]
    | .error reason => Json.record [("Err", Wire.toJson reason)]
  ofJson? ctx j := match j with
    | .obj [(some "Ok", value)] => (Wire.ofJson? ctx.inner value).map .ok
    | .obj [(some "Err", value)] => (Wire.ofJson? ctx.inner value).map .error
    | _ => none

instance : Wire RunReport where
  toJson r := Json.record
    [("run_id", Wire.toJson r.runId), ("mode", Wire.toJson r.mode),
     ("steps", Wire.toJson r.steps), ("hang", Wire.toJson r.hang),
     ("exit", Wire.toJson r.exit), ("remote", Wire.toJson r.remote)]
  ofJson? ctx j := do
    let [runId, mode, steps, hang, exit, remote] ← j.fields?
      ["run_id", "mode", "steps", "hang", "exit", "remote"] | none
    let ctx := ctx.inner
    some ⟨← Json.required ctx runId, ← Json.required ctx mode, ← Json.required ctx steps,
      ← Json.optional ctx hang, ← Json.optional ctx exit, ← Json.optional ctx remote⟩

end InterruptStress
