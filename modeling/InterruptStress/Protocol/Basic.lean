import InterruptStress.Mode

/-!
# Values that the controller and a target exchange

Identities of threads, positions of steps, the policy of a step request, reports of a worker,
and how a target ended.
-/

namespace InterruptStress

/-- The identity of a thread inside a target. -/
structure ThreadId where
  number : UInt64
deriving DecidableEq, Inhabited

def ThreadId.display (t : ThreadId) : String := s!"#{t.number.toNat}"

/-- The only thread of a target that is stepped and interrupted. -/
def ThreadId.main : ThreadId := ⟨1⟩

/-- The position of a step. -/
structure Location where
  method : String
  line : UInt32
deriving DecidableEq, Inhabited

def Location.display (l : Location) : String := s!"{l.method}:{l.line.toNat}"

/-- Whether a step parks the stepping thread until it is resumed. -/
inductive SuspendPolicy where
  | none
  | thread
deriving DecidableEq, Inhabited

namespace SuspendPolicy

def all : List SuspendPolicy := [none, thread]

def name : SuspendPolicy → String
  | none => "none"
  | thread => "thread"

def ofName? (s : String) : Option SuspendPolicy := all.find? fun p => p.name == s

end SuspendPolicy

/-- Where a target runs. -/
inductive Transport where
  | process
  | inProcess
deriving DecidableEq, Inhabited

namespace Transport

def all : List Transport := [process, inProcess]

def name : Transport → String
  | process => "process"
  | inProcess => "in-process"

/-- The name that a person is shown. -/
def title : Transport → String
  | process => "Process"
  | inProcess => "InProcess"

def ofName? (s : String) : Option Transport := all.find? fun t => t.name == s

end Transport

/-- What a worker counted in a run that ended well. -/
structure WorkerReport where
  mode : Mode
  iterationsCompleted : UInt32
  interruptsObserved : UInt64
  /-- Absent when the interrupts were not sent by a local generator. -/
  interruptsSent : Option UInt64
deriving DecidableEq, Inhabited

/-- What a generator counted. -/
structure GeneratorReport where
  strategy : Mode
  interruptsSent : UInt64
deriving DecidableEq, Inhabited

/-- How a target ended. -/
structure TargetExit where
  code : Int32
  report : Option WorkerReport
  failure : Option String
deriving DecidableEq, Inhabited

namespace TargetExit

/-- The code of a target whose worker finished cleanly. -/
def passedCode : Int32 := 0

/-- The code of a target whose worker failed. -/
def failedCode : Int32 := 1

/-- The code of a target that was made to end. -/
def forcedCode : Int32 := -1

def passed (report : WorkerReport) : TargetExit := ⟨passedCode, some report, none⟩

def failed (failure : String) : TargetExit := ⟨failedCode, none, some failure⟩

def forced (code : Int32) (reason : String) : TargetExit := ⟨code, none, some reason⟩

def isSuccess (e : TargetExit) : Bool := e.code == passedCode

end TargetExit

/-! ## On the wire -/

instance : Wire ThreadId where
  toJson t := Wire.toJson t.number
  ofJson? ctx j := (Wire.ofJson? ctx j).map ThreadId.mk

instance : Wire Location where
  toJson l := Json.record [("method", Wire.toJson l.method), ("line", Wire.toJson l.line)]
  ofJson? ctx j := do
    let [method, line] ← j.fields? ["method", "line"] | none
    let ctx := ctx.inner
    some ⟨← Json.required ctx method, ← Json.required ctx line⟩

instance : Wire SuspendPolicy where
  toJson p := Json.ofString p.name
  ofJson? ctx j := (j.name? ctx).bind SuspendPolicy.ofName?

instance : Wire Transport where
  toJson t := Json.ofString t.name
  ofJson? ctx j := (j.name? ctx).bind Transport.ofName?

instance : Wire WorkerReport where
  toJson r := Json.record
    [("mode", Wire.toJson r.mode),
     ("iterations_completed", Wire.toJson r.iterationsCompleted),
     ("interrupts_observed", Wire.toJson r.interruptsObserved),
     ("interrupts_sent", Wire.toJson r.interruptsSent)]
  ofJson? ctx j := do
    let [mode, completed, observed, sent] ← j.fields?
      ["mode", "iterations_completed", "interrupts_observed", "interrupts_sent"] | none
    let ctx := ctx.inner
    some ⟨← Json.required ctx mode, ← Json.required ctx completed, ← Json.required ctx observed,
      ← Json.optional ctx sent⟩

instance : Wire GeneratorReport where
  toJson r := Json.record
    [("strategy", Wire.toJson r.strategy), ("interrupts_sent", Wire.toJson r.interruptsSent)]
  ofJson? ctx j := do
    let [strategy, sent] ← j.fields? ["strategy", "interrupts_sent"] | none
    let ctx := ctx.inner
    some ⟨← Json.required ctx strategy, ← Json.required ctx sent⟩

instance : Wire TargetExit where
  toJson e := Json.record
    [("code", Wire.toJson e.code), ("report", Wire.toJson e.report),
     ("failure", Wire.toJson e.failure)]
  ofJson? ctx j := do
    let [code, report, failure] ← j.fields? ["code", "report", "failure"] | none
    let ctx := ctx.inner
    some ⟨← Json.required ctx code, ← Json.optional ctx report, ← Json.optional ctx failure⟩

end InterruptStress
