import InterruptStress.Protocol.Basic

/-!
# Messages

Events go from a target to its controller and commands the other way.  Over a pipe each is one
line of JSON.
-/

namespace InterruptStress

/-- What a target tells its controller. -/
inductive TargetEvent where
  /-- The target is up, its main thread parked until the first resume. -/
  | started (mainThread : ThreadId)
  /-- The traced thread reached a new line. -/
  | step (thread : ThreadId) (location : Location) (suspended : Bool)
  /-- A thread finished. -/
  | threadDeath (thread : ThreadId)
  /-- The target is ending. -/
  | death (exit : TargetExit)
  /-- Nothing follows. -/
  | disconnected
deriving DecidableEq, Inhabited

/-- What a controller asks of its target. -/
inductive ControlCommand where
  /-- Report the lines that a thread reaches. -/
  | createStepRequest (thread : ThreadId) (suspend : SuspendPolicy)
  /-- Release a thread that is parked at the start or on a step. -/
  | resume
  /-- Abort a thread's present or next blocking wait. -/
  | interrupt (thread : ThreadId)
  /-- End with a code. -/
  | exit (code : Int32)
deriving DecidableEq, Inhabited

/-- The type of an event on the wire. -/
def TargetEvent.typeName : TargetEvent → String
  | started _ => "VmStarted"
  | step .. => "Step"
  | threadDeath _ => "ThreadDeath"
  | death _ => "VmDeath"
  | disconnected => "Disconnected"

/-- The type of a command on the wire. -/
def ControlCommand.typeName : ControlCommand → String
  | createStepRequest .. => "CreateStepRequest"
  | resume => "Resume"
  | interrupt _ => "Interrupt"
  | exit _ => "Exit"

def TargetEvent.wireFields : TargetEvent → List (String × Json)
  | started mainThread => [("main_thread", Wire.toJson mainThread)]
  | step thread location suspended =>
    [("thread", Wire.toJson thread), ("location", Wire.toJson location),
     ("suspended", Wire.toJson suspended)]
  | threadDeath thread => [("thread", Wire.toJson thread)]
  | death exit => [("exit", Wire.toJson exit)]
  | disconnected => []

def ControlCommand.wireFields : ControlCommand → List (String × Json)
  | createStepRequest thread suspend =>
    [("thread", Wire.toJson thread), ("suspend", Wire.toJson suspend)]
  | resume => []
  | interrupt thread => [("thread", Wire.toJson thread)]
  | exit code => [("code", Wire.toJson code)]

/-- Reads the fields of an event of the given type. -/
def TargetEvent.ofFields? (ctx : Json.Context) (type : String) (j : Json) :
    Option TargetEvent :=
  match type with
  | "VmStarted" => do
    let [mainThread] ← j.fields? ["main_thread"] | none
    some (.started (← Json.required ctx mainThread))
  | "Step" => do
    let [thread, location, suspended] ← j.fields? ["thread", "location", "suspended"] | none
    some (.step (← Json.required ctx thread) (← Json.required ctx location)
      (← Json.required ctx suspended))
  | "ThreadDeath" => do
    let [thread] ← j.fields? ["thread"] | none
    some (.threadDeath (← Json.required ctx thread))
  | "VmDeath" => do
    let [exit] ← j.fields? ["exit"] | none
    some (.death (← Json.required ctx exit))
  | "Disconnected" => do
    let [] ← j.fields? [] | none
    some .disconnected
  | _ => none

/-- Reads the fields of a command of the given type. -/
def ControlCommand.ofFields? (ctx : Json.Context) (type : String) (j : Json) :
    Option ControlCommand :=
  match type with
  | "CreateStepRequest" => do
    let [thread, suspend] ← j.fields? ["thread", "suspend"] | none
    some (.createStepRequest (← Json.required ctx thread) (← Json.required ctx suspend))
  | "Resume" => do
    let [] ← j.fields? [] | none
    some .resume
  | "Interrupt" => do
    let [thread] ← j.fields? ["thread"] | none
    some (.interrupt (← Json.required ctx thread))
  | "Exit" => do
    let [code] ← j.fields? ["code"] | none
    some (.exit (← Json.required ctx code))
  | _ => none

instance : Wire TargetEvent where
  toJson e := Json.message e.typeName e.wireFields
  ofJson? ctx j := (j.message? ctx).bind fun (type, fields) =>
    TargetEvent.ofFields? ctx.inMessage type fields

instance : Wire ControlCommand where
  toJson c := Json.message c.typeName c.wireFields
  ofJson? ctx j := (j.message? ctx).bind fun (type, fields) =>
    ControlCommand.ofFields? ctx.inMessage type fields

end InterruptStress
