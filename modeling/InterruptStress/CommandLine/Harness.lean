import InterruptStress.Binary64.Numeral
import InterruptStress.CommandLine.Arguments
import InterruptStress.Protocol.Basic

/-!
# The command lines of the harness

`run` carries out one run and `target` is the process that a run starts for itself.  The path
of the configuration and the log level may stand before or after the subcommand; what stands
after it counts.
-/

namespace InterruptStress.CommandLine

/-- The value of an option. -/
inductive Value where
  | path (text : String)
  | text (text : String)
  | mode (mode : Mode)
  | transport (transport : Transport)
  | number (n : Nat)
  | factor (x : Binary64)

namespace Value

def readPath (text : String) : Except Refusal Value :=
  if text.isEmpty then .error .invalidValue else .ok (.path text)

def readText (text : String) : Except Refusal Value := .ok (.text text)

def readMode (text : String) : Except Refusal Value :=
  match Mode.parse text with
  | .ok m => .ok (.mode m)
  | .error _ => .error .valueValidation

/-- The name has to be one of the two that are listed. -/
def readTransport (text : String) : Except Refusal Value :=
  match Transport.ofName? text with
  | some t => .ok (.transport t)
  | none => .error .invalidValue

def readFactor (text : String) : Except Refusal Value :=
  match Binary64.read? text.toList with
  | some x => .ok (.factor x)
  | none => .error .valueValidation

/-- A number below a limit.  Where a sign is read a minus may stand before a zero. -/
def readNumber (limit : Nat) (signed : Bool) (text : String) : Except Refusal Value :=
  let read (cs : List Char) : Except Refusal Nat :=
    match Text.ofDigits? cs with
    | some n => if n < limit then .ok n else .error .valueValidation
    | none => .error .valueValidation
  match text.toList with
  | '+' :: cs => (read cs).map .number
  | '-' :: cs =>
    if signed then (read cs).bind fun n => if n = 0 then .ok (.number 0) else .error .valueValidation
    else .error .valueValidation
  | cs => (read cs).map .number

def readCount : String → Except Refusal Value := readNumber 4_294_967_296 true

def readMillis : String → Except Refusal Value := readNumber 18_446_744_073_709_551_616 false

end Value

/-! ## Options -/

def configOption : OptionSpec Value := ⟨"config", some 'c', .value Value.readPath⟩

def logLevelOption : OptionSpec Value := ⟨"log-level", some 'l', .value Value.readText⟩

def helpOption : OptionSpec Value := ⟨"help", some 'h', .help⟩

def versionOption : OptionSpec Value := ⟨"version", some 'V', .version⟩

/-- The options that every level takes. -/
def sharedOptions : List (OptionSpec Value) := [configOption, logLevelOption, helpOption]

def rootLevel : Level Value :=
  ⟨sharedOptions ++ [versionOption], ["run", "target", "help"]⟩

def runLevel : Level Value :=
  ⟨sharedOptions ++
    [⟨"mode", some 'm', .value Value.readMode⟩,
     ⟨"iterations", some 'i', .value Value.readCount⟩,
     ⟨"timeout-factor", some 't', .value Value.readFactor⟩,
     ⟨"transport", none, .value Value.readTransport⟩,
     ⟨"journal", some 'j', .value Value.readPath⟩], []⟩

def targetLevel : Level Value :=
  ⟨sharedOptions ++
    [⟨"mode", none, .value Value.readMode⟩,
     ⟨"iterations", none, .value Value.readCount⟩,
     ⟨"sleep-ms", none, .value Value.readMillis⟩,
     ⟨"pause-ms", none, .value Value.readMillis⟩], []⟩

/-! ## Requests -/

/-- What is asked of a run; an absent value leaves the configuration as it is. -/
structure RunRequest where
  mode : Mode
  iterations : Option UInt32
  timeoutFactor : Option Binary64
  transport : Option Transport
  journal : Option String
deriving DecidableEq

/-- What a target process is told. -/
structure TargetRequest where
  mode : Mode
  iterations : UInt32
  sleepMs : UInt64
  pauseMs : UInt64
deriving DecidableEq

inductive Subcommand where
  | run (request : RunRequest)
  | target (request : TargetRequest)
deriving DecidableEq

structure Request where
  config : Option String
  logLevel : Option String
  subcommand : Subcommand
deriving DecidableEq

def Value.toPath? : Value → Option String
  | path p => some p
  | _ => none

def Value.toText? : Value → Option String
  | text t => some t
  | _ => none

def Value.toMode? : Value → Option Mode
  | mode m => some m
  | _ => none

def Value.toTransport? : Value → Option Transport
  | transport t => some t
  | _ => none

def Value.toNat? : Value → Option Nat
  | number n => some n
  | _ => none

def Value.toFactor? : Value → Option Binary64
  | factor x => some x
  | _ => none

/-- A value that must have been given. -/
def demand {α : Type} (value : Option α) : Except Refusal α :=
  match value with
  | some a => .ok a
  | none => .error .missingRequired

def RunRequest.ofGiven (g : Given Value) : Except Refusal RunRequest := do
  let mode ← demand ((g.value? "mode").bind Value.toMode?)
  return {
    mode := mode
    iterations := ((g.value? "iterations").bind Value.toNat?).map UInt32.ofNat
    timeoutFactor := (g.value? "timeout-factor").bind Value.toFactor?
    transport := (g.value? "transport").bind Value.toTransport?
    journal := (g.value? "journal").bind Value.toPath? }

def TargetRequest.ofGiven (g : Given Value) : Except Refusal TargetRequest := do
  let mode ← demand ((g.value? "mode").bind Value.toMode?)
  let iterations ← demand ((g.value? "iterations").bind Value.toNat?)
  let sleepMs ← demand ((g.value? "sleep-ms").bind Value.toNat?)
  let pauseMs ← demand ((g.value? "pause-ms").bind Value.toNat?)
  return ⟨mode, UInt32.ofNat iterations, UInt64.ofNat sleepMs, UInt64.ofNat pauseMs⟩

/-- Help on a subcommand, or on none; a name that is no subcommand is refused. -/
def helpRefusal : List String → Refusal
  | [] => .displayHelp
  | name :: rest =>
    if rootLevel.subcommands.contains name && rest.isEmpty then .displayHelp
    else .invalidSubcommand

/-- Reads the arguments of a subcommand; none of them may remain. -/
def readLevel (l : Level Value) (args : List String) : Except Refusal (Given Value) := do
  let (given, _) ← l.take Given.empty args
  given.settle

/-- Reads the arguments after the program's name. -/
def parse (args : List String) : Except Refusal Request := do
  let (given, sub) ← rootLevel.take Given.empty args
  match sub with
  | none =>
    let given ← given.settle
    .error (if given.values.isEmpty then .displayHelpOnMissing else .missingSubcommand)
  | some (name, rest) =>
    if name = "help" then .error (helpRefusal rest)
    else
      let (inner, subcommand) ←
        if name = "run" then do
          let inner ← readLevel runLevel rest
          let request ← RunRequest.ofGiven inner
          pure (inner, Subcommand.run request)
        else do
          let inner ← readLevel targetLevel rest
          let request ← TargetRequest.ofGiven inner
          pure (inner, Subcommand.target request)
      let given ← given.settle
      let shared (long : String) : Option Value := (inner.value? long).or (given.value? long)
      return {
        config := (shared "config").bind Value.toPath?
        logLevel := (shared "log-level").bind Value.toText?
        subcommand := subcommand }

end InterruptStress.CommandLine
