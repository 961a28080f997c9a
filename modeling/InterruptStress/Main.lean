import InterruptStress.LineTable.Program
import InterruptStress.Program.Execution
import InterruptStress.RunId
import InterruptStress.Yaml.Config
import Std.Time.DateTime.Timestamp

/-!
# The commands

With `linetab` as its first argument the program is the line-table command, and else the
harness.  Runs keep the schedule of `SupervisedRun`, with a clock that really passes; a target
in a process apart is kept behind its pipe, but within this process.
-/

namespace InterruptStress.Commands

def helpText : String :=
  "Usage: ih [--config FILE] [--log-level LEVEL] run --mode MODE [--iterations N] " ++
    "[--timeout-factor X] [--transport process|in-process] [--journal FILE]"

/-- The time since the epoch, in nanoseconds. -/
def wallNanos : IO Nat := do
  return (← Std.Time.Timestamp.now).toNanosecondsSinceUnixEpoch.toInt.toNat

def wallTime : IO Timestamp := do
  let nanos ← wallNanos
  return .ofUnix (nanos / 1000000000) (nanos % 1000000000)

def newRunId : IO String := do
  let random ← IO.getRandomBytes 10
  return RunId.make ((← wallNanos) / 1000000) random.toList

/-! ## Surroundings -/

/-- Adds a file, if it can be read. -/
def addFile (files : Files) (path : String) (place : FilePath) : IO Files := do
  try
    let content ← IO.FS.readBinFile path
    return files.put place (.file content.toList)
  catch _ => return files

/-- The directory of the user's configurations. -/
def userDirectory : IO (Option String) := do
  match ← IO.getEnv "XDG_CONFIG_HOME", ← IO.getEnv "HOME" with
  | some directory, _ => return some directory
  | none, some home => return some (home ++ "/.config")
  | none, none => return none

/-- The bytes of an environment variable.  The process's own list is read where there is one:
`IO.getEnv` puts other characters for bytes that are no text. -/
def variableBytes (name : String) : IO (Option (List UInt8)) := do
  let start := Text.toBytes (name ++ "=").toList
  try
    let entries := (← IO.FS.readBinFile "/proc/self/environ").toList.splitOn 0
    return (entries.find? start.isPrefixOf).map (List.drop start.length)
  catch _ => return (← IO.getEnv name).map fun text => Text.toBytes text.toList

/-- Reads the configuration files that may be asked for. -/
def surroundings (asked : Option String) : IO Surroundings := do
  let directory := FilePath.names (← IO.currentDir).toString
  let user ← userDirectory
  let mut files := Files.empty
  if let some path := asked then
    files ← addFile files path (FilePath.resolve directory path)
  files ← addFile files Config.localName (directory ++ [Config.localName])
  if let some user := user then
    let names := FilePath.names user ++ Config.userNames
    files ← addFile files ("/" ++ "/".intercalate names) names
  let timeoutFactor := TimeoutFactor.text? (← variableBytes TimeoutFactor.variableName)
  return ⟨Config.ofText?, files, directory, user.map FilePath.names, timeoutFactor⟩

/-! ## Showing -/

def printLines (lines : List String) : IO Unit := do
  let out ← IO.getStdout
  lines.forM out.putStrLn
  out.flush

def printErrors (lines : List String) : IO Unit := do
  let err ← IO.getStderr
  lines.forM err.putStrLn

def fail (e : ProgramError) : IO UInt32 := do
  printErrors (e.lines.mapIdx fun i line => if i = 0 then "Error: " ++ line else "  " ++ line)
  return 1

/-! ## Runs -/

/-- Opens the journal at a path. -/
def openJournal (path : String) : IO (Except ProgramError IO.FS.Handle) := do
  if let some above := FilePath.parentText? path then
    try IO.FS.createDirAll above
    catch _ => return .error ⟨(JournalError.createDirectory above).report, 1⟩
  try
    return .ok (← IO.FS.Handle.mk path .append)
  catch _ => return .error ⟨(JournalError.openFile path).report, 1⟩

/-- Writes to the file what the journal of a run has just handed to it. -/
def writeLatest (journal : Option IO.FS.Handle) (before after : BufferedFile) : IO Bool := do
  let fresh := after.latestFirst.take (after.latestFirst.length - before.latestFirst.length)
  match journal with
  | none => return true
  | some handle =>
    try
      handle.write (ByteArray.mk fresh.reverse.flatten.toArray)
      handle.flush
      return true
    catch _ => return false

/-- Waits until a time on the clock, but not for longer than a second at once. -/
def waitUntil (now due : Nat) : IO Unit := do
  let millis := min 1000 ((due - now + 999999) / 1000000)
  IO.sleep (UInt32.ofNat (max 1 millis))

/-- Carries a run on to its end. -/
partial def carryOn (started : Nat) (journal : Option IO.FS.Handle) (r : SupervisedRun) :
    IO SupervisedRun := do
  if r.controller.phase = .finished then return r
  let now := (← IO.monoNanosNow) - started
  let r := { r with now := max r.now now }
  let time ← wallTime
  match r.move (.receive (.free time)) with
  | some received =>
    if ← writeLatest journal r.controller.log.file received.controller.log.file then
      carryOn started journal received
    else carryOn started journal ((r.move (.receive (.full time))).getD received)
  | none =>
    match r.moveNow with
    | some moved => carryOn started journal moved
    | none =>
      match r.dues.min? with
      | some due => waitUntil r.now due; carryOn started journal r
      | none => return r

def run (plan : RunPlan) (childWarnings : List String) : IO UInt32 := do
  let runId ← newRunId
  let journal ← match plan.journal with
    | none => pure (.ok none)
    | some path => do pure ((← openJournal path).map some)
  match journal with
  | .error e => fail e
  | .ok journal =>
    printLines [plan.announcement]
    printErrors childWarnings
    let r ← carryOn (← IO.monoNanosNow) journal (plan.run runId (← wallTime))
    let report := r.controller.report runId
    printLines (RunPlan.resultLines report)
    match plan.failure? report with
    | some e => fail e
    | none => return 0

/-! ## Targets -/

/-- A line of input that is being waited for. -/
def nextLine : IO (Task (Except IO.Error String)) := do
  let input ← IO.getStdin
  IO.asTask input.getLine Task.Priority.dedicated

/-- Serves a target to its end. -/
partial def serve (started : Nat) (input : Option (Task (Except IO.Error String)))
    (d : LineDialogue) : IO UInt32 := do
  let now := (← IO.monoNanosNow) - started
  let d := { d with now := max d.now now }
  match d.served.write with
  | some (event, served) =>
    printLines (event.toList.map Wire.encode)
    if served.ended then return UInt32.ofNat { d with served }.exitCode
    else serve started input { d with served }
  | none =>
    match d.moveNow, input with
    | some d, _ => serve started input d
    | none, some line =>
      if ← IO.hasFinished line then
        match line.get with
        | .ok text =>
          if text.isEmpty then serve started none d.close
          else
            let line ← nextLine
            serve started (some line) (d.write text.toUTF8.toList)
        | .error _ => serve started none d.close
      else
        IO.sleep 1
        serve started input d
    | none, none =>
      IO.sleep 1
      serve started none d

/-! ## Both commands -/

def harness (args : List String) : IO UInt32 := do
  let asked := match CommandLine.parse args with
    | .ok request => request.config
    | .error _ => none
  let s ← surroundings asked
  let (warnings, job) := s.job args
  printErrors warnings
  match job with
  | .error outcome =>
    printLines outcome.output
    match outcome.error with
    | some e => fail e
    | none =>
      if outcome.output.isEmpty then printErrors [helpText]
      return UInt32.ofNat outcome.code
  | .ok (.run plan) => run plan (plan.childWarnings s)
  | .ok (.serve settings) =>
    let input ← nextLine
    serve (← IO.monoNanosNow) (some input) (.start settings)

def lineTable (args : List String) : IO UInt32 := do
  let outcome := LineTable.run args
  printLines outcome.output
  return UInt32.ofNat (outcome.code % 256).toNat

end InterruptStress.Commands

def main (args : List String) : IO UInt32 :=
  match args with
  | "linetab" :: args => InterruptStress.Commands.lineTable args
  | args => InterruptStress.Commands.harness args
