import InterruptStress.CommandLine.Harness
import InterruptStress.Config
import InterruptStress.JournalFile
import InterruptStress.Report

/-!
# Plans

What is settled before a run starts: the configuration in effect, and with it the settings of
the worker and of the controller, the transport and the journal.  A value on the command line
goes before one from the environment, which goes before the file's.
-/

namespace InterruptStress

/-- What the program finds around it. -/
structure Surroundings where
  /-- How the texts of configuration files are read. -/
  readConfig? : Config.Reader
  files : Files
  /-- The working directory. -/
  directory : FilePath
  /-- Where the user's configurations are, if that is known. -/
  userDirectory : Option FilePath
  /-- The timeout factor in the environment. -/
  timeoutFactor : Option String

/-- Why the program fails. -/
structure ProgramError where
  report : ErrorReport
  /-- How many causes follow whose texts come from elsewhere. -/
  unknownCauses : Nat

namespace ProgramError

def of (report : ErrorReport) : ProgramError := ⟨report, 0⟩

/-- The error as it is shown. -/
def lines (e : ProgramError) : List String := e.report.lines e.unknownCauses

end ProgramError

namespace LogLevel

/-- The capital letter of a letter that a level's name may be spelled with: of the letters
outside ASCII only the dotless i has a capital inside it that occurs in a name. -/
def capital (c : Char) : Char := if c = 'ı' then 'I' else c.toUpper

def names : List String := ["TRACE", "DEBUG", "INFO", "WARN", "WARNING", "ERROR"]

/-- The warning about a level that is none; capital and small letters are the same. -/
def warning? (level : Option String) : Option String :=
  level.bind fun text =>
    if String.ofList (text.toList.map capital) ∈ names then none
    else some s!"Warning: Unknown log-level '{text}', defaulting to INFO"

end LogLevel

/-- The warning about the log level.  One on the command line goes before the file's. -/
def Surroundings.logLevelWarning (s : Surroundings) (config logLevel : Option String) :
    Option String :=
  LogLevel.warning?
    (logLevel.or (Config.peekLogLevel s.readConfig? s.files s.directory s.userDirectory config))

/-- The configuration of the file, or why there is none. -/
def Surroundings.loadConfig (s : Surroundings) (config : Option String) :
    Except ProgramError Config :=
  (Config.load s.readConfig? s.files s.directory s.userDirectory config).mapError fun e =>
    ⟨e.report.context "Failed to load configuration", 1⟩

/-- What a run takes from the command line. -/
def CommandLine.RunRequest.override (q : CommandLine.RunRequest) (config : Config) : Config where
  logLevel := config.logLevel
  journal := q.journal.or config.journal
  run :=
    { config.run with
      iterations := q.iterations.getD config.run.iterations
      transport := q.transport.getD config.run.transport }
  watchdog :=
    { config.watchdog with
      timeoutFactor := q.timeoutFactor.getD config.watchdog.timeoutFactor }

/-- The configuration in effect: the file's, changed by the environment and then by the command
line. -/
def CommandLine.RunRequest.effective (q : CommandLine.RunRequest) (config : Config)
    (timeoutFactor : Option String) : Except TimeoutFactor.InvalidValue Config :=
  (config.applyEnvironment timeoutFactor).map q.override

/-- A run that may start. -/
structure RunPlan where
  mode : Mode
  worker : WorkerSettings
  controller : ControllerSettings
  transport : Transport
  journal : Option String

namespace RunPlan

/-- The plan of a configuration that is in effect, unless it is refused. -/
def ofConfig (config : Config) (mode : Mode) : Except ProgramError RunPlan :=
  match config.validate, config.controller mode with
  | .error e, _ => .error (.of (e.report.context "Invalid configuration"))
  | .ok (), .error e => .error (.of e.report)
  | .ok (), .ok controller =>
    .ok ⟨mode, config.worker mode, controller, config.run.transport, config.journal⟩

/-- The plan of a request. -/
def ofRequest (q : CommandLine.RunRequest) (config : Config) (timeoutFactor : Option String) :
    Except ProgramError RunPlan :=
  match q.effective config timeoutFactor with
  | .error e => .error (.of e.report)
  | .ok config => ofConfig config q.mode

/-- Makes the journal ready, if there is one. -/
def openJournal (p : RunPlan) (s : Surroundings) : Except ProgramError Files :=
  match p.journal with
  | none => .ok s.files
  | some path => (Journal.openFile s.files s.directory path).mapError fun e => ⟨e.report, 1⟩

/-- The line that announces a run. -/
def announcement (p : RunPlan) : String :=
  s!"Running {p.mode.name} mode: {p.worker.iterations.toNat} iterations, " ++
    s!"watchdog {p.controller.interval.secondsText}, transport {p.transport.title}"

/-- The lines that tell what came of a run. -/
def resultLines (r : RunReport) : List String :=
  ["", s!"Steps: {r.steps.toNat}"] ++
    r.interruptsSent.toList.map (fun n => s!"Interrupts sent: {n.toNat}") ++
    r.interruptsObserved.toList.map (fun n => s!"Interrupts observed: {n.toNat}") ++
    if r.passed then [s!"✓ {r.mode.name} mode passed"]
    else r.failures.map fun f => "✗ " ++ f.message

/-- A run that has failed makes the program fail. -/
def failure? (p : RunPlan) (r : RunReport) : Option ProgramError :=
  if r.passed then none
  else some (.of (.of s!"InterruptHang run failed in {p.mode.name} mode"))

end RunPlan

end InterruptStress
