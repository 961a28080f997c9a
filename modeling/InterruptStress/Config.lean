import InterruptStress.Files
import InterruptStress.Interval
import InterruptStress.Settings
import InterruptStress.Text.Utf8

/-!
# Configuration

What a configuration has, in which file it is looked for, what the environment changes, and which
configurations are refused before a run.  What the text of a file says is up to a reader of such
texts, which is a parameter here.
-/

namespace InterruptStress

/-- How the target is driven. -/
structure RunConfig where
  iterations : UInt32
  sleepMs : UInt64
  interruptPauseMs : UInt64
  suspend : SuspendPolicy
  transport : Transport
deriving DecidableEq

/-- How often the watchdog looks, before and by scaling. -/
structure WatchdogConfig where
  baseIntervalMs : UInt64
  timeoutFactor : Binary64
deriving DecidableEq

structure Config where
  logLevel : Option String
  journal : Option String
  run : RunConfig
  watchdog : WatchdogConfig
deriving DecidableEq

namespace RunConfig

def default : RunConfig := ⟨200, 100, 5, .thread, .process⟩

end RunConfig

namespace WatchdogConfig

def default : WatchdogConfig := ⟨20000, .ofNat 1⟩

/-- The base scaled by the factor. -/
def interval (w : WatchdogConfig) : Except IntervalError Duration :=
  scaledInterval (.ofMillis w.baseIntervalMs) w.timeoutFactor

end WatchdogConfig

/-- What holds where no file says otherwise. -/
def Config.default : Config := ⟨none, none, .default, .default⟩

namespace Config

/-! ## Finding the file -/

/-- Why a file gives no configuration. -/
inductive FileFailure where
  | unreadable
  | malformed
deriving DecidableEq

def FileFailure.message : FileFailure → String
  | unreadable => "Failed to read config file"
  | malformed => "Failed to parse config file"

/-- A file that was asked for gives no configuration. -/
structure LoadError where
  path : String
  failure : FileFailure
deriving DecidableEq

def LoadError.report (e : LoadError) : ErrorReport :=
  (ErrorReport.of e.failure.message).context s!"Failed to load config from {e.path}"

/-- What the text of a configuration file says, if it says any configuration. -/
abbrev Reader := String → Option Config

/-- The configuration that a file's bytes hold. -/
def ofBytes (read? : Reader) (content : List UInt8) : Except FileFailure Config :=
  match Text.ofBytes? content with
  | none => .error .unreadable
  | some text =>
    match read? (String.ofList text) with
    | none => .error .malformed
    | some config => .ok config

/-- The configuration of the file at a path. -/
def ofFile (read? : Reader) (files : Files) (path : FilePath) : Except FileFailure Config :=
  match files.content? path with
  | none => .error .unreadable
  | some content => ofBytes read? content

/-- The file of a project, in the working directory. -/
def localName : String := ".interrupthang.yml"

/-- The file of a user, in the directory of the user's configurations. -/
def userNames : FilePath := ["interrupthang", "interrupthang.yml"]

/-- The configuration to start from: that of the file asked for; if none is, the first that
loads of the project's file, the user's file and the defaults. -/
def load (read? : Reader) (files : Files) (directory : FilePath)
    (userDirectory : Option FilePath) (asked : Option String) : Except LoadError Config :=
  match asked with
  | some path =>
    (ofFile read? files (FilePath.resolve directory path)).mapError fun failure => ⟨path, failure⟩
  | none =>
    match ofFile read? files (directory ++ [localName]) with
    | .ok config => .ok config
    | .error _ =>
      match userDirectory.map fun d => ofFile read? files (d ++ userNames) with
      | some (.ok config) => .ok config
      | _ => .ok default

/-- The log level a load would give; a load that fails gives none. -/
def peekLogLevel (read? : Reader) (files : Files) (directory : FilePath)
    (userDirectory : Option FilePath) (asked : Option String) : Option String :=
  match load read? files directory userDirectory asked with
  | .ok config => config.logLevel
  | .error _ => none

/-! ## From a file to a run -/

/-- Takes the timeout factor from the environment if it holds one. -/
def applyEnvironment (config : Config) (value : Option String) :
    Except TimeoutFactor.InvalidValue Config :=
  match TimeoutFactor.ofEnvironment value with
  | .error e => .error e
  | .ok none => .ok config
  | .ok (some factor) => .ok { config with watchdog.timeoutFactor := factor }

/-- Why a configuration is refused. -/
inductive Refusal where
  | noIterations
  | badFactor (factor : Binary64)
  | noInterval
  | intervalTooLarge (cause : IntervalError)
deriving DecidableEq

def Refusal.report : Refusal → ErrorReport
  | noIterations => .of "run.iterations must be at least 1"
  | badFactor factor =>
    .of s!"watchdog.timeout-factor must be a positive number, got {factor.display}"
  | noInterval => .of "watchdog.base-interval-ms must be at least 1"
  | intervalTooLarge cause => cause.report.context "watchdog.timeout-factor is too large"

/-- Refuses a configuration that cannot be run. -/
def validate (config : Config) : Except Refusal Unit :=
  let factor := config.watchdog.timeoutFactor
  if config.run.iterations = 0 then .error .noIterations
  else if !factor.isFinite || factor.isZero || factor.isBelowZero then .error (.badFactor factor)
  else if config.watchdog.baseIntervalMs = 0 then .error .noInterval
  else
    match config.watchdog.interval with
    | .error cause => .error (.intervalTooLarge cause)
    | .ok _ => .ok ()

/-- The settings of the worker. -/
def worker (config : Config) (mode : Mode) : WorkerSettings :=
  ⟨mode, config.run.iterations, .ofMillis config.run.sleepMs, .ofMillis config.run.interruptPauseMs⟩

/-- The settings of the controller. -/
def controller (config : Config) (mode : Mode) : Except IntervalError ControllerSettings :=
  match config.watchdog.interval with
  | .error e => .error e
  | .ok interval =>
    .ok ⟨mode, interval, config.run.suspend, .ofMillis config.run.interruptPauseMs, defaultExitGrace⟩

end Config

end InterruptStress
