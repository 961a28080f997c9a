import InterruptStress.Config
import InterruptStress.Yaml.Reader

/-!
# Configurations as YAML

A reader of configuration files.  A file is a map of which some keys are known; each of them may be
given once, and where one is missing its default holds.
-/

namespace InterruptStress

namespace ConfigField

/-- An integer below a limit: decimal without superfluous zeros, hexadecimal, octal or
binary. -/
def natural? (limit : Nat) (value : Yaml) : Option Nat := do
  let text ← value.plainText?
  let cs := match text.toList with
    | '+' :: rest => rest
    | cs => cs
  let n ← match cs with
    | '0' :: 'x' :: digits => ofBase? 16 digits
    | '0' :: 'o' :: digits => ofBase? 8 digits
    | '0' :: 'b' :: digits => ofBase? 2 digits
    | '0' :: _ :: _ => none
    | digits => ofBase? 10 digits
  if n < limit then some n else none
where
  ofBase? (base : Nat) (cs : List Char) : Option Nat :=
    if cs.isEmpty then none
    else do
      let digits ← cs.mapM Json.hexValue?
      if digits.all (· < base) then some (digits.foldl (fun n d => n * base + d) 0) else none

def word32? (value : Yaml) : Option UInt32 := (natural? UInt32.size value).map UInt32.ofNat

def word64? (value : Yaml) : Option UInt64 := (natural? UInt64.size value).map UInt64.ofNat

/-- A number that may have a fraction.  Infinity and NaN have spellings of their own, and no
decimal may stand for them. -/
def number? (value : Yaml) : Option Binary64 := do
  let text ← value.plainText?
  if text ∈ [".inf", ".Inf", ".INF", "+.inf", "+.Inf", "+.INF"] then some (.infinity false)
  else if text ∈ ["-.inf", "-.Inf", "-.INF"] then some (.infinity true)
  else if text ∈ [".nan", ".NaN", ".NAN"] then some .nan
  else
    let x ← Binary64.read? text.toList
    if x.isFinite then some x else none

/-- A text that may be left out. -/
def optionalText? (value : Yaml) : Option (Option String) :=
  if value.isNull then some none else value.text?.map some

/-- One of a list of names. -/
def named? {α : Type} (ofName? : String → Option α) (value : Yaml) : Option α :=
  value.text?.bind ofName?

end ConfigField

/-- The known entries of a map, each of which may be given once. -/
structure ConfigSection where
  entries : List (String × Yaml)

namespace ConfigSection

/-- The entries of a map; those with other keys are left unread. -/
def ofYaml? (known : List String) (value : Yaml) : Option ConfigSection := do
  let entries ← value.members?
  let used := entries.filter fun e => e.1 ∈ known
  if (used.map Prod.fst).Nodup then some ⟨used⟩ else none

/-- Reads an entry, or takes the default where it is missing. -/
def field? {α : Type} (s : ConfigSection) (name : String) (read? : Yaml → Option α)
    (default : α) : Option α :=
  match s.entries.lookup name with
  | none => some default
  | some value => read? value

end ConfigSection

namespace RunConfig

def ofYaml? (value : Yaml) : Option RunConfig := do
  let s ← ConfigSection.ofYaml?
    ["iterations", "sleep-ms", "interrupt-pause-ms", "suspend", "transport"] value
  let iterations ← s.field? "iterations" ConfigField.word32? default.iterations
  let sleepMs ← s.field? "sleep-ms" ConfigField.word64? default.sleepMs
  let interruptPauseMs ← s.field? "interrupt-pause-ms" ConfigField.word64? default.interruptPauseMs
  let suspend ← s.field? "suspend" (ConfigField.named? SuspendPolicy.ofName?) default.suspend
  let transport ← s.field? "transport" (ConfigField.named? Transport.ofName?) default.transport
  some ⟨iterations, sleepMs, interruptPauseMs, suspend, transport⟩

end RunConfig

namespace WatchdogConfig

def ofYaml? (value : Yaml) : Option WatchdogConfig := do
  let s ← ConfigSection.ofYaml? ["base-interval-ms", "timeout-factor"] value
  let baseIntervalMs ← s.field? "base-interval-ms" ConfigField.word64? default.baseIntervalMs
  let timeoutFactor ← s.field? "timeout-factor" ConfigField.number? default.timeoutFactor
  some ⟨baseIntervalMs, timeoutFactor⟩

end WatchdogConfig

namespace Config

def ofYaml? (value : Yaml) : Option Config := do
  let s ← ConfigSection.ofYaml? ["log-level", "journal", "run", "watchdog"] value
  let logLevel ← s.field? "log-level" ConfigField.optionalText? none
  let journal ← s.field? "journal" ConfigField.optionalText? none
  let run ← s.field? "run" RunConfig.ofYaml? .default
  let watchdog ← s.field? "watchdog" WatchdogConfig.ofYaml? .default
  some ⟨logLevel, journal, run, watchdog⟩

/-- Reads the text of a configuration file. -/
def ofText? : Reader := fun text => (Yaml.ofText? text).bind ofYaml?

end Config

end InterruptStress
