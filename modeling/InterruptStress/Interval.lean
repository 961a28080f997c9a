import InterruptStress.Binary64.Numeral
import InterruptStress.Binary64.Shortest
import InterruptStress.Duration
import InterruptStress.ErrorReport
import InterruptStress.Text.Blank
import InterruptStress.Text.Utf8

/-!
# The watchdog's interval

The interval is a base duration scaled by a factor, which slow machines set through the
environment.
-/

namespace InterruptStress

/-- Why no interval results. -/
structure IntervalError where
  base : Duration
  factor : Binary64
  cause : Duration.SecondsError
deriving DecidableEq

def IntervalError.report (e : IntervalError) : ErrorReport :=
  (ErrorReport.of e.cause.message).context
    s!"Watchdog interval {e.base.unitText} scaled by {e.factor.display} is out of range"

/-- The base in seconds times the factor, to the nearest nanosecond. -/
def scaledInterval (base : Duration) (factor : Binary64) : Except IntervalError Duration :=
  (Duration.ofSeconds (base.toSeconds.mul factor)).mapError fun cause => ⟨base, factor, cause⟩

namespace TimeoutFactor

/-- The environment variable that holds the factor. -/
def variableName : String := "IH_TIMEOUT_FACTOR"

/-- The text of the variable.  Bytes that are no text count as if it were not set. -/
def text? (value : Option (List UInt8)) : Option String :=
  value.bind fun bytes => (Text.ofBytes? bytes).map String.ofList

/-- The value of the variable is no number. -/
structure InvalidValue where
  value : String
deriving DecidableEq

def InvalidValue.report (e : InvalidValue) : ErrorReport :=
  (ErrorReport.of "invalid float literal").context s!"Invalid {variableName} value '{e.value}'"

/-- The factor that the environment asks for; a blank value asks for none. -/
def ofEnvironment (value : Option String) : Except InvalidValue (Option Binary64) :=
  match value with
  | none => .ok none
  | some text =>
    let trimmed := Text.trim text.toList
    if trimmed.isEmpty then .ok none
    else
      match Binary64.read? trimmed with
      | some factor => .ok (some factor)
      | none => .error ⟨text⟩

end TimeoutFactor

end InterruptStress
