import InterruptStress.Binary64.Rounding
import InterruptStress.Text.Digits

/-!
# Durations

A span of time in whole nanoseconds, kept as seconds and the nanoseconds beyond them.  The
module converts from and to milliseconds, to and from seconds as a binary64 number, and to the
text that messages show.
-/

namespace InterruptStress

/-- A span of time; fewer than 10^9 nanoseconds stand beside the seconds. -/
structure Duration where
  secs : UInt64
  nanos : UInt32
  nanos_lt : nanos.toNat < 1_000_000_000
deriving DecidableEq

namespace Duration

/-- The whole span in nanoseconds. -/
def totalNanos (d : Duration) : Nat := d.secs.toNat * 1_000_000_000 + d.nanos.toNat

theorem toNat_ofNat_mod (n : Nat) : (UInt32.ofNat (n % 1_000_000_000)).toNat = n % 1_000_000_000 := by
  have h : n % 1_000_000_000 < 1_000_000_000 := Nat.mod_lt _ (by decide)
  rw [UInt32.toNat_ofNat', Nat.mod_eq_of_lt (by omega)]

/-- The span of that many nanoseconds, with the seconds reduced to 64 bits. -/
def ofNanos (n : Nat) : Duration where
  secs := UInt64.ofNat (n / 1_000_000_000)
  nanos := UInt32.ofNat (n % 1_000_000_000)
  nanos_lt := by rw [toNat_ofNat_mod]; exact Nat.mod_lt _ (by decide)

/-- The span of that many nanoseconds, if its seconds fit into 64 bits. -/
def ofNanos? (n : Nat) : Option Duration :=
  if n < 18_446_744_073_709_551_616 * 1_000_000_000 then some (ofNanos n) else none

def zero : Duration := ofNanos 0

/-- The span of that many seconds and nanoseconds, where whole seconds among the nanoseconds
are carried, if the seconds then fit into 64 bits. -/
def ofParts? (secs : UInt64) (nanos : UInt32) : Option Duration :=
  ofNanos? (secs.toNat * 1_000_000_000 + nanos.toNat)

def ofMillis (ms : UInt64) : Duration := ofNanos (ms.toNat * 1_000_000)

/-- The whole milliseconds of a span. -/
def toMillis (d : Duration) : Nat := d.totalNanos / 1_000_000

theorem totalNanos_ofNanos {n : Nat} (h : n < 18_446_744_073_709_551_616 * 1_000_000_000) :
    (ofNanos n).totalNanos = n := by
  have hsecs : n / 1_000_000_000 < 18_446_744_073_709_551_616 := Nat.div_lt_of_lt_mul (by omega)
  rw [totalNanos, ofNanos, toNat_ofNat_mod, UInt64.toNat_ofNat', Nat.mod_eq_of_lt hsecs]
  omega

theorem toMillis_ofMillis (ms : UInt64) : (ofMillis ms).toMillis = ms.toNat := by
  have h : ms.toNat < 18_446_744_073_709_551_616 := ms.toNat_lt
  rw [toMillis, ofMillis, totalNanos_ofNanos (by omega)]
  omega

/-! ## Seconds as a binary64 number -/

/-- The span in seconds: both parts are rounded, the nanoseconds divided by 10^9 and rounded,
and the sum rounded. -/
def toSeconds (d : Duration) : Binary64 :=
  let fraction := Binary64.ofRat ((Binary64.ofNat d.nanos.toNat).toRat / 1_000_000_000)
  Binary64.ofRat ((Binary64.ofNat d.secs.toNat).toRat + fraction.toRat)

/-- Why a number of seconds is no span of time. -/
inductive SecondsError where
  | negative
  | tooBigOrNaN
deriving DecidableEq

def SecondsError.message : SecondsError → String
  | negative => "cannot convert float seconds to Duration: value is negative"
  | tooBigOrNaN => "cannot convert float seconds to Duration: value is either too big or NaN"

/-- The span nearest to a number of seconds, a half going to the even nanosecond.  A zero of
either sign is the empty span. -/
def ofSeconds (x : Binary64) : Except SecondsError Duration :=
  if x.isBelowZero then .error .negative
  else if !x.isFinite then .error .tooBigOrNaN
  else
    match ofNanos? (roundHalfEven (x.magnitude * 1_000_000_000)).toNat with
    | some d => .ok d
    | none => .error .tooBigOrNaN

/-! ## Texts -/

/-- A whole number and a fraction of that many places, written without trailing zeros. -/
def decimalText (whole fraction places : Nat) : List Char :=
  let written := ((Text.padded places fraction).reverse.dropWhile (· == '0')).reverse
  Text.digits whole ++ (if fraction = 0 then [] else '.' :: written)

/-- The span in the largest unit of seconds, milliseconds, microseconds and nanoseconds that it
fills at least once. -/
def unitText (d : Duration) : String :=
  let nanos := d.nanos.toNat
  if d.secs ≠ 0 then String.ofList (decimalText d.secs.toNat nanos 9) ++ "s"
  else if 1_000_000 ≤ nanos then
    String.ofList (decimalText (nanos / 1_000_000) (nanos % 1_000_000) 6) ++ "ms"
  else if 1000 ≤ nanos then
    String.ofList (decimalText (nanos / 1000) (nanos % 1000) 3) ++ "µs"
  else String.ofList (decimalText nanos 0 0) ++ "ns"

end Duration

end InterruptStress
