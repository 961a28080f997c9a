import InterruptStress.Binary64.Rounding
import InterruptStress.Text.Digits

/-!
# The shortest decimal of a binary64 number

The rationals that round to a number form an interval; its ends belong to it when the
significand is even.  Among the decimals in that interval the ones with the fewest digits are
chosen, of those the nearest to the number, and of two equally near the larger.  It is found
by trying the two neighbours of the number on the grids of one, two, … seventeen digits.
-/

namespace InterruptStress.Binary64

/-- The rationals that round to a finite positive number. -/
structure RoundingInterval where
  low : Rat
  high : Rat
  closed : Bool

def RoundingInterval.contains (i : RoundingInterval) (x : Rat) : Bool :=
  if i.closed then decide (i.low ≤ x ∧ x ≤ i.high) else decide (i.low < x ∧ x < i.high)

/-- Below a power of two the numbers are twice as dense, so the lower half of its interval is
half as wide. -/
def roundingInterval (x : Binary64) : RoundingInterval :=
  let unit := (2 : Rat) ^ x.exponent
  let below := if x.significand = 4_503_599_627_370_496 ∧ -1074 < x.exponent then unit / 4 else unit / 2
  ⟨x.magnitude - below, x.magnitude + unit / 2, x.significand % 2 == 0⟩

/-- The first `e` from a start on with `x < 10 ^ e`, within a number of tries. -/
def firstPowerAbove (x : Rat) : Nat → Int → Int
  | 0, e => e
  | tries + 1, e => if x < (10 : Rat) ^ e then e else firstPowerAbove x tries (e + 1)

/-- The least `e` with `x < 10 ^ e`, for a positive `x` of the size of a binary64 number.
Three and four tenths enclose the decimal logarithm of two, so the search starts at or below
its goal and needs at most 110 steps. -/
def decimalCeiling (x : Rat) : Int :=
  let e := floorLog2 x
  firstPowerAbove x 120 (if 0 ≤ e then e * 3 / 10 else e * 4 / 10)

/-- A decimal: an integer counted in units of a power of ten. -/
structure Decimal where
  coefficient : Nat
  exponent : Int
deriving DecidableEq

/-- The better of the two neighbours of `x` on the grid `10 ^ e`, if one is in the interval. -/
def gridCandidate (i : RoundingInterval) (x : Rat) (e : Int) : Option Decimal :=
  let scaled := x / (10 : Rat) ^ e
  let below := scaled.floor
  let lower := (below : Rat) * (10 : Rat) ^ e
  let upper := ((below + 1 : Int) : Rat) * (10 : Rat) ^ e
  match i.contains lower, i.contains upper with
  | true, true => some ⟨(if x - lower < upper - x then below else below + 1).toNat, e⟩
  | true, false => some ⟨below.toNat, e⟩
  | false, true => some ⟨(below + 1).toNat, e⟩
  | false, false => none

/-- Tries ever finer grids, `count` of them, from the grid `10 ^ e` on. -/
def searchGrids (i : RoundingInterval) (x : Rat) : Nat → Int → Decimal
  | 0, e => ⟨(x / (10 : Rat) ^ e).floor.toNat, e⟩
  | count + 1, e => (gridCandidate i x e).getD (searchGrids i x count (e - 1))

/-- The shortest decimal of a finite positive number. -/
def shortest (x : Binary64) : Decimal :=
  searchGrids x.roundingInterval x.magnitude 17 (decimalCeiling x.magnitude - 1)

/-- Writes a decimal without an exponent. -/
def Decimal.positional (d : Decimal) : List Char :=
  let cs := Text.digits d.coefficient
  if 0 ≤ d.exponent then cs ++ List.replicate d.exponent.toNat '0'
  else
    let places := (-d.exponent).toNat
    let filled := List.replicate (places + 1 - cs.length) '0' ++ cs
    let whole := filled.take (filled.length - places)
    let fraction := ((filled.drop (filled.length - places)).reverse.dropWhile (· == '0')).reverse
    if fraction.isEmpty then whole else whole ++ '.' :: fraction

/-- The text of a number in a message: its shortest decimal, never with an exponent, and
without a fraction when it is integral. -/
def display (x : Binary64) : String :=
  if x.isNaN then "NaN"
  else
    let sign := if x.isNegative then "-" else ""
    if x.isInfinite then sign ++ "inf"
    else if x.isZero then sign ++ "0"
    else sign ++ String.ofList x.shortest.positional

/-- The text of a non-negative rational with one decimal place, a half going to the even
digit. -/
def oneDecimal (x : Rat) : String :=
  let tenths := (roundHalfEven (x * 10)).toNat
  String.ofList (Text.digits (tenths / 10) ++ '.' :: Text.digits (tenths % 10))

end InterruptStress.Binary64
