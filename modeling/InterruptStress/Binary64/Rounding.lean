import InterruptStress.Binary64.Basic

/-!
# Rounding to binary64

Every operation on binary64 numbers is exact arithmetic on rationals followed by one
rounding: to the nearest representable number, and between two of them to the one whose
significand is even.  `roundHalfEven` is that rule on integers, and `ofMagnitude` applies it
on the grid that binary64 has at the size of its argument.
-/

namespace InterruptStress

/-- The nearest integer; halfway between two, the even one. -/
def roundHalfEven (x : Rat) : Int :=
  let below := x.floor
  let rest := x - below
  if rest < 1 / 2 then below
  else if 1 / 2 < rest then below + 1
  else if below % 2 = 0 then below else below + 1

/-- The largest `e` with `2 ^ e ≤ x`, for a positive `x`. -/
def floorLog2 (x : Rat) : Int :=
  let guess := (x.num.natAbs.log2 : Int) - (x.den.log2 : Int)
  if (2 : Rat) ^ guess ≤ x then guess else guess - 1

namespace Binary64

/-- The spacing exponent of binary64 at the size of `x`. -/
def gridExponent (x : Rat) : Int := max (floorLog2 x - 52) (-1074)

/-- The number nearest to a non-negative rational, with the given sign; beyond the largest
finite number it is an infinity.  Significand and exponent are added up, so that a
significand that rounds up to the next power of two carries into the exponent. -/
def ofMagnitude (negative : Bool) (x : Rat) : Binary64 :=
  if x = 0 then ofSignAndBits negative 0
  else
    let q := gridExponent x
    let m := (roundHalfEven (x / (2 : Rat) ^ q)).toNat
    ofSignAndBits negative (min ((q + 1074).toNat * 4_503_599_627_370_496 + m) infinityBits)

/-- The number nearest to a rational. -/
def ofRat (x : Rat) : Binary64 := ofMagnitude (decide (x < 0)) x.abs

def ofNat (n : Nat) : Binary64 := ofRat (n : Rat)

/-- The product.  Zero times infinity, and anything times NaN, is NaN. -/
def mul (x y : Binary64) : Binary64 :=
  let negative := x.isNegative != y.isNegative
  if x.isNaN || y.isNaN then nan
  else if x.isInfinite || y.isInfinite then
    if x.isZero || y.isZero then nan else infinity negative
  else ofMagnitude negative (x.magnitude * y.magnitude)

end Binary64

end InterruptStress
