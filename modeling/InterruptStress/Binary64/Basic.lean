/-!
# Binary64 numbers

A number of the 64-bit binary format is its bit pattern.  This module says what a pattern
stands for: a sign, and for a finite number a significand below 2^53 and a power of two, so
that every later statement is about exact rationals.
-/

namespace InterruptStress

/-- A number of the 64-bit binary format, as its bit pattern. -/
structure Binary64 where
  bits : UInt64
deriving DecidableEq

namespace Binary64

/-- The eleven bits of the biased exponent. -/
def biasedExponent (x : Binary64) : Nat := x.bits.toNat / 4_503_599_627_370_496 % 2048

/-- The 52 bits below the exponent. -/
def trailing (x : Binary64) : Nat := x.bits.toNat % 4_503_599_627_370_496

def isNegative (x : Binary64) : Bool := decide (9_223_372_036_854_775_808 ≤ x.bits.toNat)

def isFinite (x : Binary64) : Bool := decide (x.biasedExponent ≠ 2047)

def isNaN (x : Binary64) : Bool := decide (x.biasedExponent = 2047 ∧ x.trailing ≠ 0)

def isInfinite (x : Binary64) : Bool := decide (x.biasedExponent = 2047 ∧ x.trailing = 0)

/-- The significand of a finite number: the leading bit is implicit unless the number is
subnormal. -/
def significand (x : Binary64) : Nat :=
  if x.biasedExponent = 0 then x.trailing else 4_503_599_627_370_496 + x.trailing

/-- The power of two that the significand counts. -/
def exponent (x : Binary64) : Int :=
  if x.biasedExponent = 0 then -1074 else (x.biasedExponent : Int) - 1075

/-- The absolute value of a finite number. -/
def magnitude (x : Binary64) : Rat := (x.significand : Rat) * (2 : Rat) ^ x.exponent

/-- The value of a finite number. -/
def toRat (x : Binary64) : Rat := if x.isNegative then -x.magnitude else x.magnitude

/-- A zero of either sign. -/
def isZero (x : Binary64) : Bool := x.isFinite && x.significand == 0

/-- The pattern with a given sign whose other 63 bits are `n`. -/
def ofSignAndBits (negative : Bool) (n : Nat) : Binary64 :=
  ⟨UInt64.ofNat ((if negative then 9_223_372_036_854_775_808 else 0) + n)⟩

/-- The 63 bits of an infinity. -/
def infinityBits : Nat := 2047 * 4_503_599_627_370_496

def infinity (negative : Bool) : Binary64 := ofSignAndBits negative infinityBits

/-- The quiet NaN with an empty payload. -/
def nan : Binary64 := ofSignAndBits false (infinityBits + 2_251_799_813_685_248)

def zero : Binary64 := ofSignAndBits false 0

/-- Strictly below zero: negative infinity counts, a zero of either sign and NaN do not. -/
def isBelowZero (x : Binary64) : Bool := x.isNegative && !x.isNaN && !x.isZero

end Binary64

end InterruptStress
