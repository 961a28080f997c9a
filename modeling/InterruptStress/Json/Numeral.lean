import InterruptStress.Binary64.Rounding
import InterruptStress.Text.Digits

/-!
# Numbers of JSON

A number is kept as it was written: sign, digits, an optional fraction and an optional
exponent.  Two questions are asked of it: which integer it is, and whether it is small enough
to be held as a binary64 number.
-/

namespace InterruptStress.Json

/-- The exponent of a number. -/
structure NumeralExponent where
  negative : Bool
  digits : List Char
deriving DecidableEq

/-- A number as written.  Empty lists of digits do not occur in what is read. -/
structure Numeral where
  negative : Bool
  whole : List Char
  fraction : Option (List Char)
  exponent : Option NumeralExponent
deriving DecidableEq

namespace Numeral

/-- The number that stands for an integer. -/
def ofInt (n : Int) : Numeral := ⟨decide (n < 0), Text.digits n.natAbs, none, none⟩

/-- The integer a number is, if it has neither fraction nor exponent.  A negative zero is no
integer. -/
def integer? (n : Numeral) : Option Int :=
  match n.fraction, n.exponent with
  | none, none =>
    let value := Text.ofDigits n.whole
    if n.negative then if value = 0 then none else some (-(value : Int)) else some value
  | _, _ => none

/-- Digits gathered into 64 bits, and the power of ten of the last one kept. -/
structure Gathered where
  significand : Nat
  exponent : Int

/-- Takes in a digit in front of the point: kept while the significand fits into 64 bits; the
first one that does not fit and all after it only count. -/
def Gathered.addWhole (g : Gathered) (d : Char) : Gathered :=
  let next := g.significand * 10 + (d.toNat - '0'.toNat)
  if g.exponent = 0 ∧ next < 18_446_744_073_709_551_616 then ⟨next, 0⟩ else ⟨g.significand, g.exponent + 1⟩

/-- Takes in the digits behind the point, up to the first that does not fit. -/
def Gathered.addFraction (g : Gathered) : List Char → Gathered
  | [] => g
  | d :: rest =>
    let next := g.significand * 10 + (d.toNat - '0'.toNat)
    if next < 18_446_744_073_709_551_616 then Gathered.addFraction ⟨next, g.exponent - 1⟩ rest else g

def gathered (n : Numeral) : Gathered :=
  let whole := n.whole.foldl Gathered.addWhole ⟨0, 0⟩
  let all := whole.addFraction (n.fraction.getD [])
  match n.exponent with
  | none => all
  | some e =>
    let power : Int := Text.ofDigits e.digits
    ⟨all.significand, if e.negative then all.exponent - power else all.exponent + power⟩

/-- Whether a number can be held in binary64.  The significand is rounded, multiplied with the
rounded power of ten, and the product rounded; only a product that is infinite is too large,
and so is any power beyond the largest finite one. -/
def inRange (n : Numeral) : Bool :=
  let g := n.gathered
  if g.significand = 0 ∨ g.exponent < 0 then true
  else if 308 < g.exponent then false
  else
    let power := Binary64.ofNat (Nat.pow 10 g.exponent.toNat)
    ((Binary64.ofNat g.significand).mul power).isFinite

/-- The text of a number. -/
def text (n : Numeral) : List Char :=
  (if n.negative then ['-'] else []) ++ n.whole ++
    (match n.fraction with
      | none => []
      | some ds => '.' :: ds) ++
    (match n.exponent with
      | none => []
      | some e => 'e' :: ((if e.negative then ['-'] else []) ++ e.digits))

theorem integer?_ofInt (n : Int) : (ofInt n).integer? = some n := by
  simp only [integer?, ofInt, Text.ofDigits_digits]
  by_cases h : n < 0
  · have hne : n.natAbs ≠ 0 := by omega
    simp only [h, decide_true, if_true, hne, if_false]
    congr 1; omega
  · simp only [h, decide_false, Bool.false_eq_true, if_false]
    congr 1; omega

end Numeral

end InterruptStress.Json
