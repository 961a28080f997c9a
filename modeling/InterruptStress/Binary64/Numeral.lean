import InterruptStress.Binary64.Rounding
import InterruptStress.Text.Digits

/-!
# Reading a binary64 number

The text of a number is an optional sign followed by a decimal (digits with at most one
point among or around them, at least one digit in all, and an optional exponent), or by one of
the words for infinity and NaN in any case.  The value is the binary64 number nearest to the
decimal.
-/

namespace InterruptStress.Binary64

/-- An unsigned decimal: its digits without the point, and the power of ten of the last. -/
structure Scientific where
  digits : List Char
  exponent : Int

/-- Reads the digits of an exponent after its optional sign. -/
def readExponent? (cs : List Char) : Option Int :=
  match cs with
  | '-' :: rest => (Text.ofDigits? rest).map fun n => -(n : Int)
  | '+' :: rest => (Text.ofDigits? rest).map fun n => (n : Int)
  | rest => (Text.ofDigits? rest).map fun n => (n : Int)

/-- Reads an unsigned decimal. -/
def Scientific.read? (cs : List Char) : Option Scientific :=
  let (whole, afterWhole) := Text.spanDigits cs
  let (fraction, rest) := match afterWhole with
    | '.' :: more => Text.spanDigits more
    | more => ([], more)
  if whole.isEmpty && fraction.isEmpty then none
  else
    let places : Int := -(fraction.length : Int)
    match rest with
    | [] => some ⟨whole ++ fraction, places⟩
    | c :: more =>
      if c = 'e' ∨ c = 'E' then
        (readExponent? more).map fun e => ⟨whole ++ fraction, places + e⟩
      else none

/-- The number nearest to a decimal.  A decimal of 10^310 or more is an infinity and one below
10^-330 a zero, whatever its digits are, so no power of ten beyond these is ever built. -/
def ofScientific (negative : Bool) (s : Scientific) : Binary64 :=
  let kept := s.digits.dropWhile (· == '0')
  if kept.isEmpty then ofSignAndBits negative 0
  else
    let top : Int := s.exponent + (kept.length : Int)
    if 310 < top then infinity negative
    else if top < -330 then ofSignAndBits negative 0
    else ofMagnitude negative ((Text.ofDigits kept : Rat) * (10 : Rat) ^ s.exponent)

/-- Reads an unsigned number or word. -/
def readUnsigned? (negative : Bool) (cs : List Char) : Option Binary64 :=
  let word := String.ofList (cs.map Char.toLower)
  if word = "inf" ∨ word = "infinity" then some (infinity negative)
  else if word = "nan" then some nan
  else (Scientific.read? cs).map (ofScientific negative)

/-- Reads the text of a number. -/
def read? (cs : List Char) : Option Binary64 :=
  match cs with
  | '-' :: rest => readUnsigned? true rest
  | '+' :: rest => readUnsigned? false rest
  | rest => readUnsigned? false rest

end InterruptStress.Binary64
