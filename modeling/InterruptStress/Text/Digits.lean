/-!
# Decimal digits

Reading a run of decimal digits and writing a number with them.  The two meet in
`ofDigits_digits`: the digits of a number are read back as that number.
-/

namespace InterruptStress.Text

/-- The decimal digits of a number, without leading zeros; zero is one digit. -/
def digits (n : Nat) : List Char := Nat.toDigits 10 n

/-- The number that a list of decimal digits stands for. -/
def ofDigits (cs : List Char) : Nat := Nat.ofDigitChars 10 cs 0

/-- The longest run of digits in front, and what follows it. -/
def spanDigits (cs : List Char) : List Char × List Char :=
  (cs.takeWhile Char.isDigit, cs.dropWhile Char.isDigit)

/-- The number written by a text that is nothing but digits, and at least one of them. -/
def ofDigits? (cs : List Char) : Option Nat :=
  if cs.isEmpty || !cs.all Char.isDigit then none else some (ofDigits cs)

/-- The digits of a number, padded on the left with zeros up to a width. -/
def padded (width n : Nat) : List Char :=
  List.replicate (width - (digits n).length) '0' ++ digits n

theorem ofDigits_digits (n : Nat) : ofDigits (digits n) = n :=
  Nat.ofDigitChars_toDigits (by decide) (by decide)

theorem isDigit_of_mem_digits {n : Nat} {c : Char} (h : c ∈ digits n) : c.isDigit = true :=
  Nat.isDigit_of_mem_toDigits (by decide) (by decide) h

theorem digits_ne_nil (n : Nat) : digits n ≠ [] := Nat.toDigits_ne_nil

theorem ofDigits?_digits (n : Nat) : ofDigits? (digits n) = some n := by
  have hempty : (digits n).isEmpty = false := by simp [digits_ne_nil]
  have hall : (digits n).all Char.isDigit = true :=
    List.all_eq_true.2 fun _ h => isDigit_of_mem_digits h
  simp [ofDigits?, hempty, hall, ofDigits_digits]

end InterruptStress.Text
