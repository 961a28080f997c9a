import InterruptStress.Json.Wire
import InterruptStress.Text.Blank

/-!
# Time stamps

An instant of the proleptic Gregorian calendar in UTC.  It is read in a lenient form of the
Internet date and time format: blanks may stand between the parts, months, days and times may
have one digit, and an offset from UTC is required and taken off.  It is written strictly.
-/

namespace InterruptStress

/-- A leap year has a 29 February. -/
def isLeapYear (year : Int) : Bool :=
  year % 4 == 0 && (year % 100 != 0 || year % 400 == 0)

/-- The number of days of a month that is counted from 1. -/
def daysInMonth (year : Int) (month : Nat) : Nat :=
  match month with
  | 2 => if isLeapYear year then 29 else 28
  | 4 | 6 | 9 | 11 => 30
  | _ => 31

/-- A day of the calendar. -/
structure Date where
  year : Int
  month : Nat
  day : Nat
deriving DecidableEq, Inhabited

namespace Date

/-- The years that a date can have. -/
def inYearRange (year : Int) : Bool := -262143 ≤ year && year ≤ 262142

def isValid (d : Date) : Bool :=
  inYearRange d.year && 1 ≤ d.month && d.month ≤ 12 && 1 ≤ d.day &&
    d.day ≤ daysInMonth d.year d.month

/-- The day after. -/
def next (d : Date) : Date :=
  if d.day < daysInMonth d.year d.month then { d with day := d.day + 1 }
  else if d.month < 12 then ⟨d.year, d.month + 1, 1⟩
  else ⟨d.year + 1, 1, 1⟩

/-- The day before. -/
def previous (d : Date) : Date :=
  if 1 < d.day then { d with day := d.day - 1 }
  else if 1 < d.month then ⟨d.year, d.month - 1, daysInMonth d.year (d.month - 1)⟩
  else ⟨d.year - 1, 12, 31⟩

end Date

/-- An instant in UTC.  Nanoseconds from 10^9 on belong to a leap second. -/
structure Timestamp where
  date : Date
  secondOfDay : Nat
  nanos : Nat
deriving DecidableEq, Inhabited

namespace Timestamp

/-- Takes off an offset in seconds, less than a day. -/
def minusOffset (t : Timestamp) (offset : Int) : Timestamp :=
  let second := (t.secondOfDay : Int) - offset
  if second < 0 then { t with date := t.date.previous, secondOfDay := (second + 86400).toNat }
  else if 86400 ≤ second then
    { t with date := t.date.next, secondOfDay := (second - 86400).toNat }
  else { t with secondOfDay := second.toNat }

/-- So many seconds and nanoseconds after the start of 1970. -/
def ofUnix (seconds nanos : Nat) : Timestamp :=
  ⟨Nat.repeat Date.next (seconds / 86400) ⟨1970, 1, 1⟩, seconds % 86400, nanos⟩

/-! ## Reading -/

/-- Reads a number of one digit up to `width` digits after any blanks. -/
def readNumber (width : Nat) (cs : List Char) : Option (Nat × List Char) :=
  let cs := Text.trimStart cs
  let ds := (cs.take width).takeWhile Char.isDigit
  if ds.isEmpty then none else some (Text.ofDigits ds, cs.drop ds.length)

/-- Reads a number of any length. -/
def readLongNumber (cs : List Char) : Option (Nat × List Char) :=
  let (ds, rest) := Text.spanDigits cs
  if ds.isEmpty then none else some (Text.ofDigits ds, rest)

/-- Reads a year: up to four digits, or a sign and any number of them. -/
def readYear (cs : List Char) : Option (Int × List Char) :=
  match Text.trimStart cs with
  | '-' :: rest => (readLongNumber rest).map fun (n, rest) => (-(n : Int), rest)
  | '+' :: rest => (readLongNumber rest).map fun (n, rest) => ((n : Int), rest)
  | rest => (readNumber 4 rest).map fun (n, rest) => ((n : Int), rest)

/-- Reads a separator with blanks around it. -/
def readSeparator (c : Char) (cs : List Char) : Option (List Char) :=
  match Text.trimStart cs with
  | d :: rest => if c = d then some (Text.trimStart rest) else none
  | [] => none

/-- Reads the fraction of a second: at least one digit after a point, of which nine count. -/
def readNanos (cs : List Char) : Option (Nat × List Char) :=
  match cs with
  | '.' :: rest =>
    let (ds, rest) := Text.spanDigits rest
    if ds.isEmpty then none
    else
      let kept := ds.take 9
      some (Text.ofDigits (kept ++ List.replicate (9 - kept.length) '0'), rest)
  | rest => some (0, rest)

/-- Reads two digits. -/
def readPair : List Char → Option (Nat × List Char)
  | a :: b :: rest =>
    if a.isDigit && b.isDigit then some (Text.ofDigits [a, b], rest) else none
  | _ => none

/-- Reads the offset from UTC in seconds: `Z`, the letters `UTC`, or a sign, hours and
minutes with any colons and blanks between them. -/
def readOffset (cs : List Char) : Option (Int × List Char) :=
  if (cs.take 3).map Char.toLower = ['u', 't', 'c'] then some (0, cs.drop 3)
  else
    match cs with
    | [] => none
    | c :: rest =>
      if c = 'Z' ∨ c = 'z' then some (0, rest)
      else if c = '+' ∨ c = '-' ∨ c = '−' then do
        let (hours, rest) ← readPair rest
        let (minutes, rest) ← readPair (rest.dropWhile fun c => c = ':' || Text.isBlank c)
        let seconds : Int := hours * 3600 + minutes * 60
        if minutes < 60 ∧ hours < 24 then some (if c = '+' then seconds else -seconds, rest)
        else none
      else none

/-- Reads a time stamp. -/
def parse? (s : String) : Option Timestamp := do
  let (year, cs) ← readYear s.toList
  let cs ← readSeparator '-' cs
  let (month, cs) ← readNumber 2 cs
  let cs ← readSeparator '-' cs
  let (day, cs) ← readNumber 2 cs
  let cs ← match cs with
    | c :: rest => if c = 'T' ∨ c = 't' ∨ c = ' ' then some rest else none
    | [] => none
  let (hour, cs) ← readNumber 2 cs
  let cs ← readSeparator ':' cs
  let (minute, cs) ← readNumber 2 cs
  let cs ← readSeparator ':' cs
  let (second, cs) ← readNumber 2 cs
  let (nanos, cs) ← readNanos cs
  let (offset, cs) ← readOffset (Text.trimStart cs)
  let date : Date := ⟨year, month, day⟩
  if !(Text.trimStart cs).isEmpty || !date.isValid || 24 ≤ hour || 60 ≤ minute || 60 < second then
    none
  else
    let leap := second == 60
    let secondOfDay := hour * 3600 + minute * 60 + (if leap then 59 else second)
    let civil : Timestamp := ⟨date, secondOfDay, if leap then nanos + 1_000_000_000 else nanos⟩
    let utc := civil.minusOffset offset
    if Date.inYearRange utc.date.year then some utc else none

/-! ## Writing -/

/-- The year: four digits, and with a sign when it is not of four digits. -/
def yearText (year : Int) : List Char :=
  if 0 ≤ year ∧ year ≤ 9999 then Text.padded 4 year.natAbs
  else (if year < 0 then '-' else '+') :: Text.padded 4 year.natAbs

/-- The fraction of a second: nothing, or as many groups of three digits as are needed. -/
def fractionText (nanos : Nat) : List Char :=
  if nanos = 0 then []
  else if nanos % 1_000_000 = 0 then '.' :: Text.padded 3 (nanos / 1_000_000)
  else if nanos % 1000 = 0 then '.' :: Text.padded 6 (nanos / 1000)
  else '.' :: Text.padded 9 nanos

/-- The text of a time stamp. -/
def text (t : Timestamp) : String :=
  let leap := 1_000_000_000 ≤ t.nanos
  let second := t.secondOfDay % 60 + (if leap then 1 else 0)
  let nanos := if leap then t.nanos - 1_000_000_000 else t.nanos
  String.ofList <|
    yearText t.date.year ++ '-' :: Text.padded 2 t.date.month ++ '-' :: Text.padded 2 t.date.day ++
      'T' :: Text.padded 2 (t.secondOfDay / 3600) ++
      ':' :: Text.padded 2 (t.secondOfDay / 60 % 60) ++ ':' :: Text.padded 2 second ++
      fractionText nanos ++ ['Z']

end Timestamp

instance : Wire Timestamp where
  toJson t := Json.ofString t.text
  ofJson? ctx j := (Wire.ofJson? ctx j : Option String).bind Timestamp.parse?

end InterruptStress
