/-!
# Run ids

A run is known by a universally unique identifier of version 7: the time in milliseconds, and
random bits after it, in hexadecimal groups.
-/

namespace InterruptStress.RunId

/-- The lowest bytes of a number, the highest of them first. -/
def bigEndian : Nat → Nat → List UInt8
  | 0, _ => []
  | count + 1, n => bigEndian count (n / 256) ++ [UInt8.ofNat n]

/-- The bytes of an identifier: six of time, then random ones with the version and the variant
put in their places. -/
def bytes (millis : Nat) (random : List UInt8) : List UInt8 :=
  let byte (k : Nat) : UInt8 := random.getD k 0
  bigEndian 6 millis ++ [byte 0 &&& 0x0f ||| 0x70, byte 1, byte 2 &&& 0x3f ||| 0x80] ++
    (List.range 7).map fun k => byte (k + 3)

def hexDigits (byte : UInt8) : List Char :=
  [Nat.digitChar (byte.toNat / 16), Nat.digitChar (byte.toNat % 16)]

/-- The bytes in groups of four, two, two, two and six. -/
def text (bytes : List UInt8) : String :=
  let group (first count : Nat) := String.ofList (((bytes.drop first).take count).flatMap hexDigits)
  "-".intercalate [group 0 4, group 4 2, group 6 2, group 8 2, group 10 6]

/-- The identifier of a run that starts at a time. -/
def make (millis : Nat) (random : List UInt8) : String := text (bytes millis random)

/-- Whether some text is such an identifier. -/
def isVersion7 (text : String) : Bool :=
  let isHex (c : Char) : Bool := c.isDigit || ('a' ≤ c && c ≤ 'f')
  let groups := (text.splitOn "-").map String.toList
  groups.map List.length == [8, 4, 4, 4, 12] && groups.all (·.all isHex) &&
    (groups[2]?.bind List.head?) == some '7' &&
    (groups[3]?.bind List.head?).any (['8', '9', 'a', 'b'].contains ·)

end InterruptStress.RunId
