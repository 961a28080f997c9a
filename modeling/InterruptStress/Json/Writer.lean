import InterruptStress.Json.Basic

/-!
# Writing JSON

The compact text of a document: no blanks, members in order, every character of a string as
it is except the quote, the backslash and the control characters.
-/

namespace InterruptStress.Json

/-- A digit of a hexadecimal number below sixteen, in lower case. -/
def hexDigit (n : Nat) : Char := Nat.digitChar n

/-- A character inside a written string. -/
def escapeChar (c : Char) : List Char :=
  if c = '"' then ['\\', '"']
  else if c = '\\' then ['\\', '\\']
  else if c.toNat = 8 then ['\\', 'b']
  else if c.toNat = 12 then ['\\', 'f']
  else if c = '\n' then ['\\', 'n']
  else if c = '\r' then ['\\', 'r']
  else if c = '\t' then ['\\', 't']
  else if c.toNat < 0x20 then
    ['\\', 'u', '0', '0', hexDigit (c.toNat / 16), hexDigit (c.toNat % 16)]
  else [c]

/-- A string between quotes.  One that has no text is written as a surrogate that stands
alone, which is read back as having none. -/
def quoted : Option String → List Char
  | some s => '"' :: (s.toList.flatMap escapeChar ++ ['"'])
  | none => ['"', '\\', 'u', 'd', '8', '0', '0', '"']

mutual

/-- The compact text of a document. -/
def compact : Json → List Char
  | .null => ['n', 'u', 'l', 'l']
  | .bool true => ['t', 'r', 'u', 'e']
  | .bool false => ['f', 'a', 'l', 's', 'e']
  | .num n => n.text
  | .str text => quoted text
  | .arr items => '[' :: compactItems items
  | .obj members => '{' :: compactMembers members

/-- The items of an array up to its closing bracket. -/
def compactItems : List Json → List Char
  | [] => [']']
  | [item] => compact item ++ [']']
  | item :: rest => compact item ++ ',' :: compactItems rest

/-- The members of an object up to its closing brace. -/
def compactMembers : List (Option String × Json) → List Char
  | [] => ['}']
  | [member] => quoted member.1 ++ ':' :: (compact member.2 ++ ['}'])
  | member :: rest => quoted member.1 ++ ':' :: (compact member.2 ++ ',' :: compactMembers rest)

end

/-- The compact text of a document, as a string. -/
def toText (j : Json) : String := String.ofList j.compact

end InterruptStress.Json
