import InterruptStress.Json.Numeral

/-!
# JSON documents

A document as a tree.  A string is present as text, or absent: a string whose escapes do not
pair up into characters is well formed and may be skipped, but it has no text.  Members of an
object keep their order and their repetitions, because a reader of messages cares about both.
-/

namespace InterruptStress

/-- A JSON document. -/
inductive Json where
  | null
  | bool (value : Bool)
  | num (numeral : Json.Numeral)
  | str (text : Option String)
  | arr (items : List Json)
  | obj (members : List (Option String × Json))
deriving Inhabited

namespace Json

def ofInt (n : Int) : Json := .num (Numeral.ofInt n)

def ofNat (n : Nat) : Json := .num (Numeral.ofInt n)

def ofString (s : String) : Json := .str (some s)

/-- An object with the given members. -/
def record (members : List (String × Json)) : Json :=
  .obj (members.map fun m => (some m.1, m.2))

mutual

/-- The number of levels of arrays and objects. -/
def depth : Json → Nat
  | .arr items => itemsDepth items + 1
  | .obj members => membersDepth members + 1
  | _ => 0

def itemsDepth : List Json → Nat
  | [] => 0
  | item :: rest => max (depth item) (itemsDepth rest)

def membersDepth : List (Option String × Json) → Nat
  | [] => 0
  | member :: rest => max (depth member.2) (membersDepth rest)

end

mutual

/-- Whether every number in a document is in range and every string in it has a text. -/
def isLoadable : Json → Bool
  | .num n => n.inRange
  | .str text => text.isSome
  | .arr items => itemsLoadable items
  | .obj members => membersLoadable members
  | _ => true

def itemsLoadable : List Json → Bool
  | [] => true
  | item :: rest => isLoadable item && itemsLoadable rest

def membersLoadable : List (Option String × Json) → Bool
  | [] => true
  | member :: rest => member.1.isSome && isLoadable member.2 && membersLoadable rest

end

end Json

end InterruptStress
