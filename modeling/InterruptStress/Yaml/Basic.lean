/-!
# YAML values

What a configuration file holds: scalars, lists and maps.  A scalar keeps its text and whether
it was written without quotes, because only an unquoted scalar can stand for a number or for
nothing.
-/

namespace InterruptStress

/-- A YAML value. -/
inductive Yaml where
  | scalar (plain : Bool) (text : String)
  | sequence (items : List Yaml)
  | mapping (entries : List (Yaml × Yaml))
deriving Inhabited

namespace Yaml

/-- The value of a place where nothing is written. -/
def absent : Yaml := scalar true ""

/-- The text of a scalar, quoted or not. -/
def text? : Yaml → Option String
  | scalar _ text => some text
  | _ => none

/-- The text of a scalar that is not quoted. -/
def plainText? : Yaml → Option String
  | scalar true text => some text
  | _ => none

/-- The entries of a map whose keys are scalars.  Where nothing is written there is an empty
map, but a written null is none. -/
def members? : Yaml → Option (List (String × Yaml))
  | mapping entries => entries.mapM fun (key, value) => key.text?.map (·, value)
  | scalar true "" => some []
  | _ => none

/-- Whether a value stands for nothing. -/
def isNull : Yaml → Bool
  | scalar true text => text ∈ ["", "~", "null", "Null", "NULL"]
  | _ => false

end Yaml

end InterruptStress
