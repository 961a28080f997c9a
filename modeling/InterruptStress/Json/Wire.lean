import InterruptStress.Json.Reader
import InterruptStress.Json.Writer

/-!
# Values on the wire

A type that travels as JSON says how a value is written and which documents are read as a
value.  Reading is strict about what a type knows and lenient about what it does not:

* a record is an object, or an array of all its fields in order; unknown members of the object
  are skipped, a known one may occur once;
* a name is a string, or an object whose only member has that name and says nothing;
* a message is an object with a member `type`, or an array with the type in front.  All of a
  message is loaded before its type is looked at, so every number in it has to be in range,
  every string has to have a text, and its nesting is limited.
-/

namespace InterruptStress

/-- Where in a document a value is read. -/
structure Json.Context where
  /-- The value belongs to a message that has been loaded as a whole. -/
  loaded : Bool
  /-- The arrays and objects around the value. -/
  level : Nat

/-- The outermost value of a document. -/
def Json.Context.top : Json.Context := ⟨false, 0⟩

/-- One level further inside. -/
def Json.Context.inner (ctx : Json.Context) : Json.Context := { ctx with level := ctx.level + 1 }

/-- Levels of arrays and objects that a loaded document may have. -/
def Json.maxDepth : Nat := 127

/-- A type whose values travel as JSON. -/
class Wire (α : Type) where
  toJson : α → Json
  ofJson? : Json.Context → Json → Option α

namespace Wire

/-- The text of a value. -/
def encode {α : Type} [Wire α] (a : α) : String := (toJson a).toText

/-- The value that a text stands for. -/
def decode? {α : Type} [Wire α] (s : String) : Option α :=
  (Json.ofText? s).bind (ofJson? Json.Context.top)

end Wire

namespace Json

/-! ## Records -/

/-- The value of a known member that occurs at most once; `none` when it is repeated. -/
def lookup (name : String) (members : List (Option String × Json)) : Option (Option Json) :=
  match members.filter (fun m => m.1 == some name) with
  | [] => some none
  | [member] => some (some member.2)
  | _ => none

/-- The fields of a record, in the order of their names; a member that is missing is `none`. -/
def fields? (names : List String) : Json → Option (List (Option Json))
  | .obj members =>
    if members.all (fun m => m.1.isSome) then names.mapM (lookup · members) else none
  | .arr items => if items.length = names.length then some (items.map some) else none
  | _ => none

/-- The fields of a record that may have no further members. -/
def closedFields? (names : List String) (j : Json) : Option (List (Option Json)) :=
  match j with
  | .obj members =>
    if members.all (fun m => m.1.any (names.contains ·)) then fields? names j else none
  | _ => fields? names j

/-- A field that has to be there. -/
def required {α : Type} [Wire α] (ctx : Context) (field : Option Json) : Option α :=
  field.bind (Wire.ofJson? ctx)

/-! ## Names -/

/-- The name that a document stands for.  As an object the name has the value `null`; in a
loaded message it may also have an empty object. -/
def name? (ctx : Context) : Json → Option String
  | .str text => text
  | .obj [(some name, .null)] => some name
  | .obj [(some name, .obj [])] => if ctx.loaded then some name else none
  | _ => none

/-! ## Messages -/

/-- The member of a message that holds its type. -/
def typeKey : String := "type"

/-- The type of a message, and its fields as a record. -/
def message? (ctx : Context) (j : Json) : Option (String × Json) :=
  if ctx.level + j.depth ≤ maxDepth ∧ j.isLoadable then
    match j with
    | .obj members =>
      match lookup typeKey members with
      | some (some (.str (some type))) =>
        some (type, .obj (members.filter fun m => m.1 != some typeKey))
      | _ => none
    | .arr (.str (some type) :: fields) => some (type, .arr fields)
    | _ => none
  else none

/-- The context of a message's fields. -/
def Context.inMessage (ctx : Context) : Context := ⟨true, ctx.level + 1⟩

/-- A message with the given type and fields. -/
def message (type : String) (fields : List (String × Json)) : Json :=
  record ((typeKey, ofString type) :: fields)

end Json

/-! ## Plain values -/

/-- An integer of a range. -/
def Json.integerIn? (low high : Int) : Json → Option Int
  | .num n => n.integer?.filter fun i => low ≤ i && i ≤ high
  | _ => none

instance : Wire UInt64 where
  toJson n := Json.ofNat n.toNat
  ofJson? _ j := (j.integerIn? 0 18_446_744_073_709_551_615).map fun i => UInt64.ofNat i.toNat

instance : Wire UInt32 where
  toJson n := Json.ofNat n.toNat
  ofJson? _ j := (j.integerIn? 0 4_294_967_295).map fun i => UInt32.ofNat i.toNat

instance : Wire Int32 where
  toJson n := Json.ofInt n.toInt
  ofJson? _ j := (j.integerIn? (-2_147_483_648) 2_147_483_647).map Int32.ofInt

instance : Wire Bool where
  toJson b := .bool b
  ofJson? _ j := match j with
    | .bool b => some b
    | _ => none

instance : Wire String where
  toJson s := Json.ofString s
  ofJson? _ j := match j with
    | .str text => text
    | _ => none

instance {α : Type} [Wire α] : Wire (Option α) where
  toJson a := match a with
    | some a => Wire.toJson a
    | none => .null
  ofJson? ctx j := match j with
    | .null => some none
    | j => (Wire.ofJson? ctx j).map some

/-- A field that may be missing, which then is absent. -/
def Json.optional {α : Type} [Wire α] (ctx : Json.Context) (field : Option Json) :
    Option (Option α) :=
  match field with
  | none => some none
  | some j => Wire.ofJson? ctx j

end InterruptStress
