/-!
# Line-number tables

The introspection interface of which a stepping controller needs two parts: which capabilities
it may have, and the line-number table of a method.  `Registry` is the interface in memory: a map
from identities to methods, and a counter from which the next identity is taken.
-/

namespace InterruptStress.LineTable

/-- The identity of a method. -/
structure MethodId where
  number : UInt32
deriving DecidableEq, Inhabited

def MethodId.display (id : MethodId) : String := s!"method#{id.number.toNat}"

/-- A row of a line-number table: a line, and where its code begins. -/
structure Row where
  start : UInt64
  line : UInt32
deriving DecidableEq, Inhabited

structure Capabilities where
  lineNumbers : Bool
deriving DecidableEq, Inhabited

/-- Why a call of the interface failed. -/
inductive QueryError where
  | invalidMethodId
  | nullPointer
  | mustPossessCapability
  | nativeMethod
  | absentInformation
  | notAvailable
deriving DecidableEq, Inhabited

namespace QueryError

def all : List QueryError :=
  [invalidMethodId, nullPointer, mustPossessCapability, nativeMethod, absentInformation,
    notAvailable]

/-- The name by which reports call an error. -/
def name : QueryError → String
  | invalidMethodId => "INVALID_METHODID"
  | nullPointer => "NULL_POINTER"
  | mustPossessCapability => "MUST_POSSESS_CAPABILITY"
  | nativeMethod => "NATIVE_METHOD"
  | absentInformation => "ABSENT_INFORMATION"
  | notAvailable => "NOT_AVAILABLE"

def message : QueryError → String
  | invalidMethodId => "invalid method id"
  | nullPointer => "null pointer"
  | mustPossessCapability => "must possess capability"
  | nativeMethod => "native method"
  | absentInformation => "absent information"
  | notAvailable => "capability not available"

end QueryError

/-- The three strings that describe a method. -/
structure Descriptor where
  className : String
  name : String
  signature : String
deriving DecidableEq, Inhabited

structure Method where
  descriptor : Descriptor
  isNative : Bool
  /-- Absent when the method was compiled without line information. -/
  rows : Option (List Row)
deriving DecidableEq, Inhabited

/-- Where a query puts its answer.  Either slot may be missing, and both hold something
beforehand. -/
structure Slots where
  count : Option Int32
  table : Option (List Row)
deriving DecidableEq, Inhabited

/-- A map from identities to methods, with one entry at most for an identity.  Its entries are in no
order that means anything: whoever goes through the map may meet them in any other. -/
structure MethodMap where
  entries : List (MethodId × Method)
  nodup : (entries.map Prod.fst).Nodup
deriving DecidableEq

namespace MethodMap

def empty : MethodMap := ⟨[], .nil⟩

def get? (map : MethodMap) (id : MethodId) : Option Method :=
  (map.entries.find? (·.1 = id)).map Prod.snd

/-- Puts a method under an identity, in place of what stood there. -/
def insert (map : MethodMap) (id : MethodId) (m : Method) : MethodMap where
  entries := map.entries.filter (·.1 ≠ id) ++ [(id, m)]
  nodup := by
    have hkept : ((map.entries.filter (·.1 ≠ id)).map Prod.fst).Nodup :=
      map.nodup.sublist (List.filter_sublist.map Prod.fst)
    rw [List.map_append, List.nodup_append]
    refine ⟨hkept, List.pairwise_singleton _ _, fun known hknown new hnew => ?_⟩
    obtain ⟨entry, hentry, rfl⟩ := List.mem_map.mp hknown
    rw [List.map_singleton, List.mem_singleton] at hnew
    rw [hnew]
    simpa using (List.mem_filter.mp hentry).2

def size (map : MethodMap) : Nat := map.entries.length

/-- The first method with a description, for one who goes through a map in some order. -/
def findIn (order : List (MethodId × Method)) (d : Descriptor) : Option MethodId :=
  (order.find? fun entry => entry.2.descriptor == d).map Prod.fst

end MethodMap

/-- The interface in memory. -/
structure Registry where
  /-- The capabilities that may be added. -/
  potential : Capabilities
  /-- The capabilities that have been added. -/
  possessed : Capabilities
  methods : MethodMap
  /-- The identity that the next method gets. -/
  nextId : UInt32
deriving DecidableEq

namespace Registry

def new (potential : Capabilities) : Registry := ⟨potential, ⟨false⟩, .empty, 1⟩

def register (r : Registry) (m : Method) : MethodId × Registry :=
  let id := ⟨r.nextId⟩
  (id, { r with methods := r.methods.insert id m, nextId := r.nextId + 1 })

def size (r : Registry) : Nat := r.methods.size

def get? (r : Registry) (id : MethodId) : Option Method := r.methods.get? id

/-- Adds capabilities.  A capability that is not potential is refused. -/
def addCapabilities (r : Registry) (c : Capabilities) : Except QueryError Unit × Registry :=
  if c.lineNumbers && !r.potential.lineNumbers then (.error .notAvailable, r)
  else (.ok (), { r with possessed := ⟨r.possessed.lineNumbers || c.lineNumbers⟩ })

/-- A method with a description. -/
def find? (r : Registry) (d : Descriptor) : Option MethodId := MethodMap.findIn r.methods.entries d

/-- The number of rows as a query reports it. -/
def rowCount (rows : List Row) : Int32 := Int32.ofNat (min rows.length 2_147_483_647)

/-- The line-number table of a method.  Of several reasons to fail the first in this order
counts; a failing query leaves the slots alone. -/
def lineTable (r : Registry) (id : Option MethodId) (slots : Slots) :
    Except QueryError Unit × Slots :=
  if !r.possessed.lineNumbers then (.error .mustPossessCapability, slots)
  else
    match id.bind r.get? with
    | none => (.error .invalidMethodId, slots)
    | some method =>
      match slots with
      | ⟨some _, some _⟩ =>
        if method.isNative then (.error .nativeMethod, slots)
        else
          match method.rows with
          | none => (.error .absentInformation, slots)
          | some rows => (.ok (), ⟨some (rowCount rows), some rows⟩)
      | _ => (.error .nullPointer, slots)

/-! ## The registry that describes the check itself -/

/-- The class that the check looks for. -/
def harnessClass : String := "linetab002"

/-- The constructor of that class. -/
def harnessConstructor : Descriptor := ⟨harnessClass, "<init>", "()V"⟩

/-- The methods of that class. -/
def harnessMethods : List Method :=
  [⟨harnessConstructor, false, some [⟨0, 27⟩]⟩,
    ⟨⟨harnessClass, "run", "([Ljava/lang/String;Ljava/io/PrintStream;)I"⟩, false,
      some [⟨0, 48⟩, ⟨4, 49⟩]⟩,
    ⟨⟨harnessClass, "check", "()I"⟩, true, none⟩]

def builtin : Registry := harnessMethods.foldl (fun r m => (r.register m).2) (new ⟨true⟩)

end Registry

end InterruptStress.LineTable
