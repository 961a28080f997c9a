import InterruptStress.LineTable.Registry

/-!
# The check of the line-number query

The query is called three times with one argument missing, and each call has to fail in the
way that argument calls for.  An agent first negotiates its capabilities; without line numbers
there is nothing to check.
-/

namespace InterruptStress.LineTable

/-- The introspection interface, over some state. -/
structure Introspector (σ : Type) where
  potential : σ → Except QueryError Capabilities
  add : σ → Capabilities → Except QueryError Unit × σ
  possessed : σ → Except QueryError Capabilities
  find? : σ → Descriptor → Option MethodId
  lineTable : σ → Option MethodId → Slots → Except QueryError Unit × Slots

/-- A registry as an introspection interface. -/
def Registry.introspector : Introspector Registry where
  potential r := .ok r.potential
  add := Registry.addCapabilities
  possessed r := .ok r.possessed
  find? := Registry.find?
  lineTable := Registry.lineTable

/-- A call with one argument missing. -/
inductive Probe where
  | noMethod
  | noCount
  | noTable
deriving DecidableEq

namespace Probe

def all : List Probe := [noMethod, noCount, noTable]

/-- The error that the missing argument calls for. -/
def expected : Probe → QueryError
  | noMethod => .invalidMethodId
  | noCount | noTable => .nullPointer

def description : Probe → String
  | noMethod => "invalid method check"
  | noCount => "(entry_count) null pointer check"
  | noTable => "(table) null pointer check"

/-- The arguments of the call for a method. -/
def arguments (method : MethodId) : Probe → Option MethodId × Slots
  | noMethod => (none, ⟨some 0, some []⟩)
  | noCount => (some method, ⟨none, some []⟩)
  | noTable => (some method, ⟨some 0, none⟩)

end Probe

/-- A call that did not fail in the way expected; without an actual error it succeeded. -/
structure Mismatch where
  probe : Probe
  actual : Option QueryError
deriving DecidableEq

def Mismatch.expected (m : Mismatch) : QueryError := m.probe.expected

def Mismatch.text (m : Mismatch) : String :=
  let actual := (m.actual.map QueryError.name).getD "NONE"
  s!"{m.probe.description}: error expected: {m.expected.name}, actual: {actual}"

structure CheckReport where
  mismatches : List Mismatch
  /-- The lines that were asked for while checking. -/
  dump : List String
  /-- Nothing was called because there are no line numbers. -/
  skipped : Bool
deriving DecidableEq

namespace CheckReport

def passed (r : CheckReport) : Bool := r.mismatches.isEmpty

/-- The exit status: zero, or two after a mismatch. -/
def status (r : CheckReport) : Int := if r.passed then 0 else 2

def skip : CheckReport := ⟨[], [], true⟩

end CheckReport

section
variable {σ : Type}

/-- What is wrong with one call. -/
def Probe.mismatch? (i : Introspector σ) (s : σ) (method : MethodId) (p : Probe) :
    Option Mismatch :=
  let (id, slots) := p.arguments method
  match (i.lineTable s id slots).1 with
  | .ok () => some ⟨p, none⟩
  | .error e => if e = p.expected then none else some ⟨p, some e⟩

/-- Makes the three calls for a method. -/
def check (i : Introspector σ) (s : σ) (method : MethodId) (dumped : Bool) : CheckReport where
  mismatches := Probe.all.filterMap fun p => p.mismatch? i s method
  dump := if dumped then (Probe.all.map fun p => s!">>> {p.description} ...") ++ [">>> ... done"]
    else []
  skipped := false

/-- A negotiation that failed, or a class without a constructor. -/
inductive AgentError where
  | negotiation (step : String) (cause : QueryError)
  | methodNotFound (descriptor : Descriptor)
deriving DecidableEq

def AgentError.message : AgentError → String
  | negotiation step cause => s!"{step}: unexpected error: {cause.message}"
  | methodNotFound d => s!"Cannot get method ID for {d.className}.{d.name}{d.signature}"

/-- A client of the interface that has negotiated its capabilities. -/
structure Agent (σ : Type) where
  state : σ
  capabilities : Capabilities
  dumped : Bool

namespace Agent

/-- Names the step of the negotiation that failed. -/
def negotiate {α : Type} (step : String) (r : Except QueryError α) : Except AgentError α :=
  r.mapError fun e => .negotiation step e

/-- Asks for every potential capability and reads back what was granted. -/
def negotiated (i : Introspector σ) (s : σ) (dumped : Bool) : Except AgentError (Agent σ) := do
  let potential ← negotiate "GetPotentialCapabilities" (i.potential s)
  let (added, s) := i.add s potential
  negotiate "AddCapabilities" added
  let capabilities ← negotiate "GetCapabilities" (i.possessed s)
  return ⟨s, capabilities, dumped⟩

/-- Checks the constructor of the harness class. -/
def runCheck (i : Introspector σ) (a : Agent σ) : Except AgentError CheckReport :=
  if !a.capabilities.lineNumbers then .ok .skip
  else
    match i.find? a.state Registry.harnessConstructor with
    | none => .error (.methodNotFound Registry.harnessConstructor)
    | some method => .ok (check i a.state method a.dumped)

end Agent

end

end InterruptStress.LineTable
