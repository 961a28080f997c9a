/-!
# Error reports

An error that a person is shown: what failed, and below it the chain of causes.
-/

namespace InterruptStress

/-- What failed, and why, outermost first. -/
structure ErrorReport where
  message : String
  causes : List String
deriving DecidableEq, Inhabited

namespace ErrorReport

def of (message : String) : ErrorReport := ⟨message, []⟩

/-- Puts what was attempted in front of what went wrong. -/
def context (e : ErrorReport) (message : String) : ErrorReport := ⟨message, e.message :: e.causes⟩

/-- The lines below the message: the causes, numbered if there are several.  So many causes may
follow whose texts are not known. -/
def causeLines (e : ErrorReport) (unknown : Nat) : List String :=
  match e.causes.length + unknown with
  | 0 => []
  | 1 => "Caused by:" :: e.causes
  | _ => "Caused by:" :: e.causes.mapIdx fun i cause => s!"{i}: {cause}"

/-- All its lines. -/
def lines (e : ErrorReport) (unknown : Nat) : List String := e.message :: e.causeLines unknown

end ErrorReport

end InterruptStress
