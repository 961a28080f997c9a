import InterruptStress.Json.Wire
import InterruptStress.Text.Blank

/-!
# Modes

How interrupts reach the worker.  A mode has one name, which is read from a command line with
blanks around it and in any case, and on the wire exactly as it is written.
-/

namespace InterruptStress

/-- How interrupts are delivered to the worker. -/
inductive Mode where
  /-- A local generator sends one interrupt per iteration and waits for its acknowledgement. -/
  | precise
  /-- A local generator sends at a short fixed pace, uncoordinated. -/
  | aggressive
  /-- The controller sends interrupts through the command channel. -/
  | remote
deriving DecidableEq, Inhabited

namespace Mode

def all : List Mode := [precise, aggressive, remote]

def name : Mode → String
  | precise => "precise"
  | aggressive => "aggressive"
  | remote => "remote"

/-- The mode with exactly this name. -/
def ofName? (s : String) : Option Mode := all.find? fun m => m.name == s

/-- The generator is a thread of the target. -/
def hasLocalGenerator : Mode → Bool
  | precise | aggressive => true
  | remote => false

/-- Why a text names no mode. -/
inductive NameError where
  | invalid (text : String)
deriving DecidableEq

def NameError.message : NameError → String
  | invalid text => s!"Invalid mode '{text}' (expected precise, aggressive or remote)"

/-- Reads the name of a mode with blanks around it and in any case.  No letter outside ASCII
has a lower case that occurs in a name, so the case of ASCII letters is all that matters. -/
def parse (s : String) : Except NameError Mode :=
  match ofName? (String.ofList ((Text.trim s.toList).map Char.toLower)) with
  | some m => .ok m
  | none => .error (.invalid s)

theorem ofName?_name (m : Mode) : ofName? m.name = some m := by cases m <;> rfl

end Mode

instance : Wire Mode where
  toJson m := Json.ofString m.name
  ofJson? ctx j := (j.name? ctx).bind Mode.ofName?

end InterruptStress
