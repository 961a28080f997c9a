import InterruptStress.CommandLine.Arguments
import InterruptStress.LineTable.Check

/-!
# The line-table command

Checks the built-in registry and shows what came of it.
-/

namespace InterruptStress.LineTable

def options : CommandLine.Level Unit :=
  ⟨[⟨"printdump", none, .switch⟩, ⟨"help", some 'h', .help⟩, ⟨"version", some 'V', .version⟩], []⟩

/-- Whether the calls are to be printed. -/
def parse (args : List String) : Except CommandLine.Refusal Bool := do
  let (given, _) ← options.take CommandLine.Given.empty args
  let given ← given.settle
  return given.hasSwitch "printdump"

def versionLine : String := "linetab 0.1.0"

/-- The lines in which a check is shown. -/
def CheckReport.lines (r : CheckReport) : List String :=
  r.dump ++ r.mismatches.map (fun m => "✗ " ++ m.text) ++
    (if r.skipped then ["! line numbers unavailable, nothing to check"]
    else if r.passed then ["✓ line number table checks passed"]
    else [])

/-- What the command prints, and its exit status. -/
structure Outcome where
  code : Int
  output : List String
deriving DecidableEq

/-- Runs the command.  The text of the help is left to the outer layer. -/
def run (args : List String) : Outcome :=
  match parse args with
  | .error .displayVersion => ⟨0, [versionLine]⟩
  | .error refusal => ⟨refusal.exitCode, []⟩
  | .ok dumped =>
    match Agent.negotiated Registry.introspector Registry.builtin dumped with
    | .error _ => ⟨1, []⟩
    | .ok agent =>
      match agent.runCheck Registry.introspector with
      | .error _ => ⟨1, []⟩
      | .ok report => ⟨report.status, report.lines⟩

end InterruptStress.LineTable
