import InterruptStress.Program.Plan
import InterruptStress.Schedule.LineDialogue
import InterruptStress.Schedule.SupervisedRun

/-!
# Execution

The program from its arguments to its exit code, with runs under their fixed schedule.
-/

namespace InterruptStress

/-- How the program ends. -/
structure Outcome where
  code : Nat
  output : List String
  warnings : List String
  error : Option ProgramError
  files : Files

namespace Outcome

/-- The version that the program shows. -/
def versionLine : String := "ih 0.1.0"

/-- The program ends at its arguments.  The text of the help is left to the outer layer. -/
def refused (s : Surroundings) (refusal : CommandLine.Refusal) : Outcome where
  code := refusal.exitCode.toNat
  output := match refusal with
    | .displayVersion => [versionLine]
    | _ => []
  warnings := []
  error := none
  files := s.files

/-- The program ends with an error. -/
def failed (s : Surroundings) (error : ProgramError) : Outcome := ⟨1, [], [], some error, s.files⟩

def warned (o : Outcome) (warnings : List String) : Outcome :=
  { o with warnings := warnings ++ o.warnings }

end Outcome

/-- The warnings of the process that a run starts for its target. -/
def RunPlan.childWarnings (p : RunPlan) (s : Surroundings) : List String :=
  match p.transport with
  | .process => (s.logLevelWarning none none).toList
  | .inProcess => []

/-- The run of a plan: its worker behind its transport, its settings, and its journal if it has
one, all entries of which get one time. -/
def RunPlan.run (p : RunPlan) (runId : String) (time : Timestamp) : SupervisedRun :=
  .start p.controller (.launch p.transport p.worker)
    (if p.journal.isSome then .opened runId else .off) (.free time)

/-- How the program ends with the report of a run. -/
def RunPlan.outcome (p : RunPlan) (s : Surroundings) (report : RunReport) (files : Files) :
    Outcome :=
  let error := p.failure? report
  { code := if error.isSome then 1 else 0
    output := p.announcement :: RunPlan.resultLines report
    warnings := p.childWarnings s
    error
    files }

/-- Carries out a run and keeps its journal. -/
def RunPlan.execute (p : RunPlan) (s : Surroundings) (runId : String) (time : Timestamp) :
    Outcome :=
  match p.openJournal s with
  | .error e => .failed s e
  | .ok files =>
    let controller := (p.run runId time).complete.controller
    p.outcome s (controller.report runId) (match p.journal with
      | none => files
      | some path => controller.log.save files s.directory path)

/-- The settings that a target's process is told. -/
def CommandLine.TargetRequest.settings (q : CommandLine.TargetRequest) : WorkerSettings :=
  ⟨q.mode, q.iterations, .ofMillis q.sleepMs, .ofMillis q.pauseMs⟩

/-- What the program does once its arguments are read and the configuration is loaded. -/
inductive Job where
  | run (plan : RunPlan)
  | serve (settings : WorkerSettings)

/-- The program up to its job, or its end before that. -/
def Surroundings.job (s : Surroundings) (args : List String) : List String × Except Outcome Job :=
  match CommandLine.parse args with
  | .error refusal => ([], .error (.refused s refusal))
  | .ok request =>
    let warnings := (s.logLevelWarning request.config request.logLevel).toList
    let job : Except ProgramError Job := do
      let config ← s.loadConfig request.config
      match request.subcommand with
      | .run q => (RunPlan.ofRequest q config s.timeoutFactor).map Job.run
      | .target q => .ok (Job.serve q.settings)
    (warnings, job.mapError (.failed s))

/-- A target's process from its input to its end. -/
def serveInput (settings : WorkerSettings) (input : List UInt8) : List TargetEvent × Nat :=
  let d := ((LineDialogue.start settings).write input).close
  let (events, d) := d.drain
  (events, d.exitCode)

/-- The whole program. -/
def Surroundings.program (s : Surroundings) (args : List String) (input : List UInt8)
    (runId : String) (time : Timestamp) : Outcome :=
  let (warnings, job) := s.job args
  match job with
  | .error outcome => outcome.warned warnings
  | .ok (.run plan) => (plan.execute s runId time).warned warnings
  | .ok (.serve settings) =>
    let (events, code) := serveInput settings input
    ⟨code, events.map Wire.encode, warnings, none, s.files⟩

end InterruptStress
