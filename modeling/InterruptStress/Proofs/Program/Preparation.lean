import InterruptStress.Program.Execution
import InterruptStress.Proofs.Interval
import InterruptStress.Proofs.Program.Sources
import InterruptStress.Proofs.Schedule.SupervisedRun
import InterruptStress.Yaml.Config

/-!
# What has to hold before a run

A request for a run comes to a plan or to an error, and four rules say to which
(`Surroundings.Prepares`): the file that was asked for gives no configuration, the environment's
value is refused, the configuration in effect is refused, or all is well and the plan follows that
configuration.  The configuration in effect is settled field by field, from the command line, the
environment and the one configuration that was loaded (`CommandLine.RunRequest.Settles`), and the
check comes last: it neither refuses what an override has mended nor lets pass what an override has
spoiled.

The rules exclude each other and one of them always applies, so the program prepares a run exactly
as they say, and with an error it ends before it has opened a journal, started a target or shown
anything (`Surroundings.prepared_of_parse`).  A plan is carried out as it stands: its journal is
opened first, and then its worker is launched behind its transport and supervised by its settings
(`RunPlan.Executes`).
-/

namespace InterruptStress

/-! ## The configuration in effect -/

attribute [ext] RunConfig WatchdogConfig Config

/-- The environment names a factor or leaves the configuration as it is. -/
theorem Config.applyEnvironment_of_says {value : Option (List UInt8)} {factor : Option Binary64}
    (config : Config) (h : TimeoutFactor.Says value (.ok factor)) :
    config.applyEnvironment (TimeoutFactor.text? value) =
      .ok { config with
        watchdog.timeoutFactor := factor.getD config.watchdog.timeoutFactor } := by
  simp only [applyEnvironment, TimeoutFactor.ofEnvironment_eq_iff.mpr h]
  cases factor <;> rfl

namespace CommandLine.RunRequest

/-- The configuration in effect has the values of the command line where it gives any.  For the
timeout factor the environment comes next, and all else is as in the configuration that the run
starts from. -/
structure Settles (q : RunRequest) (factor : Option Binary64) (base effective : Config) :
    Prop where
  logLevel : effective.logLevel = base.logLevel
  journal : effective.journal = q.journal.or base.journal
  iterations : effective.run.iterations = q.iterations.getD base.run.iterations
  sleepMs : effective.run.sleepMs = base.run.sleepMs
  interruptPauseMs : effective.run.interruptPauseMs = base.run.interruptPauseMs
  suspend : effective.run.suspend = base.run.suspend
  transport : effective.run.transport = q.transport.getD base.run.transport
  baseIntervalMs : effective.watchdog.baseIntervalMs = base.watchdog.baseIntervalMs
  timeoutFactor : effective.watchdog.timeoutFactor =
    (q.timeoutFactor.or factor).getD base.watchdog.timeoutFactor

variable {q : RunRequest} {value : Option (List UInt8)} {factor : Option Binary64}
  {base effective effective' : Config}

/-- Every field is settled. -/
theorem Settles.unique (h : q.Settles factor base effective)
    (h' : q.Settles factor base effective') : effective = effective' := by
  have hrun : effective.run = effective'.run :=
    RunConfig.ext (h.iterations.trans h'.iterations.symm) (h.sleepMs.trans h'.sleepMs.symm)
      (h.interruptPauseMs.trans h'.interruptPauseMs.symm) (h.suspend.trans h'.suspend.symm)
      (h.transport.trans h'.transport.symm)
  have hwatchdog : effective.watchdog = effective'.watchdog :=
    WatchdogConfig.ext (h.baseIntervalMs.trans h'.baseIntervalMs.symm)
      (h.timeoutFactor.trans h'.timeoutFactor.symm)
  exact Config.ext (h.logLevel.trans h'.logLevel.symm) (h.journal.trans h'.journal.symm) hrun
    hwatchdog

/-- What the environment and then the command line make of a configuration. -/
theorem exists_effective (q : RunRequest) (base : Config)
    (hsaid : TimeoutFactor.Says value (.ok factor)) :
    ∃ effective, q.effective base (TimeoutFactor.text? value) = .ok effective ∧
      q.Settles factor base effective := by
  refine ⟨q.override { base with
    watchdog.timeoutFactor := factor.getD base.watchdog.timeoutFactor }, ?_, ?_⟩
  · rw [RunRequest.effective, Config.applyEnvironment_of_says base hsaid, Except.map]
  · constructor
    -- two overrides in turn are one override by the first that is given
    case timeoutFactor => exact Option.getD_or.symm
    all_goals rfl

theorem effective_of_invalid (q : RunRequest) (base : Config) {e : TimeoutFactor.InvalidValue}
    (hsaid : TimeoutFactor.Says value (.error e)) :
    q.effective base (TimeoutFactor.text? value) = .error e := by
  simp only [RunRequest.effective, Config.applyEnvironment,
    TimeoutFactor.ofEnvironment_eq_iff.mpr hsaid, Except.map]

end CommandLine.RunRequest

/-! ## Plans -/

namespace RunPlan

/-- The plan has all that it says from one configuration. -/
structure Follows (plan : RunPlan) (config : Config) (m : Mode) : Prop where
  mode : plan.mode = m
  worker : plan.worker = config.worker m
  controller : config.controller m = .ok plan.controller
  transport : plan.transport = config.run.transport
  journal : plan.journal = config.journal

variable {plan : RunPlan} {config : Config}

theorem ofConfig_of_follows {m : Mode} (hvalid : config.validate = .ok ())
    (h : plan.Follows config m) : ofConfig config m = .ok plan := by
  obtain ⟨rfl, hworker, hcontroller, htransport, hjournal⟩ := h
  simp only [ofConfig, hvalid, hcontroller, ← hworker, ← htransport, ← hjournal]

/-- A configuration that passes the check has a plan in every mode: the check has tried the
interval, which is all that a plan could still want. -/
theorem exists_follows (hvalid : config.validate = .ok ()) (m : Mode) :
    ∃ plan : RunPlan, plan.Follows config m := by
  obtain ⟨-, -, interval, hinterval⟩ := Config.interval_ok_of_validate hvalid
  exact ⟨⟨m, config.worker m, _, config.run.transport, config.journal⟩, rfl, rfl,
    Config.controller_of_interval hinterval m, rfl, rfl⟩

theorem ofConfig_of_refused {refusal : Config.Refusal} (h : config.validate = .error refusal)
    (m : Mode) :
    ofConfig config m = .error (.of (refusal.report.context "Invalid configuration")) := by
  simp only [ofConfig, h]

/-! ## Carrying out a plan -/

/-- What is launched for a plan: its worker, behind its transport. -/
inductive Launches (plan : RunPlan) : Endpoint → Prop where
  | process : plan.transport = .process → plan.Launches (.piped (.launch plan.worker))
  | inProcess : plan.transport = .inProcess → plan.Launches (.inProcess (.launch plan.worker))

/-- What carrying out a plan comes to. -/
inductive Executes (plan : RunPlan) (s : Surroundings) (runId : String) (time : Timestamp) :
    Outcome → Prop where
  /-- The journal cannot be opened, and nothing is launched. -/
  | unopened {path : String} {e : JournalError} : plan.journal = some path →
      Journal.openFile s.files s.directory path = .error e →
        plan.Executes s runId time (.failed s ⟨e.report, 1⟩)
  | unjournaled {endpoint : Endpoint} {controller : Controller} : plan.journal = none →
      plan.Launches endpoint →
        (SupervisedRun.start plan.controller endpoint .off (.free time)).complete.controller =
            controller →
          plan.Executes s runId time (plan.outcome s (controller.report runId) s.files)
  /-- What the run has written is behind what the journal held. -/
  | journaled {path : String} {opened : Files} {endpoint : Endpoint} {controller : Controller} :
      plan.journal = some path → Journal.openFile s.files s.directory path = .ok opened →
        plan.Launches endpoint →
          (SupervisedRun.start plan.controller endpoint (.opened runId)
              (.free time)).complete.controller = controller →
            plan.Executes s runId time (plan.outcome s (controller.report runId)
              (controller.log.save opened s.directory path))

theorem launches_iff {endpoint : Endpoint} :
    plan.Launches endpoint ↔ endpoint = .launch plan.transport plan.worker := by
  constructor
  · intro h
    cases h with
    | process htransport => rw [htransport, Endpoint.launch]
    | inProcess htransport => rw [htransport, Endpoint.launch]
  · rintro rfl
    cases htransport : plan.transport with
    | process => exact .process htransport
    | inProcess => exact .inProcess htransport

/-- A plan is carried out as the rules say, and in no other way. -/
theorem execute_eq_iff {s : Surroundings} {runId : String} {time : Timestamp} {outcome : Outcome} :
    plan.execute s runId time = outcome ↔ plan.Executes s runId time outcome := by
  constructor
  · rintro rfl
    unfold execute openJournal
    cases hjournal : plan.journal with
    | none =>
      have hrun : plan.run runId time = .start plan.controller
          (.launch plan.transport plan.worker) .off (.free time) := by
        rw [run, hjournal]
        rfl
      rw [hrun]
      exact .unjournaled hjournal (launches_iff.mpr rfl) rfl
    | some path =>
      have hrun : plan.run runId time = .start plan.controller
          (.launch plan.transport plan.worker) (.opened runId) (.free time) := by
        rw [run, hjournal]
        rfl
      cases hopen : Journal.openFile s.files s.directory path with
      | error e =>
        simp only [hopen, Except.mapError]
        exact .unopened hjournal hopen
      | ok opened =>
        simp only [hopen, Except.mapError, hrun]
        exact .journaled hjournal hopen (launches_iff.mpr rfl) rfl
  · intro h
    cases h with
    | unopened hjournal hopen => simp only [execute, openJournal, hjournal, hopen, Except.mapError]
    | unjournaled hjournal hlaunches hcontroller =>
      obtain rfl := launches_iff.mp hlaunches
      simp [execute, openJournal, hjournal, run, hcontroller]
    | journaled hjournal hopen hlaunches hcontroller =>
      obtain rfl := launches_iff.mp hlaunches
      simp [execute, openJournal, hjournal, hopen, Except.mapError, run, hcontroller]

/-- In one process a run of a plan is an execution of a controller with the plan's settings and of a
target with its worker, so all that holds of every such execution holds of the run. -/
theorem execution_of_run (htransport : plan.transport = .inProcess) (runId : String)
    (time : Timestamp) :
    ∃ log history s, Execution Supervised.step
        ((Supervised.launch plan.controller plan.worker).withLog log) history s ∧
      (plan.run runId time).complete.controller = s.controller := by
  obtain ⟨history, s, hexecution, hfollows⟩ := SupervisedRun.execution_of_complete plan.controller
    plan.worker (if plan.journal.isSome then .opened runId else .off) (.free time)
  refine ⟨_, history, s, hexecution, ?_⟩
  rw [run, htransport]
  exact hfollows.controller

end RunPlan

/-! ## From a request to a plan -/

namespace Surroundings

open Config (FileGives)

/-- What a request for a run comes to, given the file that it asks for and the bytes of the
environment's value. -/
inductive Prepares (s : Surroundings) (value : Option (List UInt8)) (asked : Option String)
    (q : CommandLine.RunRequest) : Except ProgramError RunPlan → Prop where
  | unloaded {path : String} {failure : Config.FileFailure} : asked = some path →
      FileGives s.readConfig? s.files (FilePath.resolve s.directory path) (.error failure) →
        s.Prepares value asked q (.error
          ⟨(Config.LoadError.report ⟨path, failure⟩).context "Failed to load configuration", 1⟩)
  /-- The value is refused even where the command line gives another factor. -/
  | invalidFactor {base : Config} {e : TimeoutFactor.InvalidValue} : s.StartsFrom asked base →
      TimeoutFactor.Says value (.error e) → s.Prepares value asked q (.error (.of e.report))
  | refused {base effective : Config} {factor : Option Binary64} {refusal : Config.Refusal} :
      s.StartsFrom asked base → TimeoutFactor.Says value (.ok factor) →
        q.Settles factor base effective → effective.validate = .error refusal →
          s.Prepares value asked q
            (.error (.of (refusal.report.context "Invalid configuration")))
  | ready {base effective : Config} {factor : Option Binary64} {plan : RunPlan} :
      s.StartsFrom asked base → TimeoutFactor.Says value (.ok factor) →
        q.Settles factor base effective → effective.validate = .ok () →
          plan.Follows effective q.mode → s.Prepares value asked q (.ok plan)

/-- The plan of a request, from the configuration that is loaded for it. -/
def prepare (s : Surroundings) (asked : Option String) (q : CommandLine.RunRequest) :
    Except ProgramError RunPlan :=
  (s.loadConfig asked).bind fun config => RunPlan.ofRequest q config s.timeoutFactor

variable {s : Surroundings} {value : Option (List UInt8)} {asked logLevel : Option String}
  {q : CommandLine.RunRequest} {args : List String} {base effective : Config}
  {factor : Option Binary64} {result : Except ProgramError RunPlan}

theorem prepare_of_startsFrom (h : s.StartsFrom asked base) :
    s.prepare asked q = RunPlan.ofRequest q base s.timeoutFactor := by
  simp only [prepare, loadConfig_eq_ok_iff.mpr h, Except.bind]

theorem prepare_of_settles (hvalue : s.timeoutFactor = TimeoutFactor.text? value)
    (hbase : s.StartsFrom asked base) (hsaid : TimeoutFactor.Says value (.ok factor))
    (hsettles : q.Settles factor base effective) :
    s.prepare asked q = RunPlan.ofConfig effective q.mode := by
  obtain ⟨found, hfound, hfoundSettles⟩ := q.exists_effective base hsaid
  obtain rfl := hfoundSettles.unique hsettles
  simp only [prepare_of_startsFrom hbase, RunPlan.ofRequest, hvalue, hfound]

theorem prepare_of_prepares (hvalue : s.timeoutFactor = TimeoutFactor.text? value)
    (h : s.Prepares value asked q result) : s.prepare asked q = result := by
  cases h with
  | unloaded hasked hfile =>
    subst hasked
    simp only [prepare, loadConfig_of_error hfile, Except.bind]
  | invalidFactor hbase hsaid =>
    simp only [prepare_of_startsFrom hbase, RunPlan.ofRequest, hvalue,
      q.effective_of_invalid _ hsaid]
  | refused hbase hsaid hsettles hrefused =>
    rw [prepare_of_settles hvalue hbase hsaid hsettles, RunPlan.ofConfig_of_refused hrefused]
  | ready hbase hsaid hsettles hvalid hplan =>
    rw [prepare_of_settles hvalue hbase hsaid hsettles,
      RunPlan.ofConfig_of_follows hvalid hplan]

/-- One of the last three rules applies once there is a configuration to start from. -/
theorem exists_prepares_of_startsFrom (value : Option (List UInt8)) (q : CommandLine.RunRequest)
    (hbase : s.StartsFrom asked base) : ∃ result, s.Prepares value asked q result := by
  cases hfactor : TimeoutFactor.ofEnvironment (TimeoutFactor.text? value) with
  | error e => exact ⟨_, .invalidFactor hbase (TimeoutFactor.ofEnvironment_eq_iff.mp hfactor)⟩
  | ok factor =>
    have hsaid := TimeoutFactor.ofEnvironment_eq_iff.mp hfactor
    obtain ⟨effective, -, hsettles⟩ := q.exists_effective base hsaid
    cases hvalid : effective.validate with
    | error refusal => exact ⟨_, .refused hbase hsaid hsettles hvalid⟩
    | ok =>
      obtain ⟨plan, hplan⟩ := RunPlan.exists_follows hvalid q.mode
      exact ⟨.ok plan, .ready hbase hsaid hsettles hvalid hplan⟩

/-- One of the rules applies. -/
theorem exists_prepares (s : Surroundings) (value : Option (List UInt8)) (asked : Option String)
    (q : CommandLine.RunRequest) : ∃ result, s.Prepares value asked q result := by
  cases asked with
  | none =>
    obtain ⟨base, hbase⟩ := s.exists_startsFrom
    exact exists_prepares_of_startsFrom value q hbase
  | some path =>
    cases hfile : Config.ofFile s.readConfig? s.files (FilePath.resolve s.directory path) with
    | ok base =>
      exact exists_prepares_of_startsFrom value q (.asked (Config.ofFile_eq_iff.mp hfile))
    | error failure => exact ⟨_, .unloaded rfl (Config.ofFile_eq_iff.mp hfile)⟩

/-- The rules admit what a request comes to and nothing else. -/
theorem prepare_eq_iff (hvalue : s.timeoutFactor = TimeoutFactor.text? value) :
    s.prepare asked q = result ↔ s.Prepares value asked q result := by
  constructor
  · -- some rule applies, and whichever it is has the answer of `prepare`
    rintro rfl
    obtain ⟨result, hresult⟩ := s.exists_prepares value asked q
    rw [prepare_of_prepares hvalue hresult]
    exact hresult
  · exact prepare_of_prepares hvalue

/-! ## The program -/

theorem job_of_parse (hparse : CommandLine.parse args = .ok ⟨asked, logLevel, .run q⟩) :
    s.job args = ((s.logLevelWarning asked logLevel).toList,
      ((s.prepare asked q).map Job.run).mapError (.failed s)) := by
  simp only [job, hparse, prepare]
  cases s.loadConfig asked <;> rfl

/-- A request is carried out as planned, or the program is over before anything is opened, started
or shown. -/
theorem program_of_parse (hparse : CommandLine.parse args = .ok ⟨asked, logLevel, .run q⟩)
    (input : List UInt8) (runId : String) (time : Timestamp) :
    s.program args input runId time =
      match s.prepare asked q with
      | .ok plan => (plan.execute s runId time).warned (s.job args).1
      | .error error => ⟨1, [], (s.job args).1, some error, s.files⟩ := by
  simp only [program, job_of_parse hparse]
  cases s.prepare asked q with
  | ok plan => rfl
  | error error => simp [Except.map, Except.mapError, Outcome.failed, Outcome.warned]

/-- Whatever the files hold, whatever the environment says and whatever the command line gives: the
configuration that a run starts from is the one that the rules of loading name, and there is one
unless a file was asked for.  The log level is its own unless the command line gives one.  The
request comes to what the rules of preparation say; only a plan of theirs is carried out, with its
own journal, transport, worker and settings, and with an error of theirs the files stay as they are
and nothing is shown. -/
theorem prepared_of_parse (hvalue : s.timeoutFactor = TimeoutFactor.text? value)
    (hparse : CommandLine.parse args = .ok ⟨asked, logLevel, .run q⟩)
    (input : List UInt8) (runId : String) (time : Timestamp) :
    (∀ base, s.loadConfig asked = .ok base ↔ s.StartsFrom asked base) ∧
    (asked = none → ∃ base, s.loadConfig asked = .ok base) ∧
    (∀ base, s.StartsFrom asked base →
      (s.job args).1 = (LogLevel.warning? (logLevel.or base.logLevel)).toList) ∧
    (∃ result, s.Prepares value asked q result) ∧
    (∀ plan, (s.job args).2 = .ok (.run plan) ↔ s.Prepares value asked q (.ok plan)) ∧
    (∀ plan, s.Prepares value asked q (.ok plan) →
      ∃ outcome, plan.Executes s runId time outcome ∧
        s.program args input runId time = outcome.warned (s.job args).1) ∧
    ∀ error, s.Prepares value asked q (.error error) →
      s.program args input runId time = ⟨1, [], (s.job args).1, some error, s.files⟩ := by
  refine ⟨fun _ => loadConfig_eq_ok_iff, ?_, ?_, s.exists_prepares value asked q, ?_, ?_, ?_⟩
  · rintro rfl
    obtain ⟨base, hbase⟩ := s.exists_startsFrom
    exact ⟨base, loadConfig_eq_ok_iff.mpr hbase⟩
  · intro base hbase
    simp only [job_of_parse hparse, logLevelWarning, peekLogLevel_of_startsFrom hbase]
  · intro plan
    rw [← prepare_eq_iff hvalue, job_of_parse hparse]
    cases s.prepare asked q <;> simp [Except.map, Except.mapError]
  · intro plan hplan
    refine ⟨plan.execute s runId time, RunPlan.execute_eq_iff.mp rfl, ?_⟩
    rw [program_of_parse hparse, (prepare_eq_iff hvalue).mpr hplan]
  · intro error herror
    rw [program_of_parse hparse, (prepare_eq_iff hvalue).mpr herror]

/-- The project's file is no configuration, the user's one would be refused as it is, and the
environment names a factor. -/
def layered : Surroundings where
  readConfig? := Config.ofText?
  files := (Files.empty.put [".interrupthang.yml"] (.file (Text.toBytes "run: 5".toList))).put
    ["config", "interrupthang", "interrupthang.yml"] (.file (Text.toBytes
      "log-level: loud\njournal: runs.jsonl\nrun: {iterations: 0, transport: in-process}".toList))
  directory := []
  userDirectory := some ["config"]
  timeoutFactor := TimeoutFactor.text? (some (Text.toBytes " 2.5\n".toList))

/-- With seven iterations on the command line the user's configuration makes a plan, of fifty
seconds between two looks of the watchdog. -/
theorem prepared_of_parse_layered :
    CommandLine.parse ["run", "-m", "precise", "-i", "7"] =
      .ok ⟨none, none, .run ⟨.precise, some 7, none, none, none⟩⟩ ∧
    layered.loadConfig none = .ok ⟨some "loud", some "runs.jsonl",
      ⟨0, 100, 5, .thread, .inProcess⟩, .default⟩ ∧
    (layered.job ["run", "-m", "precise", "-i", "7"]).2 = .ok (.run
      ⟨.precise, ⟨.precise, 7, .ofMillis 100, .ofMillis 5⟩,
        ⟨.precise, .ofMillis 50_000, .thread, .ofMillis 5, defaultExitGrace⟩, .inProcess,
        some "runs.jsonl"⟩) := by
  have hparse : CommandLine.parse ["run", "-m", "precise", "-i", "7"] =
      .ok ⟨none, none, .run ⟨.precise, some 7, none, none, none⟩⟩ := by decide +kernel
  have hvalue : layered.timeoutFactor =
      TimeoutFactor.text? (some (Text.toBytes " 2.5\n".toList)) := rfl
  have hbase : layered.StartsFrom none ⟨some "loud", some "runs.jsonl",
      ⟨0, 100, 5, .thread, .inProcess⟩, .default⟩ := by
    refine .user (.malformed rfl (Text.ofBytes?_toBytes _) ?_) rfl
      (.valid rfl (Text.ofBytes?_toBytes _) ?_) <;> decide +kernel
  have hsaid : TimeoutFactor.Says (some (Text.toBytes " 2.5\n".toList))
      (.ok (some ⟨0x4004000000000000⟩)) :=
    .number (Text.ofBytes?_toBytes _) ⟨'2', by decide, rfl⟩ (by decide +kernel)
  let effective : Config := ⟨some "loud", some "runs.jsonl", ⟨7, 100, 5, .thread, .inProcess⟩,
    ⟨20_000, ⟨0x4004000000000000⟩⟩⟩
  have hsettles : CommandLine.RunRequest.Settles ⟨.precise, some 7, none, none, none⟩
      (some ⟨0x4004000000000000⟩) ⟨some "loud", some "runs.jsonl",
        ⟨0, 100, 5, .thread, .inProcess⟩, .default⟩ effective := by
    constructor <;> rfl
  have hvalid : effective.validate = .ok () := by decide +kernel
  have hinterval : effective.watchdog.interval = .ok (.ofMillis 50_000) := by decide +kernel
  obtain ⟨hloads, -, -, -, hplans, -⟩ :=
    prepared_of_parse hvalue hparse [] "" (.ofUnix 0 0)
  refine ⟨hparse, (hloads _).mpr hbase, (hplans _).mpr ?_⟩
  exact .ready hbase hsaid hsettles hvalid
    ⟨rfl, rfl, Config.controller_of_interval hinterval .precise, rfl, rfl⟩

end Surroundings

end InterruptStress
