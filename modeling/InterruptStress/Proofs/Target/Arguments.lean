import InterruptStress.Program.Execution
import InterruptStress.Proofs.CommandLine.Options
import InterruptStress.Proofs.Program.Sources

/-!
# What a target's process is told

A target in a process of its own learns its settings from its arguments, where spans of time stand
as whole milliseconds in decimal.  Nothing is lost on the way: a configuration gives its spans in
64-bit milliseconds, a span keeps them exactly, and the limits up to which the numbers are read
are those of the configuration's own words.  So the process serves the same settings as a target
on a thread (`Config.serves_worker`).

The process loads a configuration itself before it looks at its task.  It is told of no file, and
then loading cannot fail.
-/

namespace InterruptStress

/-! ## Texts of values -/

namespace Mode

theorem parse_name (m : Mode) : parse m.name = .ok m := by cases m <;> rfl

theorem head?_name_ne (m : Mode) : m.name.toList.head? ≠ some '-' := by cases m <;> decide

end Mode

namespace Text

theorem toList_toString (n : Nat) : (toString n).toList = digits n := Nat.toList_repr

/-- A number begins with a digit, and so with no sign. -/
theorem digits_ne_cons {n : Nat} {c : Char} (hc : c.isDigit = false) (cs : List Char) :
    digits n ≠ c :: cs := by
  intro h
  have hdigit : c.isDigit = true := isDigit_of_mem_digits (h ▸ List.mem_cons_self)
  simp [hc] at hdigit

theorem head?_toString_ne (n : Nat) : (toString n).toList.head? ≠ some '-' := by
  rw [toList_toString]
  intro h
  obtain ⟨cs, hcs⟩ := List.head?_eq_some_iff.mp h
  exact digits_ne_cons (by decide) cs hcs

end Text

namespace CommandLine

theorem Value.readMode_name (m : Mode) : readMode m.name = .ok (.mode m) := by
  rw [readMode, Mode.parse_name]

/-- A number in decimal is read back if it is below the limit. -/
theorem Value.readNumber_toString {limit n : Nat} (signed : Bool) (h : n < limit) :
    readNumber limit signed (toString n) = .ok (.number n) := by
  unfold readNumber
  simp only [Text.toList_toString]
  split
  · next hplus => exact absurd hplus (Text.digits_ne_cons (by decide) _)
  · next hminus => exact absurd hminus (Text.digits_ne_cons (by decide) _)
  · simp [Text.ofDigits?_digits, h, Except.map]

/-- The rest of the arguments behind the name of the task. -/
theorem parse_target {args : List String} {given : Given Value} {q : TargetRequest}
    (hgiven : readLevel targetLevel args = .ok given) (hq : TargetRequest.ofGiven given = .ok q) :
    parse ("target" :: args) = .ok
      ⟨(given.value? "config").bind Value.toPath?, (given.value? "log-level").bind Value.toText?,
        .target q⟩ := by
  have hroot : rootLevel.take Given.empty ("target" :: args) =
      .ok (Given.empty, some ("target", args)) := rfl
  have hshared (long : String) : (given.value? long).or (Given.empty.value? long) =
      given.value? long := Option.or_none
  have hsettled : (Given.empty : Given Value).settle = .ok Given.empty := rfl
  simp only [parse, hroot, hgiven, hq, hsettled, bind, Except.bind]
  rw [if_neg (by decide), if_neg (by decide)]
  simp only [pure, Except.pure, hshared]

end CommandLine

/-! ## The options of a target -/

namespace Pipe

open CommandLine

/-- The options by which a process is told its settings. -/
def options (settings : WorkerSettings) : List (Setting Value) :=
  [⟨"mode", settings.mode.name, .mode settings.mode⟩,
    ⟨"iterations", toString settings.iterations.toNat, .number settings.iterations.toNat⟩,
    ⟨"sleep-ms", toString settings.sleep.toMillis, .number settings.sleep.toMillis⟩,
    ⟨"pause-ms", toString settings.pause.toMillis, .number settings.pause.toMillis⟩]

theorem arguments_eq (settings : WorkerSettings) :
    arguments settings = "target" :: (options settings).flatMap Setting.arguments := rfl

variable {settings : WorkerSettings}

/-- The milliseconds of every option fit into the words that they are read into. -/
theorem reads_options (hsleep : settings.sleep.toMillis < UInt64.size)
    (hpause : settings.pause.toMillis < UInt64.size) :
    ∀ s ∈ options settings, targetLevel.Reads s := by
  have hoption {long text : String} {value : Value} {read : String → Except Refusal Value}
      (hlong : long.toList ≠ [] ∧ ∀ c ∈ long.toList, c ≠ '=')
      (hknown : targetLevel.options.find? (fun o => o.long == long) =
        some ⟨long, none, .value read⟩)
      (hread : read text = .ok value) (hundashed : text.toList.head? ≠ some '-') :
      targetLevel.Reads ⟨long, text, value⟩ :=
    ⟨hlong.1, hlong.2, ⟨none, read, hknown, hread⟩, hundashed, rfl⟩
  intro s hs
  simp only [options, List.mem_cons, List.not_mem_nil, or_false] at hs
  rcases hs with rfl | rfl | rfl | rfl
  · exact hoption (by simp) rfl (Value.readMode_name _) (Mode.head?_name_ne _)
  · exact hoption (by simp) rfl (Value.readNumber_toString true settings.iterations.toNat_lt)
      (Text.head?_toString_ne _)
  · exact hoption (by simp) rfl (Value.readNumber_toString false hsleep)
      (Text.head?_toString_ne _)
  · exact hoption (by simp) rfl (Value.readNumber_toString false hpause)
      (Text.head?_toString_ne _)

/-- The task that the options stand for. -/
theorem ofGiven_options (settings : WorkerSettings) :
    TargetRequest.ofGiven ⟨(options settings).map fun s => (s.long, s.value), [], none⟩ = .ok
      ⟨settings.mode, settings.iterations, UInt64.ofNat settings.sleep.toMillis,
        UInt64.ofNat settings.pause.toMillis⟩ := by
  have hiterations : UInt32.ofNat settings.iterations.toNat = settings.iterations :=
    UInt32.ofNat_toNat
  rw [← hiterations]
  rfl

/-- The arguments of a process are read as its task. -/
theorem parse_arguments (settings : WorkerSettings)
    (hsleep : settings.sleep.toMillis < UInt64.size)
    (hpause : settings.pause.toMillis < UInt64.size) :
    CommandLine.parse (arguments settings) = .ok
      ⟨none, none, .target ⟨settings.mode, settings.iterations,
        UInt64.ofNat settings.sleep.toMillis, UInt64.ofNat settings.pause.toMillis⟩⟩ := by
  have hnames : (([] : List (String × Value)).map Prod.fst ++
      (options settings).map Setting.long).Nodup := by
    simp [options]
  have hempty : (Given.empty : Given Value).settle = .ok ⟨[], [], none⟩ := rfl
  obtain ⟨given, htake, hsettle⟩ :=
    Level.take_options (reads_options hsleep hpause) hnames hempty
  have hlevel : readLevel targetLevel ((options settings).flatMap Setting.arguments) =
      .ok ⟨(options settings).map fun s => (s.long, s.value), [], none⟩ := by
    simp only [readLevel, htake]
    exact hsettle
  rw [arguments_eq, parse_target hlevel (ofGiven_options settings)]
  rfl

end Pipe

/-! ## The program in a process of its own -/

namespace Config

/-- Whatever the configuration and the mode, and whatever a process finds around it: its arguments
are read as the task of a target with the configuration's own numbers, and the settings that it
serves are those that a target on a thread is given. -/
theorem serves_worker (config : Config) (mode : Mode) :
    CommandLine.parse (Pipe.arguments (config.worker mode)) = .ok
      ⟨none, none, .target ⟨mode, config.run.iterations, config.run.sleepMs,
        config.run.interruptPauseMs⟩⟩ ∧
      ∀ s : Surroundings,
        (s.job (Pipe.arguments (config.worker mode))).2 = .ok (.serve (config.worker mode)) := by
  have hsleep : (config.worker mode).sleep.toMillis = config.run.sleepMs.toNat :=
    Duration.toMillis_ofMillis config.run.sleepMs
  have hpause : (config.worker mode).pause.toMillis = config.run.interruptPauseMs.toNat :=
    Duration.toMillis_ofMillis config.run.interruptPauseMs
  have hparse := Pipe.parse_arguments (config.worker mode)
    (hsleep ▸ config.run.sleepMs.toNat_lt) (hpause ▸ config.run.interruptPauseMs.toNat_lt)
  rw [hsleep, hpause, UInt64.ofNat_toNat, UInt64.ofNat_toNat] at hparse
  refine ⟨hparse, fun s => ?_⟩
  obtain ⟨loaded, hloaded⟩ := load_unasked s.readConfig? s.files s.directory s.userDirectory
  simp only [Surroundings.job, hparse, Surroundings.loadConfig, hloaded]
  rfl

end Config

end InterruptStress
