import InterruptStress.Program.Plan
import InterruptStress.Proofs.Scaling
import Mathlib.Data.List.TakeWhile

/-!
# Where a configuration comes from

Reading a file comes to one of five things, and only one of them is a configuration
(`Config.FileGives`); what a text says is up to the reader of such texts, of which nothing is
known.  What a run starts from is all of one file's or all of the defaults, and which
it is follows from what the files give: a file that is asked for stands alone, and where none is
asked for the project's file goes before the user's and that before the defaults
(`Surroundings.StartsFrom`).  Loading keeps these rules and no others
(`Surroundings.loadConfig_eq_ok_iff`), so no configuration is put together from two files, and a
load that asks for no file cannot fail (`Config.load_unasked`).

The environment speaks of the timeout factor only.  Its value is a number, or is refused, or says
nothing because it is not set, is no text or is blank (`TimeoutFactor.Says`).
-/

namespace InterruptStress

/-! ## Files -/

namespace Config

/-- What the file at a place gives to a reader: a configuration, or the reason why none. -/
inductive FileGives (read? : Reader) (files : Files) (place : FilePath) :
    Except FileFailure Config → Prop where
  | missing : files.get? place = none → FileGives read? files place (.error .unreadable)
  | directory : files.get? place = some .directory →
      FileGives read? files place (.error .unreadable)
  /-- The bytes are no text. -/
  | binary {content : List UInt8} : files.get? place = some (.file content) →
      Text.ofBytes? content = none → FileGives read? files place (.error .unreadable)
  /-- The text says no configuration. -/
  | malformed {content : List UInt8} {text : List Char} :
      files.get? place = some (.file content) → Text.ofBytes? content = some text →
        read? (String.ofList text) = none → FileGives read? files place (.error .malformed)
  | valid {content : List UInt8} {text : List Char} {config : Config} :
      files.get? place = some (.file content) → Text.ofBytes? content = some text →
        read? (String.ofList text) = some config → FileGives read? files place (.ok config)

variable {read? : Reader} {files : Files} {place : FilePath} {result : Except FileFailure Config}

theorem ofFile_eq_iff :
    ofFile read? files place = result ↔ FileGives read? files place result := by
  constructor
  · rintro rfl
    unfold ofFile Files.content?
    cases hentry : files.get? place with
    | none => exact .missing hentry
    | some entry =>
      cases entry with
      | directory => exact .directory hentry
      | file content =>
        simp only [ofBytes]
        cases htext : Text.ofBytes? content with
        | none => exact .binary hentry htext
        | some text =>
          simp only
          cases hconfig : read? (String.ofList text) with
          | none => exact .malformed hentry htext hconfig
          | some config => exact .valid hentry htext hconfig
  · intro h
    cases h with
    | missing hentry => simp [ofFile, Files.content?, hentry]
    | directory hentry => simp [ofFile, Files.content?, hentry]
    | binary hentry htext => simp [ofFile, Files.content?, hentry, ofBytes, htext]
    | malformed hentry htext hconfig =>
      simp only [ofFile, Files.content?, hentry, ofBytes, htext, hconfig]
    | valid hentry htext hconfig =>
      simp only [ofFile, Files.content?, hentry, ofBytes, htext, hconfig]

end Config

/-! ## The configuration to start from -/

namespace Surroundings

open Config (FileGives)

/-- The configuration that a run starts from.  No rule takes anything from two files. -/
inductive StartsFrom (s : Surroundings) : Option String → Config → Prop where
  /-- The file that is asked for, whatever other files hold. -/
  | asked {path : String} {config : Config} :
      FileGives s.readConfig? s.files (FilePath.resolve s.directory path) (.ok config) →
        s.StartsFrom (some path) config
  | project {config : Config} :
      FileGives s.readConfig? s.files (s.directory ++ [Config.localName]) (.ok config) →
        s.StartsFrom none config
  | user {failure : Config.FileFailure} {above : FilePath} {config : Config} :
      FileGives s.readConfig? s.files (s.directory ++ [Config.localName]) (.error failure) →
        s.userDirectory = some above →
          FileGives s.readConfig? s.files (above ++ Config.userNames) (.ok config) →
            s.StartsFrom none config
  | defaults {failure : Config.FileFailure} :
      FileGives s.readConfig? s.files (s.directory ++ [Config.localName]) (.error failure) →
        (∀ above ∈ s.userDirectory, ∃ failure,
          FileGives s.readConfig? s.files (above ++ Config.userNames) (.error failure)) →
            s.StartsFrom none .default

variable {s : Surroundings} {asked : Option String} {config : Config}

theorem load_of_startsFrom (h : s.StartsFrom asked config) :
    Config.load s.readConfig? s.files s.directory s.userDirectory asked = .ok config := by
  cases h with
  | asked hfile => simp only [Config.load, Config.ofFile_eq_iff.mpr hfile, Except.mapError]
  | project hfile => simp only [Config.load, Config.ofFile_eq_iff.mpr hfile]
  | user hproject habove hfile =>
    simp only [Config.load, Config.ofFile_eq_iff.mpr hproject, habove, Option.map_some,
      Config.ofFile_eq_iff.mpr hfile]
  | defaults hproject huser =>
    simp only [Config.load, Config.ofFile_eq_iff.mpr hproject]
    cases habove : s.userDirectory with
    | none => rfl
    | some above =>
      obtain ⟨failure, hfile⟩ := huser above habove
      simp only [Option.map_some, Config.ofFile_eq_iff.mpr hfile]

/-- One of the rules applies if no file is asked for. -/
theorem exists_startsFrom (s : Surroundings) : ∃ config, s.StartsFrom none config := by
  cases hproject : Config.ofFile s.readConfig? s.files (s.directory ++ [Config.localName]) with
  | ok config => exact ⟨config, .project (Config.ofFile_eq_iff.mp hproject)⟩
  | error failure =>
    rw [Config.ofFile_eq_iff] at hproject
    by_cases huser : ∃ above ∈ s.userDirectory, ∃ config,
        FileGives s.readConfig? s.files (above ++ Config.userNames) (.ok config)
    · obtain ⟨above, habove, config, hfile⟩ := huser
      exact ⟨config, .user hproject habove hfile⟩
    · refine ⟨.default, .defaults hproject fun above habove => ?_⟩
      cases hfile : Config.ofFile s.readConfig? s.files (above ++ Config.userNames) with
      | ok config => exact absurd ⟨above, habove, config, Config.ofFile_eq_iff.mp hfile⟩ huser
      | error failure => exact ⟨failure, Config.ofFile_eq_iff.mp hfile⟩

theorem startsFrom_of_load
    (h : Config.load s.readConfig? s.files s.directory s.userDirectory asked = .ok config) :
    s.StartsFrom asked config := by
  cases asked with
  | some path =>
    rw [Config.load, mapError_eq_ok, Config.ofFile_eq_iff] at h
    exact .asked h
  | none =>
    -- the load cannot have failed, so it has given what the rule that applies names
    obtain ⟨loaded, hloaded⟩ := s.exists_startsFrom
    rw [load_of_startsFrom hloaded, Except.ok.injEq] at h
    exact h ▸ hloaded

/-- The rules admit what a load gives and nothing else. -/
theorem loadConfig_eq_ok_iff : s.loadConfig asked = .ok config ↔ s.StartsFrom asked config := by
  rw [loadConfig, mapError_eq_ok]
  exact ⟨startsFrom_of_load, load_of_startsFrom⟩

/-- A load fails only over the file that was asked for. -/
theorem loadConfig_of_error {path : String} {failure : Config.FileFailure}
    (h : FileGives s.readConfig? s.files (FilePath.resolve s.directory path) (.error failure)) :
    s.loadConfig (some path) =
      .error ⟨(Config.LoadError.report ⟨path, failure⟩).context "Failed to load configuration",
        1⟩ := by
  simp only [loadConfig, Config.load, Config.ofFile_eq_iff.mpr h, Except.mapError]

/-- The log level is that of the configuration which is loaded later. -/
theorem peekLogLevel_of_startsFrom (h : s.StartsFrom asked config) :
    Config.peekLogLevel s.readConfig? s.files s.directory s.userDirectory asked =
      config.logLevel := by
  simp only [Config.peekLogLevel, load_of_startsFrom h]

end Surroundings

theorem Config.load_unasked (read? : Reader) (files : Files) (directory : FilePath)
    (userDirectory : Option FilePath) :
    ∃ config, load read? files directory userDirectory none = .ok config := by
  obtain ⟨config, h⟩ :=
    Surroundings.exists_startsFrom ⟨read?, files, directory, userDirectory, none⟩
  exact ⟨config, Surroundings.load_of_startsFrom h⟩

/-! ## The environment -/

/-- Nothing is left of blanks, and only of blanks. -/
theorem Text.trim_eq_nil_iff {cs : List Char} : trim cs = [] ↔ ∀ c ∈ cs, isBlank c = true := by
  have hsplit : cs = cs.takeWhile isBlank ++ trimStart cs :=
    List.takeWhile_append_dropWhile.symm
  rw [trim, List.reverse_eq_nil_iff, List.dropWhile_eq_nil_iff]
  simp only [List.mem_reverse]
  constructor
  · intro h c hc
    rw [hsplit, List.mem_append] at hc
    rcases hc with hfront | hrest
    · exact List.all_eq_true.mp List.all_takeWhile c hfront
    · exact h c hrest
  · intro h c hc
    exact h c ((List.dropWhile_suffix _).subset hc)

namespace TimeoutFactor

/-- What the variable says, whose value is given by its bytes: a factor, or nothing, or something
that is refused. -/
inductive Says : Option (List UInt8) → Except InvalidValue (Option Binary64) → Prop where
  | unset : Says none (.ok none)
  | binary {bytes : List UInt8} : Text.ofBytes? bytes = none → Says (some bytes) (.ok none)
  | blank {bytes : List UInt8} {text : List Char} : Text.ofBytes? bytes = some text →
      (∀ c ∈ text, Text.isBlank c = true) → Says (some bytes) (.ok none)
  | number {bytes : List UInt8} {text : List Char} {factor : Binary64} :
      Text.ofBytes? bytes = some text → (∃ c ∈ text, Text.isBlank c = false) →
        Binary64.read? (Text.trim text) = some factor → Says (some bytes) (.ok (some factor))
  | invalid {bytes : List UInt8} {text : List Char} :
      Text.ofBytes? bytes = some text → (∃ c ∈ text, Text.isBlank c = false) →
        Binary64.read? (Text.trim text) = none → Says (some bytes) (.error ⟨String.ofList text⟩)

variable {value : Option (List UInt8)} {result : Except InvalidValue (Option Binary64)}

theorem ofEnvironment_eq_iff : ofEnvironment (text? value) = result ↔ Says value result := by
  constructor
  · rintro rfl
    cases value with
    | none => exact .unset
    | some bytes =>
      simp only [text?, Option.bind_some]
      cases htext : Text.ofBytes? bytes with
      | none => exact .binary htext
      | some text =>
        simp only [Option.map_some, ofEnvironment, String.toList_ofList, List.isEmpty_iff]
        split
        · next hblank => exact .blank htext (Text.trim_eq_nil_iff.mp hblank)
        · next hblank =>
          have hsaid : ∃ c ∈ text, Text.isBlank c = false := by
            simpa [Text.trim_eq_nil_iff] using hblank
          cases hread : Binary64.read? (Text.trim text) with
          | none => exact .invalid htext hsaid hread
          | some factor => exact .number htext hsaid hread
  · intro h
    have htrim {text : List Char} (hsaid : ∃ c ∈ text, Text.isBlank c = false) :
        Text.trim text ≠ [] := by
      simpa [Text.trim_eq_nil_iff] using hsaid
    cases h with
    | unset => rfl
    | binary htext => simp [text?, htext, ofEnvironment]
    | blank htext hblank => simp [text?, htext, ofEnvironment, Text.trim_eq_nil_iff.mpr hblank]
    | number htext hsaid hread => simp [text?, htext, ofEnvironment, htrim hsaid, hread]
    | invalid htext hsaid hread => simp [text?, htext, ofEnvironment, htrim hsaid, hread]

end TimeoutFactor

end InterruptStress
