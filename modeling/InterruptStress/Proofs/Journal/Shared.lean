import InterruptStress.Proofs.Execution
import InterruptStress.Proofs.Journal.Entries

/-!
# Journals that share a file

Any number of journals may be opened on one path, at any time and under any run ids, and record in
any order (`SharedJournal.step`).  An entry is one line, and a line is appended as a whole; so a
file of whole lines keeps every line that it has, whatever is on it, and what is read is what was
read before and behind it one entry for each event that was recorded, in the order of the records
(`SharedJournal.load_of_run`).
-/

namespace InterruptStress

/-- The file that journals share. -/
structure SharedJournal where
  files : Files
  /-- The run ids of the journals that have been opened on it, in their order. -/
  runIds : List String

/-- What can happen to a file that journals share. -/
inductive SharedMove where
  /-- One more journal is opened. -/
  | openJournal (runId : String)
  /-- One of the journals records an event, with the time that the clock shows. -/
  | record (journal : Nat) (time : Timestamp) (event : TargetEvent)

namespace SharedJournal

/-- What a move makes of a shared file, if it can happen. -/
def step (directory : FilePath) (path : String) (s : SharedJournal) :
    SharedMove → Option SharedJournal
  | .openJournal runId =>
    match Journal.openFile s.files directory path with
    | .ok files => some ⟨files, s.runIds ++ [runId]⟩
    | .error _ => none
  | .record journal time event =>
    s.runIds[journal]?.map fun runId =>
      { s with files := Journal.record s.files directory path [⟨time, runId, event⟩] }

/-! ## What has been recorded -/

/-- The entry that a move adds to the file. -/
def added? : SharedJournal × SharedMove → Option JournalEntry
  | (s, .record journal time event) => s.runIds[journal]?.map (⟨time, ·, event⟩)
  | _ => none

/-- The entries that have been recorded, in their order. -/
def recorded (history : List (SharedJournal × SharedMove)) : List JournalEntry :=
  history.reverse.filterMap added?

/-- The event that a journal is called to record. -/
def call? : SharedJournal × SharedMove → Option TargetEvent
  | (_, .record _ _ event) => some event
  | _ => none

/-- The event that is recorded by a journal of a run. -/
def callUnder? (runId : String) : SharedJournal × SharedMove → Option TargetEvent
  | (s, .record journal _ event) => if s.runIds[journal]? = some runId then some event else none
  | _ => none

variable {directory : FilePath} {path : String} {start s s' : SharedJournal} {m : SharedMove}
  {history : List (SharedJournal × SharedMove)} {text : List Char}

theorem recorded_cons :
    recorded ((s, m) :: history) = recorded history ++ (added? (s, m)).toList := by
  rw [recorded, List.reverse_cons, List.filterMap_append]
  cases h : added? (s, m) <;> simp [h, recorded]

theorem added?_of_step (h : s.step directory path m = some s') :
    (added? (s, m)).map JournalEntry.event = call? (s, m) := by
  cases m with
  | openJournal runId => rfl
  | record journal time event =>
    obtain ⟨runId, hrunId, -⟩ := Option.map_eq_some_iff.mp h
    simp [added?, call?, hrunId]

/-- Every call records one entry, with its event. -/
theorem events_recorded (hrun : Execution (step directory path) start history s) :
    (recorded history).map JournalEntry.event = history.reverse.filterMap call? := by
  induction hrun with
  | nil => rfl
  | @cons history s s' m _ hs ih =>
    rw [recorded_cons, List.map_append, ih, List.reverse_cons, List.filterMap_append]
    have hentry := added?_of_step hs
    cases hcall : call? (s, m) <;> cases h : added? (s, m) <;> simp_all

theorem filter_recorded (runId : String) (history : List (SharedJournal × SharedMove)) :
    ((recorded history).filter (·.runId = runId)).map JournalEntry.event =
      history.reverse.filterMap (callUnder? runId) := by
  rw [recorded, List.filter_filterMap, List.map_filterMap]
  congr 1
  funext e
  obtain ⟨s, m⟩ := e
  cases m with
  | openJournal => rfl
  | record journal time event =>
    cases hrunId : s.runIds[journal]? with
    | none => simp [added?, callUnder?, hrunId]
    | some other => by_cases h : other = runId <;> simp [added?, callUnder?, hrunId, h]

/-! ## What is read -/

theorem keeps_step (h : Journal.Keeps s.files directory path text)
    (hs : s.step directory path m = some s') :
    Journal.Keeps s'.files directory path
      (text ++ Journal.written (added? (s, m)).toList) := by
  cases m with
  | openJournal runId =>
    simp only [step] at hs
    split at hs
    · next opened hopen =>
      obtain rfl := Option.some.inj hs
      simpa [added?, Journal.written] using h.openFile hopen
    · cases hs
  | record journal time event =>
    obtain ⟨runId, hrunId, rfl⟩ := Option.map_eq_some_iff.mp hs
    simpa [added?, hrunId] using h.record [⟨time, runId, event⟩]

/-- The text of a shared file: what it was, and what has been recorded. -/
theorem keeps_of_run (h : Journal.Keeps start.files directory path text)
    (hrun : Execution (step directory path) start history s) :
    Journal.Keeps s.files directory path (text ++ Journal.written (recorded history)) := by
  induction hrun with
  | nil => simpa [recorded, Journal.written] using h
  | cons _ hs ih =>
    have hnext := keeps_step ih hs
    rwa [List.append_assoc, Journal.written, Journal.written, ← List.flatMap_append,
      ← recorded_cons] at hnext

/-- Journals share a file that is missing or has whole lines.  At any time exactly the following is
read in it: what was to be read at first, and one entry for each event that was recorded, in this
order.  So the entries of a run are those that it had, and the events that journals of this run have
recorded. -/
theorem load_of_run {files : Files} (hkeeps : Journal.Keeps files directory path text)
    (hwhole : Journal.IsWhole text)
    (hrun : Execution (step directory path) ⟨files, []⟩ history s)
    (htimes : ∀ e ∈ recorded history, e.time.IsRegular) :
    Journal.load files directory path = .ok (Journal.entries text) ∧
      Journal.load s.files directory path =
        .ok (Journal.entries text ++ recorded history) ∧
      (recorded history).map JournalEntry.event = history.reverse.filterMap call? ∧
      ∀ runId, ((Journal.entries text ++ recorded history).filter (·.runId = runId)).map
          JournalEntry.event =
        ((Journal.entries text).filter (·.runId = runId)).map JournalEntry.event ++
          history.reverse.filterMap (callUnder? runId) := by
  refine ⟨Journal.load_of_keeps hkeeps, ?_, events_recorded hrun, ?_⟩
  · rw [Journal.load_of_keeps (keeps_of_run hkeeps hrun), Journal.entries_append hwhole,
      Journal.entries_written htimes]
  · intro runId
    rw [List.filter_append, List.map_append, filter_recorded]

/-- A journal with a line that is no entry. -/
def damaged : Files := ⟨[(["j"], .file [120, 10])]⟩

/-- The entries of two journals that record by turns. -/
def byTurns : List JournalEntry :=
  [⟨⟨⟨1970, 1, 1⟩, 0, 0⟩, "b", .disconnected⟩, ⟨⟨⟨1970, 1, 1⟩, 1, 0⟩, "a", .started .main⟩,
    ⟨⟨⟨1970, 1, 1⟩, 2, 0⟩, "b", .threadDeath .main⟩]

theorem load_of_run_turns :
    Journal.Keeps damaged [] "j" ['x', '\n'] ∧ Journal.IsWhole ['x', '\n'] ∧
      ∃ history s, Execution (step [] "j") ⟨damaged, []⟩ history s ∧
        (∀ e ∈ recorded history, e.time.IsRegular) ∧
        Journal.load s.files [] "j" = .ok byTurns := by
  have hkeeps : Journal.Keeps damaged [] "j" ['x', '\n'] := by
    have hbytes : Text.toBytes ['x', '\n'] = [120, 10] := by decide
    rw [Journal.Keeps, Journal.resolve_name, hbytes]
    exact .inl rfl
  have hopen : Journal.openFile damaged [] "j" = .ok damaged := by cbv
  have hfirst : step [] "j" ⟨damaged, []⟩ (.openJournal "a") = some ⟨damaged, ["a"]⟩ := by
    simp [step, hopen]
  have hsecond : step [] "j" ⟨damaged, ["a"]⟩ (.openJournal "b") = some ⟨damaged, ["a", "b"]⟩ := by
    simp [step, hopen]
  have hopened := (Execution.nil.cons hfirst).cons hsecond
  have hturns : ∃ history s, Execution.replay (step [] "j")
      [(⟨damaged, ["a"]⟩, .openJournal "b"), (⟨damaged, []⟩, .openJournal "a")]
      ⟨damaged, ["a", "b"]⟩
      [.record 1 ⟨⟨1970, 1, 1⟩, 0, 0⟩ .disconnected,
        .record 0 ⟨⟨1970, 1, 1⟩, 1, 0⟩ (.started .main),
        .record 1 ⟨⟨1970, 1, 1⟩, 2, 0⟩ (.threadDeath .main)] = some (history, s) ∧
      recorded history = byTurns := ⟨_, _, rfl, rfl⟩
  obtain ⟨history, s, hreplay, hrecorded⟩ := hturns
  have hrun := Execution.of_replay hopened _ hreplay
  have htimes : ∀ e ∈ recorded history, e.time.IsRegular := by
    rw [hrecorded]
    simp only [byTurns, List.forall_mem_cons]
    exact ⟨⟨by decide, by decide, by decide⟩, ⟨by decide, by decide, by decide⟩,
      ⟨by decide, by decide, by decide⟩, fun _ => (absurd · List.not_mem_nil)⟩
  refine ⟨hkeeps, .inr rfl, history, s, hrun, htimes, ?_⟩
  have hload := (load_of_run hkeeps (.inr rfl) hrun htimes).2.1
  rwa [hrecorded] at hload

end SharedJournal

end InterruptStress
