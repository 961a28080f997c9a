import InterruptStress.JournalFile
import InterruptStress.Proofs.Files
import InterruptStress.Proofs.Json.Behind
import InterruptStress.Proofs.Json.OneLine
import InterruptStress.Proofs.Text.LineEnds
import InterruptStress.Proofs.Wire.RoundTrip
import Mathlib

/-!
# The entries of a journal

The text of a journal falls into whole lines and what is behind the last line feed, its torn line.
Behind whole lines the reader begins anew (`Journal.entries_append`), and there it reads back what
has been appended (`Journal.entries_written`).  Behind a torn line the first appended entry stands
on that line itself, and it is read there if and only if the torn line has nothing but blanks in it
(`Journal.entries_append_written`).

A journal file holds its text in UTF-8, and a file that is missing holds no text
(`Journal.Keeps`).  Opening the file keeps its text and recording appends to it.
-/

namespace InterruptStress.Journal

variable {text torn : List Char} {entry : JournalEntry} {added : List JournalEntry}

/-! ## Whole lines -/

/-- A text of whole lines: it is empty or ends in a line feed. -/
def IsWhole (text : List Char) : Prop := text = [] ∨ text.getLast? = some '\n'

/-- A text up to its last line feed. -/
def wholeLines (text : List Char) : List Char := text.rdropWhile (· ≠ '\n')

/-- What stands behind the last line feed. -/
def tornLine (text : List Char) : List Char := text.rtakeWhile (· ≠ '\n')

theorem wholeLines_append_tornLine (text : List Char) :
    wholeLines text ++ tornLine text = text := by
  rw [wholeLines, tornLine, List.rdropWhile, List.rtakeWhile, ← List.reverse_append,
    List.takeWhile_append_dropWhile, List.reverse_reverse]

theorem isWhole_wholeLines (text : List Char) : IsWhole (wholeLines text) := by
  by_cases hne : wholeLines text = []
  · exact .inl hne
  · have hlast : (wholeLines text).getLast hne = '\n' :=
      Decidable.of_not_not fun h => List.rdropWhile_last_not _ text hne (decide_eq_true h)
    exact .inr (by rw [List.getLast?_eq_some_getLast hne, hlast])

theorem lineFeed_not_mem_tornLine (text : List Char) : '\n' ∉ tornLine text := by
  intro h
  simpa using List.mem_rtakeWhile_imp h

/-- Behind whole lines the reader begins anew. -/
theorem entries_append (h : IsWhole text) (rest : List Char) :
    entries (text ++ rest) = entries text ++ entries rest := by
  rcases h with rfl | h
  · rfl
  · obtain ⟨init, rfl⟩ := List.getLast?_eq_some_iff.mp h
    have hlines : Text.lines (init ++ ['\n'] ++ rest) =
        Text.lines (init ++ ['\n']) ++ Text.lines rest := by
      rw [List.append_assoc]
      exact Text.LineEnds.chars.cut_append_lineFeed [] init rest
    rw [entries, hlines, List.filterMap_append]
    rfl

/-! ## A line of its own -/

theorem opens_toJson (entry : JournalEntry) :
    ∃ c body, (Wire.toJson entry).compact = '{' :: '"' :: c :: body ∧ c.isAlpha = true := by
  have hobject : Wire.toJson entry = .obj [(some "ts", Wire.toJson entry.time),
      (some "run_id", Wire.toJson entry.runId), (some "event", Wire.toJson entry.event)] := rfl
  have hname : Json.quoted (some "ts") = ['"', 't', 's', '"'] := rfl
  rw [hobject, Json.compact, Json.compactMembers]
  · rw [hname]
    exact ⟨'t', _, rfl, rfl⟩
  · simp

theorem closes_toJson (entry : JournalEntry) :
    ∃ inside, (Wire.toJson entry).compact = inside ++ ['}'] := by
  obtain ⟨members, hobject⟩ : ∃ members, Wire.toJson entry = .obj members := ⟨_, rfl⟩
  obtain ⟨inside, hinside⟩ := Json.compactMembers_ends members
  exact ⟨'{' :: inside, by rw [hobject, Json.compact, hinside, List.cons_append]⟩

/-- An entry ends the line on which it is appended, and it adds nothing else to it. -/
theorem lines_append (htorn : '\n' ∉ torn) (entry : JournalEntry) (rest : List Char) :
    Text.lines (torn ++ (append [] entry ++ rest)) =
      (torn ++ (Wire.toJson entry).compact) :: Text.lines rest := by
  have htext : torn ++ (append [] entry ++ rest) =
      torn ++ (Wire.toJson entry).compact ++ Text.LineEnds.chars.lineFeed :: rest := by
    simp [append, Text.LineEnds.chars]
  have hfeed : '\n' ∉ (Wire.toJson entry).compact :=
    Json.not_mem_of_isPrintable (Json.isPrintable_compact entry.isPlain) (by decide)
  have hline : '\n' ∉ torn ++ (Wire.toJson entry).compact := by
    simp only [List.mem_append, not_or]
    exact ⟨htorn, hfeed⟩
  obtain ⟨inside, hinside⟩ := closes_toJson entry
  rw [htext, Text.lines, Text.LineEnds.lines_append _ hline, hinside, ← List.append_assoc,
    Text.LineEnds.chomp, List.getLast?_concat, if_neg (by decide)]
  rfl

theorem isBlank_of_jsonBlank {c : Char} (h : Json.isBlank c = true) : Text.isBlank c = true := by
  simp only [Json.isBlank, Bool.or_eq_true, decide_eq_true_eq] at h
  rcases h with ((rfl | rfl) | rfl) | rfl <;> decide

/-- An entry is read on a line if nothing but blanks stands in front of it. -/
theorem entryOfLine?_append (hentry : entry.time.IsRegular) (torn : List Char) :
    entryOfLine? (torn ++ (Wire.toJson entry).compact) =
      if torn.all Json.isBlank then some entry else none := by
  have hopens := opens_toJson entry
  have hprinted : ¬ (torn ++ (Wire.toJson entry).compact).all Text.isBlank = true := by
    obtain ⟨c, body, htext, -⟩ := hopens
    intro hall
    have hbrace := List.all_eq_true.mp hall '{' (by simp [htext])
    revert hbrace
    decide
  rw [entryOfLine?, if_neg hprinted, Json.read?_append_compact entry.isPlain hopens]
  split
  · rw [Option.bind_some, JournalEntry.ofJson?_toJson hentry]
  · rfl

theorem entryOfLine?_of_blank (h : torn.all Json.isBlank = true) : entryOfLine? torn = none := by
  have hblank : torn.all Text.isBlank = true :=
    List.all_eq_true.mpr fun c hc => isBlank_of_jsonBlank (List.all_eq_true.mp h c hc)
  rw [entryOfLine?, if_pos hblank]

/-! ## Appended entries -/

/-- The text that entries append to a journal. -/
def written (added : List JournalEntry) : List Char := added.flatMap (append [])

theorem entries_append_entry (htorn : '\n' ∉ torn) (hentry : entry.time.IsRegular)
    (rest : List Char) :
    entries (torn ++ (append [] entry ++ rest)) =
      (if torn.all Json.isBlank then [entry] else []) ++ entries rest := by
  rw [entries, lines_append htorn, List.filterMap_cons, entryOfLine?_append hentry]
  cases torn.all Json.isBlank <;> rfl

/-- What has been written is read back. -/
theorem entries_written (hadded : ∀ e ∈ added, e.time.IsRegular) :
    entries (written added) = added := by
  induction added with
  | nil => rfl
  | cons entry added ih =>
    obtain ⟨hentry, hadded⟩ := List.forall_mem_cons.mp hadded
    have hwritten : written (entry :: added) = [] ++ (append [] entry ++ written added) := rfl
    rw [hwritten, entries_append_entry List.not_mem_nil hentry, ih hadded]
    rfl

/-- A torn line is one more line. -/
theorem entries_eq_whole_append_torn (text : List Char) :
    entries text = entries (wholeLines text) ++ (entryOfLine? (tornLine text)).toList := by
  have htorn : entries (tornLine text) = (entryOfLine? (tornLine text)).toList := by
    by_cases hne : tornLine text = []
    · rw [hne]
      rfl
    · have hline : Text.lines (tornLine text) = [tornLine text] :=
        Text.LineEnds.chars.lines_of_not_mem (lineFeed_not_mem_tornLine text) hne
      rw [entries, hline, List.filterMap_cons, List.filterMap_nil]
      cases entryOfLine? (tornLine text) <;> rfl
  conv => lhs; rw [← wholeLines_append_tornLine text]
  rw [entries_append (isWhole_wholeLines text), htorn]

/-- Entries are all read back behind a torn line of blanks.  Any other torn line is read no more,
and the first of the entries is lost with it. -/
theorem entries_append_written (text : List Char) (hadded : ∀ e ∈ added, e.time.IsRegular) :
    entries (text ++ written added) =
      if added = [] ∨ (tornLine text).all Json.isBlank then entries text ++ added
      else entries (wholeLines text) ++ added.tail := by
  cases added with
  | nil => simp [written]
  | cons entry added =>
    obtain ⟨hentry, hothers⟩ := List.forall_mem_cons.mp hadded
    have htext : text ++ written (entry :: added) =
        wholeLines text ++ (tornLine text ++ (append [] entry ++ written added)) := by
      rw [← List.append_assoc, wholeLines_append_tornLine]
      rfl
    rw [htext, entries_append (isWhole_wholeLines text),
      entries_append_entry (lineFeed_not_mem_tornLine text) hentry, entries_written hothers]
    by_cases hblank : (tornLine text).all Json.isBlank = true
    · rw [if_pos hblank, if_pos (.inr hblank), entries_eq_whole_append_torn text,
        entryOfLine?_of_blank hblank]
      simp
    · rw [if_neg hblank, if_neg (by simp [hblank])]
      rfl

/-! ## The file -/

/-- The file of a journal holds a text, or it is missing and the text is empty. -/
def Keeps (files : Files) (directory : FilePath) (path : String) (text : List Char) : Prop :=
  files.Holds (FilePath.resolve directory path) (Text.toBytes text)

variable {files opened : Files} {directory : FilePath} {path : String}

theorem load_of_keeps (h : Keeps files directory path text) :
    load files directory path = .ok (entries text) := by
  rcases h with hfile | ⟨hnone, hempty⟩
  · simp only [load, hfile, Text.ofBytes?_toBytes]
  · have htext : some text = some [] := by
      rw [← Text.ofBytes?_toBytes text, hempty]
      rfl
    obtain rfl := Option.some.inj htext
    simp only [load, hnone]
    rfl

theorem Keeps.record (h : Keeps files directory path text) (added : List JournalEntry) :
    Keeps (record files directory path added) directory path (text ++ written added) := by
  have hbytes : Text.toBytes (text ++ written added) =
      Text.toBytes text ++ added.flatMap lineBytes := by
    rw [Text.toBytes_append]
    congr 1
    induction added with
    | nil => rfl
    | cons entry added ih =>
      rw [List.flatMap_cons, ← ih, written, List.flatMap_cons, Text.toBytes_append]
      rfl
  rw [Keeps, hbytes]
  exact Files.Holds.append h _

/-- The directories above a journal are created if need be, and the file is made ready. -/
theorem of_openFile (hopen : openFile files directory path = .ok opened) :
    ∃ created, (created = files ∨ ∃ above, files.createDirectories above = some created) ∧
      created.openForAppend (FilePath.resolve directory path) = some opened := by
  unfold openFile at hopen
  split at hopen
  · simp only [pure_bind] at hopen
    split at hopen
    · next files' happend =>
      obtain rfl := Except.ok.inj hopen
      exact ⟨files, .inl rfl, happend⟩
    · cases hopen
  · split at hopen
    · next created hcreate =>
      simp only [pure_bind] at hopen
      split at hopen
      · next files' happend =>
        obtain rfl := Except.ok.inj hopen
        exact ⟨created, .inr ⟨_, hcreate⟩, happend⟩
      · cases hopen
    · cases hopen

/-- A journal that is opened has the text that it has had. -/
theorem Keeps.openFile (h : Keeps files directory path text)
    (hopen : openFile files directory path = .ok opened) : Keeps opened directory path text := by
  obtain ⟨created, hcreated, happend⟩ := of_openFile hopen
  have hkeeps : created.Holds (FilePath.resolve directory path) (Text.toBytes text) ∨
      created.get? (FilePath.resolve directory path) = some .directory := by
    rcases hcreated with rfl | ⟨above, hcreate⟩
    · exact .inl h
    · exact Files.Holds.createDirectories h hcreate
  rcases hkeeps with hkeeps | hdirectory
  · exact Files.Holds.openForAppend hkeeps happend
  · simp [Files.openForAppend, hdirectory] at happend

/-! ## Recording behind a torn line -/

/-- What a journal gives before and after entries are recorded in it, whatever text it had.  Before,
a torn line that is an entry is read like any other.  After, everything is there that was there
before, and the recorded entries behind it, unless something was recorded behind a torn line that
has more in it than blanks: then neither that line is read nor the first of the entries. -/
theorem load_record (hkeeps : Keeps files directory path text)
    (hopen : openFile files directory path = .ok opened)
    (hadded : ∀ e ∈ added, e.time.IsRegular) :
    load files directory path =
        .ok (entries (wholeLines text) ++ (entryOfLine? (tornLine text)).toList) ∧
      load (record opened directory path added) directory path =
        .ok (if added = [] ∨ (tornLine text).all Json.isBlank then entries text ++ added
          else entries (wholeLines text) ++ added.tail) := by
  constructor
  · rw [load_of_keeps hkeeps, entries_eq_whole_append_torn text]
  · have hrecorded := (hkeeps.openFile hopen).record added
    rw [load_of_keeps hrecorded, entries_append_written text hadded]

theorem resolve_name : FilePath.resolve [] "j" = ["j"] := by cbv

/-- A journal whose only line was cut off behind its first character. -/
def cutOff : Files := ⟨[(["j"], .file [123])]⟩

/-- The end of a run at the first second of 1970. -/
def lastEntry : JournalEntry := ⟨⟨⟨1970, 1, 1⟩, 0, 0⟩, "b", .disconnected⟩

theorem keeps_cutOff : Keeps cutOff [] "j" ['{'] := by
  have hbytes : Text.toBytes ['{'] = [123] := by decide
  rw [Keeps, resolve_name, hbytes]
  exact .inl rfl

theorem openFile_cutOff : openFile cutOff [] "j" = .ok cutOff := by cbv

theorem isRegular_lastEntry : lastEntry.time.IsRegular := ⟨by decide, by decide, by decide⟩

theorem load_record_cutOff :
    Keeps cutOff [] "j" ['{'] ∧ openFile cutOff [] "j" = .ok cutOff ∧
      lastEntry.time.IsRegular ∧
      load (record cutOff [] "j" [lastEntry, lastEntry]) [] "j" = .ok [lastEntry] := by
  refine ⟨keeps_cutOff, openFile_cutOff, isRegular_lastEntry, ?_⟩
  exact (load_record keeps_cutOff openFile_cutOff (by simp [isRegular_lastEntry])).2

/-- Nothing was to be read in the journal, and the entry that is recorded in it is lost. -/
theorem lost_behind_cutOff :
    openFile cutOff [] "j" = .ok cutOff ∧ load cutOff [] "j" = .ok [] ∧
      load (record cutOff [] "j" [lastEntry]) [] "j" ≠ .ok ([] ++ [lastEntry]) := by
  refine ⟨openFile_cutOff, load_of_keeps keeps_cutOff, ?_⟩
  have hentries := entries_append_written ['{'] (List.forall_mem_singleton.mpr isRegular_lastEntry)
  rw [load_of_keeps (keeps_cutOff.record [lastEntry]), hentries]
  exact nofun

end InterruptStress.Journal
