import InterruptStress.Protocol.Message
import InterruptStress.Text.Lines
import InterruptStress.Timestamp

/-!
# Journals

A journal is a file of lines, one entry a line, to which runs append and from which entries
are read back.  Reading skips lines that are blank or are no entry, so that a damaged line
costs no other.
-/

namespace InterruptStress

/-- An event that a run received, and when. -/
structure JournalEntry where
  time : Timestamp
  runId : String
  event : TargetEvent
deriving DecidableEq

instance : Wire JournalEntry where
  toJson e := Json.record
    [("ts", Wire.toJson e.time), ("run_id", Wire.toJson e.runId), ("event", Wire.toJson e.event)]
  ofJson? ctx j := do
    let [time, runId, event] ← j.fields? ["ts", "run_id", "event"] | none
    let ctx := ctx.inner
    some ⟨← Json.required ctx time, ← Json.required ctx runId, ← Json.required ctx event⟩

namespace Journal

/-- The text of a journal after an entry has been appended. -/
def append (journal : List Char) (entry : JournalEntry) : List Char :=
  journal ++ (Wire.toJson entry).compact ++ ['\n']

/-- The entry on a line, unless the line is blank or damaged. -/
def entryOfLine? (line : List Char) : Option JournalEntry :=
  if line.all Text.isBlank then none else (Json.read? line).bind (Wire.ofJson? Json.Context.top)

/-- The entries of a journal. -/
def entries (journal : List Char) : List JournalEntry :=
  (Text.lines journal).filterMap entryOfLine?

end Journal

end InterruptStress
