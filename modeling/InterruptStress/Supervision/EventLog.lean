import InterruptStress.JournalFile

/-!
# The journal of a run

A run hands every event that it receives to its journal.  The journal writes one line for it
through a buffer and empties the buffer at once.  The file may take only the first bytes of what
is written, and then writing fails: the run gives its journal up, and what stands in the buffer
then is written once more, whatever comes of that.
-/

namespace InterruptStress

/-- A file that is appended to through a buffer. -/
structure BufferedFile where
  /-- What the file got, the latest first. -/
  latestFirst : List (List UInt8)
  pending : List UInt8
deriving DecidableEq

namespace BufferedFile

def empty : BufferedFile := ⟨[], []⟩

/-- How many bytes the buffer holds. -/
def capacity : Nat := 8192

/-- All bytes that the file got. -/
def handed (b : BufferedFile) : List UInt8 := b.latestFirst.reverse.flatten

/-- Puts bytes into the buffer. -/
def keep (b : BufferedFile) (bytes : List UInt8) : BufferedFile :=
  { b with pending := b.pending ++ bytes }

/-- Hands bytes to the file, which takes as many as it has room for, and gives back the others.
Without a bound it takes them all. -/
def hand (b : BufferedFile) (bytes : List UInt8) (room : Option Nat) : BufferedFile × List UInt8 :=
  let count := room.getD bytes.length
  ({ b with latestFirst := bytes.take count :: b.latestFirst }, bytes.drop count)

/-- Empties the buffer, if the file takes all that is in it; what it does not take stays. -/
def flush (b : BufferedFile) (room : Option Nat) : BufferedFile × Bool :=
  let (b, pending) := b.hand b.pending room
  ({ b with pending }, pending.isEmpty)

/-- Writes bytes: into the buffer if they fit in, which is emptied for them if need be, and past
it if they never fit in. -/
def write (b : BufferedFile) (bytes : List UInt8) (room : Option Nat) : BufferedFile × Bool :=
  let spare := capacity - b.pending.length
  if bytes.length < spare then (b.keep bytes, true)
  else
    let (emptied, fits) := if spare < bytes.length then b.flush room else (b, true)
    if !fits then (emptied, false)
    else if bytes.length < capacity then (emptied.keep bytes, true)
    else
      let (written, left) := emptied.hand bytes (room.map (· - b.pending.length))
      (written, left.isEmpty)

end BufferedFile

/-- How the record of an event goes: its time, and how many bytes the file takes at each of the
times at which it may be written to, if it does not take all. -/
structure Writing where
  time : Timestamp
  text : Option Nat
  lineFeed : Option Nat
  flush : Option Nat
  /-- When the journal is given up. -/
  close : Option Nat
deriving DecidableEq, Inhabited

namespace Writing

/-- Everything can be written. -/
def free (time : Timestamp) : Writing := ⟨time, none, none, none, none⟩

/-- Nothing can be written. -/
def full (time : Timestamp) : Writing := ⟨time, some 0, some 0, some 0, some 0⟩

end Writing

/-- A journal of the events that were received. -/
structure EventLog where
  /-- The run id that its entries have. -/
  runId : String
  file : BufferedFile
  /-- Nothing is written any more once an event could not be written. -/
  isOpen : Bool
deriving DecidableEq

namespace EventLog

/-- A journal that has been opened. -/
def opened (runId : String) : EventLog := ⟨runId, .empty, true⟩

/-- No journal. -/
def off : EventLog := ⟨"", .empty, false⟩

/-- The entry for an event. -/
def entry (log : EventLog) (event : TargetEvent) (writing : Writing) : JournalEntry :=
  ⟨writing.time, log.runId, event⟩

/-- The bytes of an entry's text, which a line feed ends. -/
def textBytes (entry : JournalEntry) : List UInt8 := Text.toBytes (Wire.toJson entry).compact

/-- Writes the line of an entry and empties the buffer. -/
def writeLine (file : BufferedFile) (entry : JournalEntry) (writing : Writing) :
    BufferedFile × Bool :=
  let (file, ok) := file.write (textBytes entry) writing.text
  if !ok then (file, false)
  else
    let (file, ok) := file.write (Text.toBytes ['\n']) writing.lineFeed
    if !ok then (file, false) else file.flush writing.flush

/-- Writes an event, and gives the journal up if that fails. -/
def record (log : EventLog) (event : TargetEvent) (writing : Writing) : EventLog :=
  if log.isOpen then
    let (file, ok) := writeLine log.file (log.entry event writing) writing
    if ok then { log with file }
    else { log with file := { (file.flush writing.close).1 with pending := [] }, isOpen := false }
  else log

/-- Files after what a journal wrote has been appended to its file. -/
def save (log : EventLog) (files : Files) (directory : FilePath) (path : String) : Files :=
  files.append (FilePath.resolve directory path) log.file.handed

end EventLog

end InterruptStress
