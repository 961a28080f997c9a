import InterruptStress.ErrorReport
import InterruptStress.Files
import InterruptStress.Journal
import InterruptStress.Text.Utf8

/-!
# Journal files

Opening a journal creates the directories above it; recording appends one line; reading a
journal that is not there gives no entries.
-/

namespace InterruptStress

/-- Why a journal cannot be used. -/
inductive JournalError where
  | createDirectory (path : String)
  | openFile (path : String)
  | unreadable (path : String)
deriving DecidableEq

def JournalError.report : JournalError → ErrorReport
  | createDirectory path => .of s!"Failed to create journal directory {path}"
  | openFile path => .of s!"Failed to open journal {path}"
  | unreadable path => .of s!"Failed to read journal {path}"

namespace Journal

/-- Makes a journal ready to be appended to. -/
def openFile (files : Files) (directory : FilePath) (path : String) : Except JournalError Files := do
  let files ← match FilePath.parentText? path with
    | none => pure files
    | some above =>
      match files.createDirectories (FilePath.resolve directory above) with
      | some files => pure files
      | none => throw (.createDirectory above)
  match files.openForAppend (FilePath.resolve directory path) with
  | some files => pure files
  | none => throw (.openFile path)

/-- The bytes that an entry appends to a journal. -/
def lineBytes (entry : JournalEntry) : List UInt8 := Text.toBytes (append [] entry)

/-- Appends entries to a journal that has been opened. -/
def record (files : Files) (directory : FilePath) (path : String) (entries : List JournalEntry) :
    Files :=
  files.append (FilePath.resolve directory path) (entries.flatMap lineBytes)

/-- The entries of a journal file. -/
def load (files : Files) (directory : FilePath) (path : String) :
    Except JournalError (List JournalEntry) :=
  let place := FilePath.resolve directory path
  match files.get? place with
  | none => .ok []
  | some .directory => .error (.unreadable path)
  | some (.file content) =>
    match Text.ofBytes? content with
    | some text => .ok (entries text)
    | none => .error (.unreadable path)

end Journal

end InterruptStress
