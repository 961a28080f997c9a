/-!
# Files

A tree of directories and files, as far as the harness uses one: reading a file, creating the
directories above a file, and opening a file to append to it.  Contents are bytes.
-/

namespace InterruptStress

/-- The names on the way from the root to a file. -/
abbrev FilePath := List String

namespace FilePath

/-- The names in the text of a path; empty names and single dots say nothing. -/
def names (text : String) : List String :=
  (text.splitOn "/").filter fun name => name ≠ "" && name ≠ "."

/-- The place a path names, seen from a directory. -/
def resolve (directory : FilePath) (text : String) : FilePath :=
  if text.startsWith "/" then names text else directory ++ names text

/-- The text of the directory above, unless there is none to speak of. -/
def parentText? (text : String) : Option String :=
  match (names text).dropLast with
  | [] =>
    if text.startsWith "/" then if names text = [] then none else some "/"
    else if (text.splitOn "/").head? = some "." && names text ≠ [] then some "." else none
  | above => some ((if text.startsWith "/" then "/" else "") ++ "/".intercalate above)

end FilePath

/-- What stands at a path. -/
inductive FileEntry where
  | directory
  | file (content : List UInt8)

/-- A tree of files; a later entry for a path replaces an earlier one. -/
structure Files where
  entries : List (FilePath × FileEntry)

namespace Files

def empty : Files := ⟨[]⟩

/-- What stands at a path.  The root is a directory, and so is everything above an entry. -/
def get? (files : Files) (path : FilePath) : Option FileEntry :=
  match files.entries.find? fun e => e.1 == path with
  | some (_, entry) => some entry
  | none =>
    if path.isEmpty || files.entries.any (fun e => path.isPrefixOf e.1) then some .directory
    else none

def put (files : Files) (path : FilePath) (entry : FileEntry) : Files :=
  ⟨(path, entry) :: files.entries.filter fun e => e.1 != path⟩

/-- The content of a file; a directory has none. -/
def content? (files : Files) (path : FilePath) : Option (List UInt8) :=
  match files.get? path with
  | some (.file content) => some content
  | _ => none

/-- Creates a directory and those above it, unless a file is in the way. -/
def createDirectories (files : Files) (path : FilePath) : Option Files :=
  let above := (List.range (path.length + 1)).map path.take
  if above.any fun p => (files.content? p).isSome then none
  else if (files.get? path).isSome then some files
  else some (files.put path .directory)

/-- Makes sure that a file is there to append to: it must not be a directory, and the
directory above it has to exist. -/
def openForAppend (files : Files) (path : FilePath) : Option Files :=
  match files.get? path with
  | some .directory => none
  | some (.file _) => some files
  | none =>
    match files.get? path.dropLast with
    | some .directory => if path.isEmpty then none else some (files.put path (.file []))
    | _ => none

/-- Appends to a file. -/
def append (files : Files) (path : FilePath) (bytes : List UInt8) : Files :=
  files.put path (.file ((files.content? path).getD [] ++ bytes))

end Files

end InterruptStress
