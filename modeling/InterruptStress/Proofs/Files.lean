import InterruptStress.Files

/-!
# What stands at a path

Putting an entry at a path settles what stands there and neither takes away nor changes a file
elsewhere.  So what a file holds (`Files.Holds`; a file that is missing holds nothing) stays the
same when the directories above it are created and when it is opened to append to it, and grows by
what is appended.
-/

namespace InterruptStress.Files

variable {files files' : Files} {path other : FilePath} {entry : FileEntry}
  {content : List UInt8}

@[simp] theorem get?_put_self (files : Files) (path : FilePath) (entry : FileEntry) :
    (files.put path entry).get? path = some entry := by
  simp [get?, put]

theorem find?_put_of_ne (h : other ≠ path) :
    (files.put path entry).entries.find? (fun e => e.1 == other) =
      files.entries.find? fun e => e.1 == other := by
  rw [put, List.find?_cons_of_neg (by simpa using Ne.symm h), List.find?_filter]
  congr 1
  funext e
  by_cases he : e.1 = other <;> simp [he, h]

/-- A file is found where it has been found as long as nothing is put there. -/
theorem get?_put_of_ne (h : other ≠ path) :
    (files.put path entry).get? other = some (.file content) ↔
      files.get? other = some (.file content) := by
  simp only [get?, find?_put_of_ne h]
  cases files.entries.find? fun e => e.1 == other with
  | some e => exact Iff.rfl
  | none =>
    have hdirectory (b : Bool) :
        (if b then some FileEntry.directory else none) ≠ some (.file content) := by
      cases b <;> simp
    exact ⟨fun hfile => absurd hfile (hdirectory _), fun hfile => absurd hfile (hdirectory _)⟩

/-- A file is there with its content, or none is there and its content is empty. -/
def Holds (files : Files) (path : FilePath) (content : List UInt8) : Prop :=
  files.get? path = some (.file content) ∨ files.get? path = none ∧ content = []

theorem Holds.append (h : files.Holds path content) (bytes : List UInt8) :
    (files.append path bytes).Holds path (content ++ bytes) := by
  rcases h with hfile | ⟨hnone, rfl⟩
  · exact .inl (by simp [Files.append, content?, hfile])
  · exact .inl (by simp [Files.append, content?, hnone])

/-- The directories above a file do not change it, unless one of them is put in its place. -/
theorem Holds.createDirectories (h : files.Holds path content)
    (hcreate : files.createDirectories other = some files') :
    files'.Holds path content ∨ files'.get? path = some .directory := by
  unfold Files.createDirectories at hcreate
  simp only at hcreate
  split at hcreate
  · cases hcreate
  split at hcreate
  · obtain rfl := Option.some.inj hcreate
    exact .inl h
  · next hother =>
    obtain rfl := Option.some.inj hcreate
    by_cases hsame : path = other
    · subst hsame
      exact .inr (get?_put_self _ _ _)
    · rcases h with hfile | ⟨hnone, rfl⟩
      · exact .inl (.inl ((get?_put_of_ne hsame).mpr hfile))
      · cases hnow : (files.put other .directory).get? path with
        | none => exact .inl (.inr ⟨hnow, rfl⟩)
        | some now =>
          cases now with
          | directory => exact .inr rfl
          | file content =>
            rw [(get?_put_of_ne hsame).mp hnow] at hnone
            cases hnone

/-- A file that is opened holds what it has held. -/
theorem Holds.openForAppend (h : files.Holds path content)
    (hopen : files.openForAppend path = some files') : files'.Holds path content := by
  unfold Files.openForAppend at hopen
  rcases h with hfile | ⟨hnone, rfl⟩
  · rw [hfile] at hopen
    obtain rfl := Option.some.inj hopen
    exact .inl hfile
  · rw [hnone] at hopen
    simp only at hopen
    split at hopen
    · split at hopen
      · cases hopen
      · obtain rfl := Option.some.inj hopen
        exact .inl (get?_put_self _ _ _)
    · cases hopen

end InterruptStress.Files
