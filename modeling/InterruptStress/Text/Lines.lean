/-!
# Lines

How a stream is cut into lines.  A line ends at a line feed; one carriage return directly in
front of that line feed belongs to the line's end.  What follows the last line feed is a line
of its own unless it is empty, and a carriage return there is kept.  The cut is stated over
any alphabet, so that it serves both characters and bytes.
-/

namespace InterruptStress.Text

/-- The two symbols that end a line. -/
structure LineEnds (α : Type) where
  lineFeed : α
  carriageReturn : α

/-- Line ends among characters. -/
def LineEnds.chars : LineEnds Char := ⟨'\n', '\r'⟩

/-- Line ends among bytes. -/
def LineEnds.bytes : LineEnds UInt8 := ⟨10, 13⟩

section
variable {α : Type} [DecidableEq α]

/-- A finished line without the carriage return in front of its line feed. -/
def LineEnds.chomp (ends : LineEnds α) (line : List α) : List α :=
  if line.getLast? = some ends.carriageReturn then line.dropLast else line

/-- Cuts a stream into lines, where `line` is what has been read of the current one. -/
def LineEnds.cut (ends : LineEnds α) (line : List α) : List α → List (List α)
  | [] => if line.isEmpty then [] else [line.reverse]
  | c :: rest =>
    if c = ends.lineFeed then ends.chomp line.reverse :: ends.cut [] rest
    else ends.cut (c :: line) rest

/-- The lines of a stream. -/
def LineEnds.lines (ends : LineEnds α) (stream : List α) : List (List α) := ends.cut [] stream

theorem LineEnds.cut_append (ends : LineEnds α) {text : List α} (h : ends.lineFeed ∉ text)
    (line rest : List α) :
    ends.cut line (text ++ ends.lineFeed :: rest)
      = ends.chomp (line.reverse ++ text) :: ends.lines rest := by
  induction text generalizing line with
  | nil => simp [cut, lines]
  | cons c text ih =>
    have hc : c ≠ ends.lineFeed := fun e => h (by simp [e])
    have htext : ends.lineFeed ∉ text := fun m => h (by simp [m])
    simp [cut, hc, ih htext]

/-- A line that is written with its line feed is read back first. -/
theorem LineEnds.lines_append (ends : LineEnds α) {text : List α} (h : ends.lineFeed ∉ text)
    (rest : List α) :
    ends.lines (text ++ ends.lineFeed :: rest) = ends.chomp text :: ends.lines rest :=
  ends.cut_append h [] rest

end

/-- The lines of a text. -/
def lines (text : List Char) : List (List Char) := LineEnds.chars.lines text

end InterruptStress.Text
