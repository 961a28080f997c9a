/-!
# Blank characters

The characters that separate words in any script, and trimming by them.  The list is the
Unicode property `White_Space`; it is wider than the four blanks of JSON, and every place
that trims a line, a mode's name or an environment value uses this one.
-/

namespace InterruptStress.Text

/-- A character with the Unicode property `White_Space`. -/
def isBlank (c : Char) : Bool :=
  let n := c.toNat
  (0x09 ≤ n && n ≤ 0x0D) || n == 0x20 || n == 0x85 || n == 0xA0 || n == 0x1680 ||
    (0x2000 ≤ n && n ≤ 0x200A) || n == 0x2028 || n == 0x2029 || n == 0x202F || n == 0x205F ||
    n == 0x3000

/-- Drops the blanks in front. -/
def trimStart (cs : List Char) : List Char := cs.dropWhile isBlank

/-- Drops the blanks at both ends. -/
def trim (cs : List Char) : List Char :=
  ((trimStart cs).reverse.dropWhile isBlank).reverse

/-- Text whose ends are not blank is left as it is. -/
theorem trim_eq_self {cs : List Char} (hhead : ∀ c ∈ cs.head?, isBlank c = false)
    (hlast : ∀ c ∈ cs.getLast?, isBlank c = false) : trim cs = cs := by
  have hstart : trimStart cs = cs := by
    cases cs with
    | nil => rfl
    | cons c rest => simp [trimStart, hhead c (by simp)]
  have hend : cs.reverse.dropWhile isBlank = cs.reverse := by
    cases hrev : cs.reverse with
    | nil => rfl
    | cons c rest =>
      have hmem : c ∈ cs.getLast? := by
        rw [← List.head?_reverse, hrev]; rfl
      simp [hlast c hmem]
  rw [trim, hstart, hend, List.reverse_reverse]

end InterruptStress.Text
