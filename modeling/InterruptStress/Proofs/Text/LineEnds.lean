import InterruptStress.Text.Blank
import InterruptStress.Text.Lines
import InterruptStress.Text.Utf8

/-!
# Line ends in text and among its bytes

A stream is cut into lines before its bytes are known to be text.  That does no harm: a byte below
128 stands for a character of its own and is never part of another's bytes, so a line feed among
the bytes is a line feed of the text, and a carriage return that is taken off a line's bytes is
taken off its text.  There it is a blank, and so the trimmed text is the same.
-/

namespace InterruptStress.Text

/-! ## Bytes and characters -/

theorem toBytes_eq_flatMap (cs : List Char) : toBytes cs = cs.flatMap String.utf8EncodeChar := by
  rw [toBytes, String.toByteArray_ofList, List.utf8Encode, List.data_toByteArray]

theorem toBytes_append (cs ds : List Char) : toBytes (cs ++ ds) = toBytes cs ++ toBytes ds := by
  simp only [toBytes_eq_flatMap, List.flatMap_append]

theorem ofBytes?_eq_some_iff {bytes : List UInt8} {cs : List Char} :
    ofBytes? bytes = some cs ↔ toBytes cs = bytes := by
  constructor
  · intro h
    obtain ⟨s, hs, rfl⟩ := Option.map_eq_some_iff.mp h
    rw [String.fromUTF8?] at hs
    split at hs
    · obtain rfl := Option.some.inj hs
      rw [toBytes, String.ofList_toList, String.fromUTF8]
    · cases hs
  · rintro rfl
    exact ofBytes?_toBytes cs

/-- A byte below 128 is all that its character is written in. -/
theorem utf8EncodeChar_of_mem {c : Char} {b : UInt8} (hb : b.toNat < 128)
    (hmem : b ∈ String.utf8EncodeChar c) : String.utf8EncodeChar c = [b] := by
  have hhigh {n : Nat} (hlow : 128 ≤ n) (hbyte : n < 256) : b ≠ UInt8.ofNat n := by
    rintro rfl
    rw [UInt8.toNat_ofNat_of_lt' hbyte] at hb
    omega
  unfold String.utf8EncodeChar at hmem ⊢
  simp only at hmem ⊢
  split at hmem
  · rw [if_pos ‹_›, List.mem_singleton.mp hmem]
  · exfalso
    revert hmem
    split
    · simp only [List.mem_cons, List.not_mem_nil, or_false, not_or, imp_false]
      exact ⟨hhigh (by omega) (by omega), hhigh (by omega) (by omega)⟩
    split
    · simp only [List.mem_cons, List.not_mem_nil, or_false, not_or, imp_false]
      exact ⟨hhigh (by omega) (by omega), hhigh (by omega) (by omega),
        hhigh (by omega) (by omega)⟩
    · simp only [List.mem_cons, List.not_mem_nil, or_false, not_or, imp_false]
      exact ⟨hhigh (by omega) (by omega), hhigh (by omega) (by omega),
        hhigh (by omega) (by omega), hhigh (by omega) (by omega)⟩

/-- Characters that are written in one and the same byte are the same. -/
theorem char_of_utf8EncodeChar {c d : Char}
    (h : String.utf8EncodeChar c = String.utf8EncodeChar d) : c = d := by
  have htext : ofBytes? (toBytes [c]) = ofBytes? (toBytes [d]) := by
    rw [toBytes_eq_flatMap, toBytes_eq_flatMap, List.flatMap_cons, List.flatMap_cons, h]
  rw [ofBytes?_toBytes, ofBytes?_toBytes] at htext
  exact (List.cons.inj (Option.some.inj htext)).1

theorem lineFeed_mem_toBytes {cs : List Char} :
    LineEnds.bytes.lineFeed ∈ toBytes cs ↔ '\n' ∈ cs := by
  rw [toBytes_eq_flatMap, List.mem_flatMap]
  constructor
  · rintro ⟨c, hc, hmem⟩
    have hfeed : String.utf8EncodeChar c = String.utf8EncodeChar '\n' :=
      utf8EncodeChar_of_mem (by decide) hmem
    exact char_of_utf8EncodeChar hfeed ▸ hc
  · exact fun h => ⟨'\n', h, by decide⟩

/-! ## The carriage return in front of a line feed -/

/-- A carriage return behind a line's bytes is one behind its text. -/
theorem ofBytes?_append_return (bytes : List UInt8) :
    ofBytes? (bytes ++ [LineEnds.bytes.carriageReturn]) =
      (ofBytes? bytes).map (· ++ ['\r']) := by
  cases htext : ofBytes? bytes with
  | some cs =>
    obtain rfl := ofBytes?_eq_some_iff.mp htext
    rw [Option.map_some, ofBytes?_eq_some_iff, toBytes_append]
    rfl
  | none =>
    rw [Option.map_none, Option.eq_none_iff_forall_ne_some]
    intro cs hcs
    have hbytes := ofBytes?_eq_some_iff.mp hcs
    rcases List.eq_nil_or_concat cs with rfl | ⟨init, c, rfl⟩
    · cases bytes <;> cases hbytes
    obtain ⟨front, b, hchar⟩ :=
      (List.eq_nil_or_concat (String.utf8EncodeChar c)).resolve_left String.utf8EncodeChar_ne_nil
    -- The last character ends in a carriage return's byte, and so it has no other bytes.
    have hsplit : toBytes init ++ front = bytes ∧ b = LineEnds.bytes.carriageReturn := by
      rw [List.concat_eq_append, toBytes_append, toBytes_eq_flatMap [c], List.flatMap_singleton,
        hchar, List.concat_eq_append, ← List.append_assoc] at hbytes
      simpa using List.append_inj' hbytes rfl
    obtain ⟨hinit, rfl⟩ := hsplit
    have hone := utf8EncodeChar_of_mem (b := LineEnds.bytes.carriageReturn) (by decide)
      (by rw [hchar]; simp)
    obtain rfl : front = [] := by
      rw [hone, List.concat_eq_append] at hchar
      simpa using congrArg List.length hchar
    rw [List.append_nil] at hinit
    rw [ofBytes?_eq_some_iff.mpr hinit] at htext
    cases htext

theorem chomp_cases (ends : LineEnds UInt8) (line : List UInt8) :
    ends.chomp line = line ∨ line = ends.chomp line ++ [ends.carriageReturn] := by
  unfold LineEnds.chomp
  split
  · next h =>
    obtain ⟨init, rfl⟩ := List.getLast?_eq_some_iff.mp h
    exact .inr (by rw [List.dropLast_concat])
  · exact .inl rfl

theorem chomp_append_return (ends : LineEnds UInt8) (line : List UInt8) :
    ends.chomp (line ++ [ends.carriageReturn]) = line := by
  rw [LineEnds.chomp, List.getLast?_concat, if_pos rfl, List.dropLast_concat]

theorem trim_append {cs blanks : List Char} (h : ∀ c ∈ blanks, isBlank c = true) :
    trim (cs ++ blanks) = trim cs := by
  have hstart : trimStart blanks = [] := by
    rw [trimStart, ← List.append_nil blanks, List.dropWhile_append_of_pos h, List.dropWhile_nil]
  have hend (ds : List Char) :
      (ds ++ blanks).reverse.dropWhile isBlank = ds.reverse.dropWhile isBlank := by
    rw [List.reverse_append]
    exact List.dropWhile_append_of_pos fun c hc => h c (List.mem_reverse.mp hc)
  have happend : trimStart (cs ++ blanks) =
      if (trimStart cs).isEmpty then trimStart blanks else trimStart cs ++ blanks :=
    List.dropWhile_append
  unfold trim
  rw [happend]
  split
  · next hempty => rw [hstart, List.isEmpty_iff.mp hempty]
  · rw [hend]

theorem trim_prepend {blanks : List Char} (h : ∀ c ∈ blanks, isBlank c = true) (cs : List Char) :
    trim (blanks ++ cs) = trim cs := by
  rw [trim, trimStart, List.dropWhile_append_of_pos h]
  rfl

theorem length_chomp_le (line : List UInt8) :
    (LineEnds.bytes.chomp line).length ≤ line.length := by
  rw [LineEnds.chomp]
  split
  · rw [List.length_dropLast]
    exact Nat.sub_le _ 1
  · exact Nat.le_refl _

/-- Whether a line's bytes are text, and what the trimmed text is, does not depend on the carriage
return in front of the line feed. -/
theorem trim_ofBytes?_chomp (line : List UInt8) :
    (ofBytes? (LineEnds.bytes.chomp line)).map trim = (ofBytes? line).map trim := by
  rcases chomp_cases LineEnds.bytes line with h | h
  · rw [h]
  · have hblank : ∀ c ∈ ['\r'], isBlank c = true := List.forall_mem_singleton.mpr rfl
    have htrim : trim ∘ (· ++ ['\r']) = trim := funext fun _ => trim_append hblank
    conv => rhs; rw [h, ofBytes?_append_return, Option.map_map, htrim]

theorem isSome_ofBytes?_chomp (line : List UInt8) :
    (ofBytes? (LineEnds.bytes.chomp line)).isSome = (ofBytes? line).isSome := by
  rw [← Option.isSome_map, trim_ofBytes?_chomp, Option.isSome_map]

/-- What follows the last line feed is a line. -/
theorem LineEnds.lines_of_not_mem {α : Type} [DecidableEq α] (ends : LineEnds α)
    {text : List α} (h : ends.lineFeed ∉ text) (hne : text ≠ []) : ends.lines text = [text] := by
  have hcut (line : List α) (hline : line.reverse ++ text ≠ []) :
      ends.cut line text = [line.reverse ++ text] := by
    induction text generalizing line with
    | nil => simpa [cut] using hline
    | cons c text ih =>
      have hc : c ≠ ends.lineFeed := fun e => h (by simp [e])
      have htext : ends.lineFeed ∉ text := fun m => h (by simp [m])
      by_cases hne : text = []
      · simp [cut, hc, hne]
      · simp [cut, hc, ih htext hne]
  exact hcut [] hne

/-- Behind a line feed the cut begins anew. -/
theorem LineEnds.cut_append_lineFeed {α : Type} [DecidableEq α] (ends : LineEnds α)
    (line text rest : List α) :
    ends.cut line (text ++ ends.lineFeed :: rest) =
      ends.cut line (text ++ [ends.lineFeed]) ++ ends.lines rest := by
  induction text generalizing line with
  | nil => simp [cut, lines]
  | cons c text ih =>
    by_cases hc : c = ends.lineFeed
    · simp [cut, hc, ih]
    · simp [cut, hc, ih]

/-- What holds of an unfinished line, and of a line in front of every stream that it holds of,
holds of every stream. -/
theorem LineEnds.stream_induction {α : Type} [DecidableEq α] (ends : LineEnds α)
    {P : List α → Prop} (unfinished : ∀ text, ends.lineFeed ∉ text → P text)
    (line : ∀ text rest, ends.lineFeed ∉ text → P rest → P (text ++ ends.lineFeed :: rest))
    (stream : List α) : P stream := by
  have hunfinished (text : List α) (htext : ends.lineFeed ∉ text) : P (text ++ stream) := by
    induction stream generalizing text with
    | nil => exact unfinished _ (by rwa [List.append_nil])
    | cons c stream ih =>
      by_cases hc : c = ends.lineFeed
      · rw [hc]
        exact line text stream htext (ih [] List.not_mem_nil)
      · rw [← List.singleton_append, ← List.append_assoc]
        exact ih (text ++ [c]) (by simp [htext, Ne.symm hc])
  exact hunfinished [] List.not_mem_nil

end InterruptStress.Text
