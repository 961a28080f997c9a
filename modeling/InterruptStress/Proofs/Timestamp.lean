import InterruptStress.Proofs.Text.Digits
import InterruptStress.Timestamp

/-!
# Time stamps that are read back

The reader of time stamps is lenient and the writer strict.  Every part of a written time stamp
has its fixed width and stands without blanks around it, so that each of the reader's steps takes
exactly that part, and the instant comes back (`Timestamp.parse?_text`).
-/

namespace InterruptStress

namespace Text

theorem isBlank_of_isDigit {c : Char} (h : c.isDigit = true) : isBlank c = false := by
  have hrange : 48 ≤ c.toNat ∧ c.toNat ≤ 57 := by
    simpa [Char.isDigit, UInt32.le_iff_toNat_le] using h
  simp only [isBlank, Bool.or_eq_false_iff, Bool.and_eq_false_iff, decide_eq_false_iff_not,
    beq_eq_false_iff_ne]
  omega

theorem trimStart_cons {c : Char} (h : isBlank c = false) (cs : List Char) :
    trimStart (c :: cs) = c :: cs :=
  List.dropWhile_cons_of_neg (by simp [h])

/-- A padded number begins with a digit. -/
theorem padded_eq_cons (width n : Nat) :
    ∃ d ds, padded width n = d :: ds ∧ d.isDigit = true := by
  cases h : padded width n with
  | nil => exact absurd (List.append_eq_nil_iff.mp h).2 (digits_ne_nil n)
  | cons d ds => exact ⟨d, ds, rfl, isDigit_of_mem_padded (h ▸ List.mem_cons_self)⟩

theorem trimStart_padded (width n : Nat) (rest : List Char) :
    trimStart (padded width n ++ rest) = padded width n ++ rest := by
  obtain ⟨d, ds, hd, hdigit⟩ := padded_eq_cons width n
  rw [hd, List.cons_append, trimStart_cons (isBlank_of_isDigit hdigit)]

theorem ofDigits_append_replicate (ds : List Char) (k : Nat) :
    ofDigits (ds ++ List.replicate k '0') = ofDigits ds * 10 ^ k := by
  induction k with
  | zero => simp
  | succ k ih =>
    rw [List.replicate_succ', ← List.append_assoc, ofDigits, Nat.ofDigitChars_append]
    change Nat.ofDigitChars 10 ['0'] (ofDigits (ds ++ List.replicate k '0')) = _
    have hzero (m : Nat) : Nat.ofDigitChars 10 ['0'] m = m * 10 := Nat.mul_comm 10 m
    rw [hzero, ih, Nat.pow_succ, Nat.mul_assoc]

theorem takeWhile_padded (width n : Nat) :
    (padded width n).takeWhile Char.isDigit = padded width n := by
  have hdigits (c : Char) (hc : c ∈ padded width n) : c.isDigit = true := isDigit_of_mem_padded hc
  have hspan := spanDigits_append hdigits
    (nofun : ∀ c ∈ ([] : List Char).head?, c.isDigit = false)
  rw [List.append_nil] at hspan
  exact congrArg Prod.fst hspan

end Text

namespace Timestamp

/-- An instant that is no leap second, and so any instant that a clock shows. -/
structure IsRegular (t : Timestamp) : Prop where
  valid : t.date.isValid = true
  second : t.secondOfDay < 86400
  nanos : t.nanos < 1_000_000_000

/-- An instant of a year of four digits that is no leap second. -/
structure IsCivil (t : Timestamp) : Prop where
  valid : t.date.isValid = true
  year : 0 ≤ t.date.year ∧ t.date.year ≤ 9999
  second : t.secondOfDay < 86400
  nanos : t.nanos < 1_000_000_000

theorem IsCivil.isRegular {t : Timestamp} (h : t.IsCivil) : t.IsRegular :=
  ⟨h.valid, h.second, h.nanos⟩

/-! ## The parts -/

theorem readNumber_padded {width n : Nat} (hwidth : 0 < width) (hn : n < 10 ^ width)
    (rest : List Char) : readNumber width (Text.padded width n ++ rest) = some (n, rest) := by
  have hlength := Text.length_padded hwidth hn
  have htake : (Text.padded width n ++ rest).take width = Text.padded width n :=
    List.take_left' hlength
  have hdrop : (Text.padded width n ++ rest).drop width = rest := List.drop_left' hlength
  have hne : (Text.padded width n).isEmpty = false := by
    obtain ⟨d, ds, hd, -⟩ := Text.padded_eq_cons width n
    rw [hd]
    rfl
  unfold readNumber
  simp only [Text.trimStart_padded, htake, Text.takeWhile_padded, hne, hlength, hdrop,
    Text.ofDigits_padded]
  rfl

theorem readLongNumber_padded (width n : Nat) {rest : List Char}
    (hrest : ∀ c ∈ rest.head?, c.isDigit = false) :
    readLongNumber (Text.padded width n ++ rest) = some (n, rest) := by
  have hne : (Text.padded width n).isEmpty = false := by
    obtain ⟨d, ds, hd, -⟩ := Text.padded_eq_cons width n
    rw [hd]
    rfl
  unfold readLongNumber
  simp only [Text.spanDigits_append (fun _ => Text.isDigit_of_mem_padded) hrest, hne,
    Text.ofDigits_padded]
  rfl

theorem readYear_yearText (year : Int) {rest : List Char}
    (hrest : ∀ c ∈ rest.head?, c.isDigit = false) :
    readYear (yearText year ++ rest) = some (year, rest) := by
  have hlong : readLongNumber (Text.padded 4 year.natAbs ++ rest) = some (year.natAbs, rest) :=
    readLongNumber_padded 4 year.natAbs hrest
  unfold yearText
  split
  · next hyear =>
    have hnumber : readNumber 4 (Text.padded 4 year.natAbs ++ rest) = some (year.natAbs, rest) :=
      readNumber_padded (by decide) (by omega) rest
    unfold readYear
    rw [Text.trimStart_padded]
    obtain ⟨d, ds, hd, hdigit⟩ := Text.padded_eq_cons 4 year.natAbs
    rw [hd, List.cons_append] at hnumber ⊢
    split
    · next h =>
      rw [(List.cons.inj h).1] at hdigit
      cases hdigit
    · next h =>
      rw [(List.cons.inj h).1] at hdigit
      cases hdigit
    · rw [hnumber, Option.map_some]
      simp only [Int.natAbs_of_nonneg hyear.1]
  · next hyear =>
    split
    · next hnegative =>
      have habs : -(year.natAbs : Int) = year := by omega
      rw [readYear, List.cons_append, Text.trimStart_cons rfl]
      simp only [hlong, Option.map_some, habs]
    · next hnegative =>
      have habs : (year.natAbs : Int) = year := by omega
      rw [readYear, List.cons_append, Text.trimStart_cons rfl]
      simp only [hlong, Option.map_some, habs]

theorem readSeparator_padded {c : Char} (hc : Text.isBlank c = false) (width n : Nat)
    (rest : List Char) :
    readSeparator c (c :: (Text.padded width n ++ rest)) = some (Text.padded width n ++ rest) := by
  unfold readSeparator
  rw [Text.trimStart_cons hc]
  simp [Text.trimStart_padded]

theorem readNanos_padded {width n : Nat} (hwidth : 0 < width) (hmax : width ≤ 9)
    (hn : n < 10 ^ width) {rest : List Char} (hrest : ∀ c ∈ rest.head?, c.isDigit = false) :
    readNanos ('.' :: (Text.padded width n ++ rest)) = some (n * 10 ^ (9 - width), rest) := by
  have hlength := Text.length_padded hwidth hn
  have hne : (Text.padded width n).isEmpty = false := by
    obtain ⟨d, ds, hd, -⟩ := Text.padded_eq_cons width n
    rw [hd]
    rfl
  have htake : (Text.padded width n).take 9 = Text.padded width n :=
    List.take_of_length_le (by omega)
  unfold readNanos
  simp only [Text.spanDigits_append (fun _ => Text.isDigit_of_mem_padded) hrest, hne, htake,
    Text.ofDigits_append_replicate, Text.ofDigits_padded, hlength]
  rfl

theorem readNanos_fractionText {nanos : Nat} (hnanos : nanos < 1_000_000_000) :
    readNanos (fractionText nanos ++ ['Z']) = some (nanos, ['Z']) := by
  have hz : ∀ c ∈ ['Z'].head?, c.isDigit = false := fun _ h => Option.some.inj h ▸ rfl
  unfold fractionText
  split
  · next h => rw [h]; rfl
  split
  · next h =>
    rw [List.cons_append, readNanos_padded (by decide) (by decide) (by omega) hz]
    congr 2
    omega
  split
  · next h =>
    rw [List.cons_append, readNanos_padded (by decide) (by decide) (by omega) hz]
    congr 2
    omega
  · next h =>
    rw [List.cons_append, readNanos_padded (by decide) (by decide) (by omega) hz]
    congr 2
    omega

theorem minusOffset_zero {t : Timestamp} (h : t.secondOfDay < 86400) : t.minusOffset 0 = t := by
  have hlow : ¬ (t.secondOfDay : Int) < 0 := by omega
  have hhigh : ¬ (86400 : Int) ≤ t.secondOfDay := by omega
  simp only [minusOffset, Int.sub_zero, if_neg hlow, if_neg hhigh, Int.toNat_natCast]

/-! ## The whole -/

theorem toList_text {t : Timestamp} (h : t.nanos < 1_000_000_000) :
    t.text.toList = yearText t.date.year ++ '-' :: (Text.padded 2 t.date.month ++
      '-' :: (Text.padded 2 t.date.day ++ 'T' :: (Text.padded 2 (t.secondOfDay / 3600) ++
      ':' :: (Text.padded 2 (t.secondOfDay / 60 % 60) ++
      ':' :: (Text.padded 2 (t.secondOfDay % 60) ++ (fractionText t.nanos ++ ['Z'])))))) := by
  unfold text
  rw [String.toList_ofList, if_neg (by omega), if_neg (by omega)]
  simp only [List.append_assoc, List.cons_append, Nat.add_zero]

/-- A time stamp is read back. -/
theorem parse?_text {t : Timestamp} (h : t.IsRegular) : parse? t.text = some t := by
  obtain ⟨hvalid, hsecond, hnanos⟩ := h
  have hdate := hvalid
  simp only [Date.isValid, Bool.and_eq_true, decide_eq_true_eq] at hdate
  have hdays : daysInMonth t.date.year t.date.month ≤ 31 := by
    unfold daysInMonth
    split <;> (try split) <;> decide
  have hpair {n : Nat} (hn : n < 100) (rest : List Char) :
      readNumber 2 (Text.padded 2 n ++ rest) = some (n, rest) :=
    readNumber_padded (by decide) hn rest
  have hdash (n : Nat) (rest : List Char) := readSeparator_padded (c := '-') rfl 2 n rest
  have hcolon (n : Nat) (rest : List Char) := readSeparator_padded (c := ':') rfl 2 n rest
  have hoffset : readOffset (Text.trimStart ['Z']) = some (0, []) := rfl
  unfold parse?
  -- One step of the reader for each part of the text.
  have hyear (rest : List Char) :
      readYear (yearText t.date.year ++ '-' :: rest) = some (t.date.year, '-' :: rest) :=
    readYear_yearText t.date.year (by simp)
  refine Option.bind_eq_some_iff.mpr ⟨_, toList_text hnanos ▸ hyear _, ?_⟩
  refine Option.bind_eq_some_iff.mpr ⟨_, hdash _ _, ?_⟩
  refine Option.bind_eq_some_iff.mpr ⟨_, hpair (by omega) _, ?_⟩
  refine Option.bind_eq_some_iff.mpr ⟨_, hdash _ _, ?_⟩
  refine Option.bind_eq_some_iff.mpr ⟨_, hpair (by omega) _, ?_⟩
  refine Option.bind_eq_some_iff.mpr ⟨_, hpair (by omega) _, ?_⟩
  refine Option.bind_eq_some_iff.mpr ⟨_, hcolon _ _, ?_⟩
  refine Option.bind_eq_some_iff.mpr ⟨_, hpair (by omega) _, ?_⟩
  refine Option.bind_eq_some_iff.mpr ⟨_, hcolon _ _, ?_⟩
  refine Option.bind_eq_some_iff.mpr ⟨_, hpair (by omega) _, ?_⟩
  refine Option.bind_eq_some_iff.mpr ⟨_, readNanos_fractionText hnanos, ?_⟩
  refine Option.bind_eq_some_iff.mpr ⟨_, hoffset, ?_⟩
  have hwhole : t.secondOfDay / 3600 * 3600 + t.secondOfDay / 60 % 60 * 60 + t.secondOfDay % 60 =
      t.secondOfDay := by omega
  have hno60 : (t.secondOfDay % 60 == 60) = false := beq_eq_false_iff_ne.mpr (by omega)
  have hhours : ¬ 24 ≤ t.secondOfDay / 3600 := by omega
  have hminutes : ¬ 60 ≤ t.secondOfDay / 60 % 60 := by omega
  have hseconds : ¬ 60 < t.secondOfDay % 60 := by omega
  have hrange : Date.inYearRange t.date.year = true := hdate.1.1.1.1
  have htrim : (Text.trimStart []).isEmpty = true := rfl
  simp [htrim, hvalid, hhours, hminutes, hseconds, hno60, hwhole, minusOffset_zero hsecond, hrange]

end Timestamp

end InterruptStress
