import InterruptStress.Proofs.Json.Written

/-!
# Spellings of a string

A character of a string stands for itself, or is given by an escape of one letter, by its unit in
four hexadecimal digits, or by a pair of surrogates (`Json.Spelled`).  However each character is
spelled, the reader reads the string (`spellsString_of_spelled`), so the texts of a document
(`Json.IsText`) differ in blanks and in spellings.
-/

namespace InterruptStress.Json

/-- The character may stand for itself between quotes. -/
def standsForItself (c : Char) : Bool := c != '"' && c != '\\' && !decide (c.toNat < 0x20)

/-- The characters of a string, and what may stand for them between quotes. -/
inductive Spelled : List Char → List Char → Prop where
  | nil : Spelled [] []
  | plain (c : Char) (cs spelling : List Char) (hc : standsForItself c = true)
      (hrest : Spelled cs spelling) : Spelled (c :: cs) (c :: spelling)
  | letter (d c : Char) (cs spelling : List Char) (hletter : shortEscape? d = some c)
      (hrest : Spelled cs spelling) : Spelled (c :: cs) ('\\' :: d :: spelling)
  | unit (a b c d : Char) (n : Nat) (cs spelling : List Char) (hunit : unit? a b c d = some n)
      (hhigh : isHighSurrogate n = false) (hlow : isLowSurrogate n = false)
      (hrest : Spelled cs spelling) :
      Spelled (Char.ofNat n :: cs) ('\\' :: 'u' :: a :: b :: c :: d :: spelling)
  | pair (a b c d a' b' c' d' : Char) (high low : Nat) (cs spelling : List Char)
      (hunit : unit? a b c d = some high) (hunit' : unit? a' b' c' d' = some low)
      (hhigh : isHighSurrogate high = true) (hlow : isLowSurrogate low = true)
      (hrest : Spelled cs spelling) :
      Spelled (Char.ofNat (0x10000 + (high - 0xD800) * 0x400 + (low - 0xDC00)) :: cs)
        ('\\' :: 'u' :: a :: b :: c :: d :: '\\' :: 'u' :: a' :: b' :: c' :: d' :: spelling)

/-- A string without quotes, backslashes and control characters spells itself. -/
theorem spelled_self {cs : List Char} (h : cs.all standsForItself = true) : Spelled cs cs := by
  induction cs with
  | nil => exact .nil
  | cons c cs ih =>
    rw [List.all_cons, Bool.and_eq_true] at h
    exact .plain c cs cs h.1 (ih h.2)

theorem readPieces_unit {a b c d : Char} {n : Nat} (hunit : unit? a b c d = some n)
    (rest : List Char) :
    readPieces ('\\' :: 'u' :: a :: b :: c :: d :: rest) =
      (readPieces rest).map fun (pieces, rest) => (.unit n :: pieces, rest) := by
  rw [readPieces, hunit]
  cases readPieces rest <;> rfl

theorem ne_u_of_shortEscape? {c d : Char} (h : shortEscape? d = some c) : d ≠ 'u' := by
  rintro rfl
  cases h

/-- A spelling is read piece by piece, and the pieces are joined to what it spells. -/
theorem readPieces_spelled {cs spelling : List Char} (h : Spelled cs spelling)
    (rest : List Char) :
    ∃ pieces, readPieces (spelling ++ '"' :: rest) = some (pieces, rest) ∧
      joinPieces pieces = some cs := by
  induction h with
  | nil => exact ⟨[], rfl, rfl⟩
  | plain c cs spelling hc _ ih =>
    obtain ⟨pieces, hread, hjoin⟩ := ih
    simp only [standsForItself, Bool.and_eq_true, bne_iff_ne, Bool.not_eq_true',
      decide_eq_false_iff_not] at hc
    obtain ⟨⟨hquote, hbackslash⟩, hcontrol⟩ := hc
    refine ⟨.char c :: pieces, ?_, ?_⟩
    · rw [List.cons_append, readPieces_plain hquote hbackslash hcontrol, hread]
      rfl
    · rw [joinPieces_cons rfl, hjoin]
      rfl
  | letter d c cs spelling hletter _ ih =>
    obtain ⟨pieces, hread, hjoin⟩ := ih
    refine ⟨.char c :: pieces, ?_, ?_⟩
    · simp only [List.cons_append]
      rw [readPieces_shortEscape (ne_u_of_shortEscape? hletter) hletter, hread]
      rfl
    · rw [joinPieces_cons rfl, hjoin]
      rfl
  | unit a b c d n cs spelling hunit hhigh hlow _ ih =>
    obtain ⟨pieces, hread, hjoin⟩ := ih
    have hchar : (Piece.unit n).char? = some (Char.ofNat n) := by simp [Piece.char?, hhigh, hlow]
    refine ⟨.unit n :: pieces, ?_, ?_⟩
    · simp only [List.cons_append]
      rw [readPieces_unit hunit, hread]
      rfl
    · rw [joinPieces_cons hchar, hjoin]
      rfl
  | pair a b c d a' b' c' d' high low cs spelling hunit hunit' hhigh hlow _ ih =>
    obtain ⟨pieces, hread, hjoin⟩ := ih
    refine ⟨.unit high :: .unit low :: pieces, ?_, ?_⟩
    · simp only [List.cons_append]
      rw [readPieces_unit hunit, readPieces_unit hunit', hread]
      rfl
    · simp [joinPieces, hhigh, hlow, hjoin]

theorem spellsString_of_spelled {cs spelling : List Char} (h : Spelled cs spelling) :
    SpellsString (some (String.ofList cs)) (spelling ++ ['"']) := by
  intro rest
  obtain ⟨pieces, hread, hjoin⟩ := readPieces_spelled h rest
  rw [List.append_assoc, List.singleton_append, readString, hread, Option.map_some]
  simp only [hjoin, Option.map_some]

instance (cs : List Char) : Decidable (AllBlank cs) :=
  decidable_of_iff (cs.all isBlank = true) List.all_eq_true

/-- A text of a document, with or without blanks around it. -/
def IsText (j : Json) (text : String) : Prop :=
  ∃ before cs after, AllBlank before ∧ Written j cs ∧ AllBlank after ∧
    text.toList = before ++ (cs ++ after)

theorem ofText?_of_isText {j : Json} {text : String} (h : j.IsText text) :
    ofText? text = some j := by
  obtain ⟨before, cs, after, hbefore, hwritten, hafter, htext⟩ := h
  rw [ofText?, htext, read?_written hwritten hbefore hafter]

end InterruptStress.Json
