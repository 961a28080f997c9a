import InterruptStress.Json.Reader
import InterruptStress.Json.Writer
import InterruptStress.Proofs.Text.Digits

/-!
# Strings and numbers that are read back

The reader's scanners undo what the writer does to a character and to an integer, whatever stands
behind: a string ends at its own quote, and a number ends where no digit, point or exponent
follows.
-/

namespace InterruptStress.Json

/-! ## Strings -/

/-- The character that a piece of a string stands for by itself. -/
def Piece.char? : Piece → Option Char
  | .char c => some c
  | .unit n => if isHighSurrogate n || isLowSurrogate n then none else some (Char.ofNat n)

/-- A piece that stands for a character by itself takes no part in a pair. -/
theorem joinPieces_cons {p : Piece} {c : Char} (hp : p.char? = some c) (pieces : List Piece) :
    joinPieces (p :: pieces) = (joinPieces pieces).map (c :: ·) := by
  cases p with
  | char d =>
    obtain rfl := Option.some.inj hp
    rfl
  | unit n =>
    simp only [Piece.char?] at hp
    split at hp
    · cases hp
    · next hsurrogate =>
      obtain rfl := Option.some.inj hp
      simp only [Bool.or_eq_true, not_or, Bool.not_eq_true] at hsurrogate
      obtain ⟨hhigh, hlow⟩ := hsurrogate
      cases pieces with
      | nil => simp [joinPieces, hhigh, hlow]
      | cons next rest => cases next <;> simp [joinPieces, hhigh, hlow]

/-- A control character is written as four hexadecimal digits. -/
theorem unit?_hexDigits {n : Nat} (hn : n < 0x20) :
    unit? '0' '0' (hexDigit (n / 16)) (hexDigit (n % 16)) = some n := by
  have hall : ∀ n < 0x20, unit? '0' '0' (hexDigit (n / 16)) (hexDigit (n % 16)) = some n := by
    decide
  exact hall n hn

theorem readPieces_shortEscape {c d : Char} (hc : c ≠ 'u') (hd : shortEscape? c = some d)
    (rest : List Char) :
    readPieces ('\\' :: c :: rest) =
      (readPieces rest).map fun (pieces, rest) => (.char d :: pieces, rest) := by
  rw [readPieces]
  · rw [hd]
    cases readPieces rest <;> rfl
  · intro _ _ _ _ _ hu
    exact absurd hu hc

theorem readPieces_control {n : Nat} (hn : n < 0x20) (rest : List Char) :
    readPieces ('\\' :: 'u' :: '0' :: '0' :: hexDigit (n / 16) :: hexDigit (n % 16) :: rest) =
      (readPieces rest).map fun (pieces, rest) => (.unit n :: pieces, rest) := by
  rw [readPieces, unit?_hexDigits hn]
  cases readPieces rest <;> rfl

theorem readPieces_plain {c : Char} (hquote : c ≠ '"') (hbackslash : c ≠ '\\')
    (hcontrol : ¬ c.toNat < 0x20) (rest : List Char) :
    readPieces (c :: rest) =
      (readPieces rest).map fun (pieces, rest) => (.char c :: pieces, rest) := by
  rw [readPieces]
  · simp only [hbackslash, hcontrol, or_self, if_false]
    cases readPieces rest <;> rfl
  · exact fun h => absurd h hquote
  · exact fun _ _ _ _ _ h => absurd h hbackslash
  · exact fun _ _ h => absurd h hbackslash

/-- A written character is read as one piece. -/
theorem readPieces_escapeChar (c : Char) (rest : List Char) :
    ∃ p : Piece, p.char? = some c ∧ readPieces (escapeChar c ++ rest) =
      (readPieces rest).map fun (pieces, rest) => (p :: pieces, rest) := by
  have hletter {d : Char} (hd : d ≠ 'u') (hc : shortEscape? d = some c) :
      ∃ p : Piece, p.char? = some c ∧ readPieces (['\\', d] ++ rest) =
        (readPieces rest).map fun (pieces, rest) => (p :: pieces, rest) :=
    ⟨.char c, rfl, readPieces_shortEscape hd hc rest⟩
  have hcode {n : Nat} (hn : c.toNat = n) : c = Char.ofNat n := by rw [← hn, Char.ofNat_toNat]
  unfold escapeChar
  split
  · next h => exact hletter (by decide) (by rw [h]; rfl)
  split
  · next h => exact hletter (by decide) (by rw [h]; rfl)
  split
  · next h => exact hletter (by decide) (by rw [hcode h]; rfl)
  split
  · next h => exact hletter (by decide) (by rw [hcode h]; rfl)
  split
  · next h => exact hletter (by decide) (by rw [h]; rfl)
  split
  · next h => exact hletter (by decide) (by rw [h]; rfl)
  split
  · next h => exact hletter (by decide) (by rw [h]; rfl)
  split
  · next hcontrol =>
    refine ⟨.unit c.toNat, ?_, readPieces_control hcontrol rest⟩
    have hsurrogate : (isHighSurrogate c.toNat || isLowSurrogate c.toNat) = false := by
      simp only [isHighSurrogate, isLowSurrogate, Bool.or_eq_false_iff, Bool.and_eq_false_iff,
        decide_eq_false_iff_not]
      omega
    simp [Piece.char?, hsurrogate]
  · next hquote hbackslash _ _ _ _ _ hcontrol =>
    exact ⟨.char c, rfl, readPieces_plain hquote hbackslash hcontrol rest⟩

theorem readPieces_written (cs rest : List Char) :
    ∃ pieces, readPieces (cs.flatMap escapeChar ++ '"' :: rest) = some (pieces, rest) ∧
      joinPieces pieces = some cs := by
  induction cs with
  | nil => exact ⟨[], rfl, rfl⟩
  | cons c cs ih =>
    obtain ⟨pieces, hread, hjoin⟩ := ih
    obtain ⟨p, hp, hchar⟩ := readPieces_escapeChar c (cs.flatMap escapeChar ++ '"' :: rest)
    refine ⟨p :: pieces, ?_, ?_⟩
    · rw [List.flatMap_cons, List.append_assoc, hchar, hread]
      rfl
    · rw [joinPieces_cons hp, hjoin]
      rfl

/-- A string is read back up to its closing quote. -/
theorem readString_written (s : String) (rest : List Char) :
    readString (s.toList.flatMap escapeChar ++ '"' :: rest) = some (some s, rest) := by
  obtain ⟨pieces, hread, hjoin⟩ := readPieces_written s.toList rest
  rw [readString, hread, Option.map_some]
  simp only [hjoin, Option.map_some, String.ofList_toList]

/-! ## Numbers -/

/-- The character does not go on with a number. -/
def endsNumeral (c : Char) : Bool := !(c.isDigit || c = '.' || c = 'e' || c = 'E')

theorem readWhole_digits {rest : List Char} (n : Nat)
    (hrest : ∀ c ∈ rest.head?, c.isDigit = false) :
    readWhole (Text.digits n ++ rest) = some (Text.digits n, rest) := by
  unfold readWhole
  rw [Text.spanDigits_append (fun _ => Text.isDigit_of_mem_digits) hrest]
  split
  · next hnil => exact absurd (Prod.mk.inj hnil).1 (Text.digits_ne_nil n)
  · next hzero =>
    obtain ⟨hdigits, rfl⟩ := Prod.mk.inj hzero
    rw [hdigits]
  · next ds rest' hnone hzero =>
    obtain ⟨hdigits, rfl⟩ := Prod.mk.inj hzero
    rcases Nat.eq_zero_or_pos n with rfl | hn
    · obtain rfl : [] = ds := (List.cons.inj hdigits).2
      exact (hnone rfl).elim
    · exact absurd (hdigits ▸ rfl) (Text.head?_digits_ne_zero hn)
  · next hsome =>
    obtain ⟨rfl, rfl⟩ := Prod.mk.inj hsome
    rfl

/-- An integer is read back up to the character that ends it. -/
theorem readNumeral_ofInt {rest : List Char} (n : Int)
    (hrest : ∀ c ∈ rest.head?, endsNumeral c = true) :
    readNumeral ((Numeral.ofInt n).text ++ rest) = some (Numeral.ofInt n, rest) := by
  have hends (c : Char) (hc : c ∈ rest.head?) :
      c.isDigit = false ∧ c ≠ '.' ∧ c ≠ 'e' ∧ c ≠ 'E' := by
    simpa [endsNumeral, and_assoc] using hrest c hc
  have hwhole := readWhole_digits n.natAbs fun c hc => (hends c hc).1
  have hfraction : readFraction rest = some (none, rest) := by
    cases rest with
    | nil => rfl
    | cons c rest =>
      rw [readFraction]
      exact fun _ h => (hends c rfl).2.1 (List.cons.inj h).1
  have hexponent : readExponent rest = some (none, rest) := by
    cases rest with
    | nil => rfl
    | cons c rest =>
      obtain ⟨-, -, he, hE⟩ := hends c rfl
      simp [readExponent, he, hE]
  have htext : (Numeral.ofInt n).text ++ rest =
      (if n < 0 then ['-'] else []) ++ (Text.digits n.natAbs ++ rest) := by
    simp [Numeral.text, Numeral.ofInt]
  rw [htext]
  unfold readNumeral
  by_cases hneg : n < 0
  · simp [hneg, hwhole, hfraction, hexponent, Numeral.ofInt]
  · cases hdigits : Text.digits n.natAbs with
    | nil => exact absurd hdigits (Text.digits_ne_nil _)
    | cons d ds =>
      have hdigit : d.isDigit = true := Text.isDigit_of_mem_digits (hdigits ▸ List.mem_cons_self)
      have hminus : d ≠ '-' := by
        rintro rfl
        cases hdigit
      rw [hdigits, List.cons_append] at hwhole
      simp [hneg, hminus, hwhole, hfraction, hexponent, Numeral.ofInt, hdigits]

end InterruptStress.Json
