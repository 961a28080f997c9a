import InterruptStress.Proofs.Json.Written
import InterruptStress.Text.Blank

/-!
# Documents on one line

The compact text of a plain document has no control character in it, a line feed least of all:
those of its strings are escaped, and the writer puts none between tokens.  An object's text
begins and ends with its braces, so there is nothing to trim.
-/

namespace InterruptStress.Json

/-- A text without control characters. -/
def IsPrintable (cs : List Char) : Prop := ∀ c ∈ cs, 0x20 ≤ c.toNat

instance (cs : List Char) : Decidable (IsPrintable cs) :=
  decidable_of_iff (cs.all fun c => 0x20 ≤ c.toNat) (by simp [IsPrintable])

theorem isPrintable_append {cs ds : List Char} :
    IsPrintable (cs ++ ds) ↔ IsPrintable cs ∧ IsPrintable ds :=
  List.forall_mem_append

theorem isPrintable_cons {c : Char} {cs : List Char} :
    IsPrintable (c :: cs) ↔ 0x20 ≤ c.toNat ∧ IsPrintable cs :=
  List.forall_mem_cons

theorem not_mem_of_isPrintable {cs : List Char} {c : Char} (h : IsPrintable cs)
    (hc : c.toNat < 0x20) : c ∉ cs :=
  fun hmem => Nat.not_lt.mpr (h c hmem) hc

theorem isPrintable_hexDigits {n : Nat} (hn : n < 0x20) :
    IsPrintable [hexDigit (n / 16), hexDigit (n % 16)] := by
  have hall : ∀ n < 0x20, IsPrintable [hexDigit (n / 16), hexDigit (n % 16)] := by decide
  exact hall n hn

theorem isPrintable_escapeChar (c : Char) : IsPrintable (escapeChar c) := by
  have hescape : IsPrintable ['\\', 'u', '0', '0'] := by decide
  unfold escapeChar
  iterate 7 split; · decide
  split
  · next hcontrol => exact isPrintable_append.mpr ⟨hescape, isPrintable_hexDigits hcontrol⟩
  · next hcontrol => exact isPrintable_cons.mpr ⟨Nat.not_lt.mp hcontrol, nofun⟩

theorem isPrintable_quoted (text : Option String) : IsPrintable (quoted text) := by
  cases text with
  | none => decide
  | some s =>
    refine isPrintable_cons.mpr ⟨by decide, isPrintable_append.mpr ⟨?_, by decide⟩⟩
    intro c hc
    obtain ⟨d, -, hd⟩ := List.mem_flatMap.mp hc
    exact isPrintable_escapeChar d c hd

theorem isPrintable_ofInt (n : Int) : IsPrintable (Numeral.ofInt n).text := by
  have hdigits : IsPrintable (Text.digits n.natAbs) := by
    intro c hc
    have hdigit : c.isDigit = true := Text.isDigit_of_mem_digits hc
    simp only [Char.isDigit, Bool.and_eq_true, decide_eq_true_eq] at hdigit
    exact Nat.le_trans (by decide) (UInt32.le_iff_toNat_le.mp hdigit.1)
  by_cases hneg : n < 0
  · simpa [Numeral.text, Numeral.ofInt, hneg] using isPrintable_cons.mpr ⟨by decide, hdigits⟩
  · simpa [Numeral.text, Numeral.ofInt, hneg] using hdigits

mutual

/-- The compact text of a plain document is printable. -/
theorem isPrintable_compact : ∀ {j : Json}, j.IsPlain → IsPrintable j.compact
  | .null, _ => by decide
  | .bool true, _ | .bool false, _ => by decide
  | .num n, h => by
    obtain ⟨i, -, rfl⟩ : ∃ i : Int, _ ∧ n = Numeral.ofInt i := by simpa only [IsPlain] using h
    rw [compact]
    exact isPrintable_ofInt i
  | .str text, _ => by
    rw [compact]
    exact isPrintable_quoted text
  | .arr items, h => by
    rw [compact]
    exact isPrintable_cons.mpr ⟨by decide,
      isPrintable_compactItems (by simpa only [IsPlain] using h)⟩
  | .obj members, h => by
    rw [compact]
    exact isPrintable_cons.mpr ⟨by decide,
      isPrintable_compactMembers (by simpa only [IsPlain] using h)⟩

theorem isPrintable_compactItems : ∀ {items : List Json}, ItemsPlain items →
    IsPrintable (compactItems items)
  | [], _ => by decide
  | [item], h => by
    rw [ItemsPlain] at h
    rw [compactItems]
    exact isPrintable_append.mpr ⟨isPrintable_compact h.1, by decide⟩
  | item :: next :: items, h => by
    rw [ItemsPlain] at h
    rw [compactItems]
    · exact isPrintable_append.mpr ⟨isPrintable_compact h.1,
        isPrintable_cons.mpr ⟨by decide, isPrintable_compactItems h.2⟩⟩
    · simp

theorem isPrintable_compactMembers : ∀ {members : List (Option String × Json)},
    MembersPlain members → IsPrintable (compactMembers members)
  | [], _ => by decide
  | [(key, value)], h => by
    rw [MembersPlain] at h
    rw [compactMembers]
    exact isPrintable_append.mpr ⟨isPrintable_quoted key, isPrintable_cons.mpr ⟨by decide,
      isPrintable_append.mpr ⟨isPrintable_compact h.2.1, by decide⟩⟩⟩
  | (key, value) :: next :: members, h => by
    rw [MembersPlain] at h
    rw [compactMembers]
    · exact isPrintable_append.mpr ⟨isPrintable_quoted key, isPrintable_cons.mpr ⟨by decide,
        isPrintable_append.mpr ⟨isPrintable_compact h.2.1,
          isPrintable_cons.mpr ⟨by decide, isPrintable_compactMembers h.2.2⟩⟩⟩⟩
    · simp

end

/-! ## Braces -/

theorem compactMembers_ends (members : List (Option String × Json)) :
    ∃ inside, compactMembers members = inside ++ ['}'] := by
  induction members with
  | nil => exact ⟨[], rfl⟩
  | cons member members ih =>
    obtain ⟨inside, hinside⟩ := ih
    cases members with
    | nil => exact ⟨quoted member.1 ++ ':' :: compact member.2, by simp [compactMembers]⟩
    | cons next members =>
      refine ⟨quoted member.1 ++ ':' :: (compact member.2 ++ ',' :: inside), ?_⟩
      rw [compactMembers]
      · simp [hinside]
      · simp

/-- There is nothing to trim from an object. -/
theorem trim_compact_obj (members : List (Option String × Json)) :
    Text.trim (compact (.obj members)) = compact (.obj members) := by
  obtain ⟨inside, hinside⟩ := compactMembers_ends members
  rw [compact, hinside]
  apply Text.trim_eq_self
  · intro c hc
    obtain rfl := Option.some.inj hc
    decide
  · intro c hc
    rw [← List.cons_append, List.getLast?_concat] at hc
    obtain rfl := Option.some.inj hc
    decide

end InterruptStress.Json
