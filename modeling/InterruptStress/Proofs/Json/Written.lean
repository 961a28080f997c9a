import InterruptStress.Proofs.Json.Scanners

/-!
# Texts of a document

`Json.Written` says which texts are a text of a document: blanks may stand around every token, a
string may be spelled in every way that is read as it, and a number likewise.  The reader reads
each of them as that document, up to whatever follows (`Json.readValue_written`), and so a text of
a whole document is read as it (`Json.read?_written`).  The induction follows the derivation; the
reader's bound on nested calls is covered because every second call consumes a character.
-/

namespace InterruptStress.Json

/-! ## Blanks -/

/-- Nothing but blanks. -/
def AllBlank (cs : List Char) : Prop := ∀ c ∈ cs, isBlank c = true

theorem allBlank_nil : AllBlank [] := nofun

theorem skipBlanks_append {blanks : List Char} (h : AllBlank blanks) (cs : List Char) :
    skipBlanks (blanks ++ cs) = skipBlanks cs :=
  List.dropWhile_append_of_pos h

theorem skipBlanks_cons {c : Char} (h : isBlank c = false) (cs : List Char) :
    skipBlanks (c :: cs) = c :: cs :=
  List.dropWhile_cons_of_neg (by simp [h])

theorem skipBlanks_append_cons {blanks : List Char} {c : Char} (hblanks : AllBlank blanks)
    (hc : isBlank c = false) (cs : List Char) : skipBlanks (blanks ++ c :: cs) = c :: cs := by
  rw [skipBlanks_append hblanks, skipBlanks_cons hc]

theorem skipBlanks_skipBlanks (cs : List Char) : skipBlanks (skipBlanks cs) = skipBlanks cs := by
  induction cs with
  | nil => rfl
  | cons c cs ih =>
    cases hc : isBlank c with
    | true =>
      have hskip : skipBlanks (c :: cs) = skipBlanks cs := List.dropWhile_cons_of_pos hc
      rw [hskip, ih]
    | false => rw [skipBlanks_cons hc, skipBlanks_cons hc]

theorem readValue_skipBlanks (bound : Nat) (cs : List Char) :
    readValue bound (skipBlanks cs) = readValue bound cs := by
  cases bound with
  | zero => rfl
  | succ bound => simp only [readValue, skipBlanks_skipBlanks]

theorem readValue_append {blanks : List Char} (h : AllBlank blanks) (bound : Nat)
    (cs : List Char) : readValue bound (blanks ++ cs) = readValue bound cs := by
  rw [← readValue_skipBlanks, skipBlanks_append h, readValue_skipBlanks]

theorem readItems_skipBlanks (bound : Nat) (cs : List Char) :
    readItems bound (skipBlanks cs) = readItems bound cs := by
  cases bound with
  | zero => rfl
  | succ bound => simp only [readItems, readValue_skipBlanks]

theorem readMembers_skipBlanks (bound : Nat) (cs : List Char) :
    readMembers bound (skipBlanks cs) = readMembers bound cs := by
  cases bound with
  | zero => rfl
  | succ bound => simp only [readMembers, skipBlanks_skipBlanks]

/-! ## The texts -/

/-- What stands behind the opening quote of a string is read as the string, whatever follows. -/
def SpellsString (text : Option String) (cs : List Char) : Prop :=
  ∀ rest, readString (cs ++ rest) = some (text, rest)

/-- The character can begin a number. -/
def beginsNumeral (c : Char) : Bool := c.isDigit || c = '-'

/-- The text is read as the number, whatever follows that ends it. -/
def SpellsNumeral (n : Numeral) (cs : List Char) : Prop :=
  (∃ c ∈ cs.head?, beginsNumeral c = true) ∧
    ∀ rest, (∀ c ∈ rest.head?, endsNumeral c = true) → readNumeral (cs ++ rest) = some (n, rest)

mutual

/-- A text of a document, without blanks around it. -/
inductive Written : Json → List Char → Prop where
  | null : Written .null ['n', 'u', 'l', 'l']
  | bool (value : Bool) : Written (.bool value) (compact (.bool value))
  | num (n : Numeral) (cs : List Char) (hcs : SpellsNumeral n cs) : Written (.num n) cs
  | str (text : Option String) (cs : List Char) (hcs : SpellsString text cs) :
      Written (.str text) ('"' :: cs)
  | arr (items : List Json) (cs : List Char) (hcs : WrittenItems items cs) :
      Written (.arr items) ('[' :: cs)
  | obj (members : List (Option String × Json)) (cs : List Char)
      (hcs : WrittenMembers members cs) : Written (.obj members) ('{' :: cs)

/-- The items of an array up to its closing bracket. -/
inductive WrittenItems : List Json → List Char → Prop where
  | nil (blanks : List Char) (hblanks : AllBlank blanks) : WrittenItems [] (blanks ++ [']'])
  | last (before after : List Char) (hbefore : AllBlank before) (hafter : AllBlank after)
      (item : Json) (cs : List Char) (hcs : Written item cs) :
      WrittenItems [item] (before ++ (cs ++ (after ++ [']'])))
  | more (before after : List Char) (hbefore : AllBlank before) (hafter : AllBlank after)
      (item : Json) (cs : List Char) (hcs : Written item cs) (next : Json) (items : List Json)
      (others : List Char) (hothers : WrittenItems (next :: items) others) :
      WrittenItems (item :: next :: items) (before ++ (cs ++ (after ++ ',' :: others)))

/-- The members of an object up to its closing brace. -/
inductive WrittenMembers : List (Option String × Json) → List Char → Prop where
  | nil (blanks : List Char) (hblanks : AllBlank blanks) : WrittenMembers [] (blanks ++ ['}'])
  | last (before colon value after : List Char) (hbefore : AllBlank before)
      (hcolon : AllBlank colon) (hvalue : AllBlank value) (hafter : AllBlank after)
      (key : Option String) (keyText : List Char) (hkey : SpellsString key keyText)
      (item : Json) (cs : List Char) (hcs : Written item cs) :
      WrittenMembers [(key, item)]
        (before ++ '"' :: (keyText ++ (colon ++ ':' :: (value ++ (cs ++ (after ++ ['}']))))))
  | more (before colon value after : List Char) (hbefore : AllBlank before)
      (hcolon : AllBlank colon) (hvalue : AllBlank value) (hafter : AllBlank after)
      (key : Option String) (keyText : List Char) (hkey : SpellsString key keyText)
      (item : Json) (cs : List Char) (hcs : Written item cs) (next : Option String × Json)
      (members : List (Option String × Json)) (others : List Char)
      (hothers : WrittenMembers (next :: members) others) :
      WrittenMembers ((key, item) :: next :: members)
        (before ++
          '"' :: (keyText ++ (colon ++ ':' :: (value ++ (cs ++ (after ++ ',' :: others))))))

end

/-! ## Reading -/

theorem endsNumeral_of_isBlank {c : Char} (hc : isBlank c = true) : endsNumeral c = true := by
  simp only [isBlank, Bool.or_eq_true, decide_eq_true_eq] at hc
  rcases hc with ((rfl | rfl) | rfl) | rfl <;> rfl

/-- Blanks, and what closes or separates behind them, end a number. -/
theorem endsNumeral_append {blanks : List Char} {c : Char} (hblanks : AllBlank blanks)
    (hc : endsNumeral c = true) (cs : List Char) :
    ∀ d ∈ (blanks ++ c :: cs).head?, endsNumeral d = true := by
  intro d hd
  cases blanks with
  | nil => exact Option.some.inj hd ▸ hc
  | cons b blanks =>
    obtain rfl := Option.some.inj hd
    exact endsNumeral_of_isBlank (hblanks b List.mem_cons_self)

theorem beginsNumeral_iff {c : Char} (hc : beginsNumeral c = true) :
    isBlank c = false ∧ c ≠ 'n' ∧ c ≠ 't' ∧ c ≠ 'f' ∧ c ≠ '"' ∧ c ≠ '[' ∧ c ≠ ']' ∧ c ≠ '{' := by
  have hne {d : Char} (hd : beginsNumeral d = false) : c ≠ d := by
    rintro rfl
    simp [hd] at hc
  refine ⟨?_, hne rfl, hne rfl, hne rfl, hne rfl, hne rfl, hne rfl, hne rfl⟩
  simp only [isBlank, Bool.or_eq_false_iff, decide_eq_false_iff_not]
  exact ⟨⟨⟨hne rfl, hne rfl⟩, hne rfl⟩, hne rfl⟩

theorem readValue_numeral {c : Char} (hc : beginsNumeral c = true) (bound : Nat)
    (cs : List Char) :
    readValue (bound + 1) (c :: cs) =
      (readNumeral (c :: cs)).map fun (n, rest) => (.num n, rest) := by
  obtain ⟨hblank, hn, ht, hf, hquote, hbracket, -, hbrace⟩ := beginsNumeral_iff hc
  rw [readValue, skipBlanks_cons hblank]
  split <;> simp_all

/-- A value begins with a character that is no blank and closes nothing. -/
theorem Written.head {j : Json} {cs : List Char} (h : Written j cs) :
    ∃ c tail, cs = c :: tail ∧ isBlank c = false ∧ c ≠ ']' := by
  cases h with
  | null => exact ⟨_, _, rfl, rfl, by decide⟩
  | bool value => cases value <;> exact ⟨_, _, rfl, rfl, by decide⟩
  | num n cs hcs =>
    obtain ⟨⟨c, hhead, hc⟩, -⟩ := hcs
    cases cs with
    | nil => cases hhead
    | cons d cs =>
      obtain rfl := Option.some.inj hhead
      obtain ⟨hblank, -, -, -, -, -, hclosing, -⟩ := beginsNumeral_iff hc
      exact ⟨d, cs, rfl, hblank, hclosing⟩
  | str | arr | obj => exact ⟨_, _, rfl, rfl, by decide⟩

/-- An array closes at once, or is read through its items. -/
theorem readValue_bracket {cs tail : List Char} {c : Char} (bound : Nat)
    (hskip : skipBlanks cs = c :: tail) :
    readValue (bound + 1) ('[' :: cs) =
      if c = ']' then some (.arr [], tail)
      else (readItems bound (c :: tail)).map fun read => (.arr read.1, read.2) := by
  simp only [readValue, skipBlanks_cons (c := '[') rfl, hskip]
  split
  · next h => rw [if_pos (List.cons.inj h).1, (List.cons.inj h).2]
  · next hnot =>
    rw [if_neg]
    rintro rfl
    exact hnot _ rfl

/-- An object closes at once, or is read through its members. -/
theorem readValue_brace {cs tail : List Char} {c : Char} (bound : Nat)
    (hskip : skipBlanks cs = c :: tail) :
    readValue (bound + 1) ('{' :: cs) =
      if c = '}' then some (.obj [], tail)
      else (readMembers bound (c :: tail)).map fun read => (.obj read.1, read.2) := by
  simp only [readValue, skipBlanks_cons (c := '{') rfl, hskip]
  split
  · next h => rw [if_pos (List.cons.inj h).1, (List.cons.inj h).2]
  · next hnot =>
    rw [if_neg]
    rintro rfl
    exact hnot _ rfl

theorem readValue_array {items : List Json} {cs rest : List Char} {bound : Nat}
    (hcs : WrittenItems items cs)
    (hitems : items ≠ [] → readItems bound (cs ++ rest) = some (items, rest)) :
    readValue (bound + 1) ('[' :: (cs ++ rest)) = some (.arr items, rest) := by
  have hgo {before tail : List Char} {item : Json} {value : List Char} (hne : items ≠ [])
      (hbefore : AllBlank before) (hvalue : Written item value)
      (hsplit : cs ++ rest = before ++ (value ++ tail)) :
      readValue (bound + 1) ('[' :: (cs ++ rest)) = some (.arr items, rest) := by
    obtain ⟨c, value, rfl, hblank, hclosing⟩ := hvalue.head
    have hskip : skipBlanks (cs ++ rest) = c :: (value ++ tail) := by
      rw [hsplit, List.cons_append, skipBlanks_append_cons hbefore hblank]
    have hread := hitems hne
    rw [← readItems_skipBlanks, hskip] at hread
    rw [readValue_bracket bound hskip, if_neg hclosing, hread]
    rfl
  cases hcs with
  | nil blanks hblanks =>
    refine (readValue_bracket bound (c := ']') ?_).trans (if_pos rfl)
    rw [List.append_assoc, List.singleton_append, skipBlanks_append_cons hblanks rfl]
  | last before after hbefore _ item value hvalue =>
    exact hgo (by simp) hbefore hvalue (by rw [List.append_assoc, List.append_assoc])
  | more before after hbefore _ item value hvalue =>
    exact hgo (by simp) hbefore hvalue (by rw [List.append_assoc, List.append_assoc])

theorem readValue_object {members : List (Option String × Json)} {cs rest : List Char}
    {bound : Nat} (hcs : WrittenMembers members cs)
    (hmembers : members ≠ [] → readMembers bound (cs ++ rest) = some (members, rest)) :
    readValue (bound + 1) ('{' :: (cs ++ rest)) = some (.obj members, rest) := by
  have hgo {before tail : List Char} (hne : members ≠ []) (hbefore : AllBlank before)
      (hsplit : cs ++ rest = before ++ '"' :: tail) :
      readValue (bound + 1) ('{' :: (cs ++ rest)) = some (.obj members, rest) := by
    have hskip : skipBlanks (cs ++ rest) = '"' :: tail := by
      rw [hsplit, skipBlanks_append_cons hbefore rfl]
    have hread := hmembers hne
    rw [← readMembers_skipBlanks, hskip] at hread
    rw [readValue_brace bound hskip, if_neg (by decide), hread]
    rfl
  cases hcs with
  | nil blanks hblanks =>
    refine (readValue_brace bound (c := '}') ?_).trans (if_pos rfl)
    rw [List.append_assoc, List.singleton_append, skipBlanks_append_cons hblanks rfl]
  | last before _ _ _ hbefore =>
    exact hgo (by simp) hbefore (by rw [List.append_assoc, List.cons_append])
  | more before _ _ _ hbefore =>
    exact hgo (by simp) hbefore (by rw [List.append_assoc, List.cons_append])

mutual

/-- A text of a document is read as the document, up to what follows. -/
theorem readValue_written {j : Json} {cs : List Char} (h : Written j cs) {rest : List Char}
    (hrest : ∀ c ∈ rest.head?, endsNumeral c = true) {bound : Nat}
    (hbound : 2 * cs.length ≤ bound) : readValue bound (cs ++ rest) = some (j, rest) := by
  cases bound with
  | zero =>
    obtain ⟨c, tail, rfl, -⟩ := h.head
    simp at hbound
  | succ bound =>
    cases h with
    | null => rfl
    | bool value => cases value <;> rfl
    | num n cs hcs =>
      obtain ⟨⟨c, hhead, hc⟩, hread⟩ := hcs
      cases cs with
      | nil => cases hhead
      | cons d cs =>
        obtain rfl := Option.some.inj hhead
        rw [List.cons_append, readValue_numeral hc, ← List.cons_append, hread rest hrest]
        rfl
    | str text cs hcs =>
      have hread : readValue (bound + 1) ('"' :: cs ++ rest) =
          (readString (cs ++ rest)).map fun (s, rest) => (.str s, rest) := rfl
      rw [hread, hcs rest]
      rfl
    | arr items cs hcs =>
      rw [List.length_cons] at hbound
      exact readValue_array hcs fun hne => readItems_written hcs hne (by omega)
    | obj members cs hcs =>
      rw [List.length_cons] at hbound
      exact readValue_object hcs fun hne => readMembers_written hcs hne (by omega)

theorem readItems_written {items : List Json} {cs : List Char} (h : WrittenItems items cs)
    (hne : items ≠ []) {rest : List Char} {bound : Nat} (hbound : 2 * cs.length + 1 ≤ bound) :
    readItems bound (cs ++ rest) = some (items, rest) := by
  cases bound with
  | zero => omega
  | succ bound =>
    cases h with
    | nil => exact absurd rfl hne
    | last before after hbefore hafter item cs hcs =>
      simp only [List.length_append, List.length_cons] at hbound
      have hitem : readValue bound (cs ++ (after ++ ']' :: rest)) =
          some (item, after ++ ']' :: rest) :=
        readValue_written hcs (endsNumeral_append hafter rfl rest) (by omega)
      have hclose := skipBlanks_append_cons (c := ']') hafter rfl rest
      rw [readItems]
      simp only [List.append_assoc, List.singleton_append, readValue_append hbefore, hitem,
        Option.bind_eq_bind, Option.bind_some, hclose]
    | more before after hbefore hafter item cs hcs next items others hothers =>
      simp only [List.length_append, List.length_cons] at hbound
      have hitem : readValue bound (cs ++ (after ++ ',' :: (others ++ rest))) =
          some (item, after ++ ',' :: (others ++ rest)) :=
        readValue_written hcs (endsNumeral_append hafter rfl _) (by omega)
      have hitems : readItems bound (others ++ rest) = some (next :: items, rest) :=
        readItems_written hothers (by simp) (by omega)
      have hcomma := skipBlanks_append_cons (c := ',') hafter rfl (others ++ rest)
      rw [readItems]
      simp only [List.append_assoc, List.cons_append, readValue_append hbefore, hitem,
        Option.bind_eq_bind, Option.bind_some, hcomma, hitems]

theorem readMembers_written {members : List (Option String × Json)} {cs : List Char}
    (h : WrittenMembers members cs) (hne : members ≠ []) {rest : List Char} {bound : Nat}
    (hbound : 2 * cs.length + 1 ≤ bound) :
    readMembers bound (cs ++ rest) = some (members, rest) := by
  cases bound with
  | zero => omega
  | succ bound =>
    cases h with
    | nil => exact absurd rfl hne
    | last before colon value after hbefore hcolon hvalue hafter key keyText hkey item cs hcs =>
      simp only [List.length_append, List.length_cons] at hbound
      have hitem : readValue bound (cs ++ (after ++ '}' :: rest)) =
          some (item, after ++ '}' :: rest) :=
        readValue_written hcs (endsNumeral_append hafter rfl rest) (by omega)
      have hquote := skipBlanks_append_cons (c := '"') hbefore rfl
      have hbetween := skipBlanks_append_cons (c := ':') hcolon rfl
      have hclose := skipBlanks_append_cons (c := '}') hafter rfl rest
      rw [readMembers]
      simp only [List.append_assoc, List.cons_append, List.nil_append, hquote, hkey _, hbetween,
        readValue_append hvalue, hitem, Option.bind_eq_bind, Option.bind_some, hclose]
    | more before colon value after hbefore hcolon hvalue hafter key keyText hkey item cs hcs next
        members others hothers =>
      simp only [List.length_append, List.length_cons] at hbound
      have hitem : readValue bound (cs ++ (after ++ ',' :: (others ++ rest))) =
          some (item, after ++ ',' :: (others ++ rest)) :=
        readValue_written hcs (endsNumeral_append hafter rfl _) (by omega)
      have hmembers : readMembers bound (others ++ rest) = some (next :: members, rest) :=
        readMembers_written hothers (by simp) (by omega)
      have hquote := skipBlanks_append_cons (c := '"') hbefore rfl
      have hbetween := skipBlanks_append_cons (c := ':') hcolon rfl
      have hcomma := skipBlanks_append_cons (c := ',') hafter rfl (others ++ rest)
      rw [readMembers]
      simp only [List.append_assoc, List.cons_append, hquote, hkey _, hbetween,
        readValue_append hvalue, hitem, Option.bind_eq_bind, Option.bind_some, hcomma, hmembers]

end

/-- A text of a document, alone between blanks, is read as the document. -/
theorem read?_written {j : Json} {cs before after : List Char} (h : Written j cs)
    (hbefore : AllBlank before) (hafter : AllBlank after) :
    read? (before ++ (cs ++ after)) = some j := by
  have hrest (c : Char) (hc : c ∈ after.head?) : endsNumeral c = true :=
    endsNumeral_of_isBlank (hafter c (List.mem_of_mem_head? hc))
  have hbound : 2 * cs.length ≤ 2 * (before ++ (cs ++ after)).length + 2 := by
    simp only [List.length_append]
    omega
  have hend : skipBlanks after = [] := by
    rw [← List.append_nil after, skipBlanks_append hafter]
    rfl
  rw [read?, readValue_append hbefore, readValue_written h hrest hbound]
  simp only [hend, List.isEmpty_nil, if_true]

/-! ## The compact text -/

mutual

/-- Every number in a document is an integer of 64 bits, and every string in it has a text. -/
def IsPlain : Json → Prop
  | .num n => ∃ i : Int, i.natAbs < 18_446_744_073_709_551_616 ∧ n = Numeral.ofInt i
  | .str text => text.isSome = true
  | .arr items => ItemsPlain items
  | .obj members => MembersPlain members
  | _ => True

def ItemsPlain : List Json → Prop
  | [] => True
  | item :: rest => IsPlain item ∧ ItemsPlain rest

def MembersPlain : List (Option String × Json) → Prop
  | [] => True
  | member :: rest => member.1.isSome = true ∧ IsPlain member.2 ∧ MembersPlain rest

end

theorem spellsNumeral_ofInt (n : Int) : SpellsNumeral (Numeral.ofInt n) (Numeral.ofInt n).text := by
  refine ⟨?_, fun rest hrest => readNumeral_ofInt n hrest⟩
  by_cases hneg : n < 0
  · exact ⟨'-', by simp [Numeral.text, Numeral.ofInt, hneg], rfl⟩
  · cases hdigits : Text.digits n.natAbs with
    | nil => exact absurd hdigits (Text.digits_ne_nil _)
    | cons d ds =>
      have hdigit : d.isDigit = true := Text.isDigit_of_mem_digits (hdigits ▸ List.mem_cons_self)
      exact ⟨d, by simp [Numeral.text, Numeral.ofInt, hneg, hdigits],
        by simp [beginsNumeral, hdigit]⟩

/-- A string that has a text is written between quotes. -/
theorem quoted_eq {text : Option String} (h : text.isSome = true) :
    ∃ cs, quoted text = '"' :: cs ∧ SpellsString text cs := by
  obtain ⟨s, rfl⟩ := Option.isSome_iff_exists.mp h
  refine ⟨_, rfl, fun rest => ?_⟩
  rw [List.append_assoc]
  exact readString_written s rest

mutual

theorem written_compact : ∀ {j : Json}, j.IsPlain → Written j j.compact
  | .null, _ => .null
  | .bool value, _ => .bool value
  | .num n, h => by
    obtain ⟨i, -, rfl⟩ : ∃ i : Int, _ ∧ n = Numeral.ofInt i := by simpa only [IsPlain] using h
    rw [compact]
    exact .num _ _ (spellsNumeral_ofInt i)
  | .str text, h => by
    obtain ⟨cs, htext, hcs⟩ := quoted_eq (by simpa only [IsPlain] using h)
    rw [compact, htext]
    exact .str text cs hcs
  | .arr items, h => by
    rw [compact]
    exact .arr items _ (writtenItems_compact (by simpa only [IsPlain] using h))
  | .obj members, h => by
    rw [compact]
    exact .obj members _ (writtenMembers_compact (by simpa only [IsPlain] using h))

theorem writtenItems_compact : ∀ {items : List Json}, ItemsPlain items →
    WrittenItems items (compactItems items)
  | [], _ => .nil [] allBlank_nil
  | [item], h => by
    rw [ItemsPlain] at h
    exact .last [] [] allBlank_nil allBlank_nil item _ (written_compact h.1)
  | item :: next :: items, h => by
    rw [ItemsPlain] at h
    rw [compactItems]
    · exact .more [] [] allBlank_nil allBlank_nil item _ (written_compact h.1) next items _
        (writtenItems_compact h.2)
    · simp

theorem writtenMembers_compact : ∀ {members : List (Option String × Json)}, MembersPlain members →
    WrittenMembers members (compactMembers members)
  | [], _ => .nil [] allBlank_nil
  | [(key, value)], h => by
    rw [MembersPlain] at h
    obtain ⟨cs, hkey, hcs⟩ := quoted_eq h.1
    rw [compactMembers, hkey]
    exact .last [] [] [] [] allBlank_nil allBlank_nil allBlank_nil allBlank_nil key cs hcs value _
      (written_compact h.2.1)
  | (key, value) :: next :: members, h => by
    rw [MembersPlain] at h
    obtain ⟨cs, hkey, hcs⟩ := quoted_eq h.1
    rw [compactMembers, hkey]
    · exact .more [] [] [] [] allBlank_nil allBlank_nil allBlank_nil allBlank_nil key cs hcs value _
        (written_compact h.2.1) next members _ (writtenMembers_compact h.2.2)
    · simp

end

/-- The compact text of a plain document is read as the document. -/
theorem read?_compact {j : Json} (h : j.IsPlain) : read? j.compact = some j := by
  simpa using read?_written (written_compact h) allBlank_nil allBlank_nil

end InterruptStress.Json
