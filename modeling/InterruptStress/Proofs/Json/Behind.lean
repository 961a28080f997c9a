import InterruptStress.Proofs.Json.Written
import Mathlib.Data.List.TakeWhile

/-!
# An object's text behind other text

Text that ends in the text of an object is read as a document only if nothing but blanks stands
in front of the object (`Json.read?_append_compact`).  A reader that has begun in front of the
object leaves all of it (`<:+` below), unless it reads a string that swallows the object's brace:
that string is closed by the quote of the first name, and nothing can go on with what stands behind
this quote.  So the reader reads the object as a value of its own, or does not get past it.
-/

namespace InterruptStress.Json

variable {text cs rest : List Char}

/-! ## Scanners that stop in front -/

theorem suffix_tail {c : Char} (h : text <:+ c :: cs) (hc : text.head? ≠ some c) : text <:+ cs := by
  rcases List.suffix_cons_iff.mp h with rfl | h
  · exact absurd rfl hc
  · exact h

theorem suffix_dropWhile {p : Char → Bool} (h : text <:+ cs) (hp : ∀ c ∈ text.head?, p c = false) :
    text <:+ cs.dropWhile p := by
  induction cs with
  | nil => exact h
  | cons c cs ih =>
    cases hc : p c with
    | false => rwa [List.dropWhile_cons_of_neg (by simp [hc])]
    | true =>
      rw [List.dropWhile_cons_of_pos hc]
      refine ih (suffix_tail h fun hhead => ?_)
      rw [hp c hhead] at hc
      cases hc

section Scanners

variable (hbrace : text.head? = some '{')
include hbrace

theorem suffix_skipBlanks (h : text <:+ cs) : text <:+ skipBlanks cs :=
  suffix_dropWhile h (by simp [hbrace, isBlank])

theorem suffix_behind {c : Char} (h : text <:+ c :: cs) (hc : c ≠ '{') : text <:+ cs :=
  suffix_tail h (by rw [hbrace]; exact fun heq => hc (Option.some.inj heq).symm)

theorem suffix_append {word : List Char} (hword : '{' ∉ word) (h : text <:+ word ++ cs) :
    text <:+ cs := by
  induction word with
  | nil => exact h
  | cons c word ih =>
    obtain ⟨hc, hword⟩ := not_or.mp (mt List.mem_cons.mpr hword)
    exact ih hword (suffix_behind hbrace h (Ne.symm hc))

theorem suffix_spanDigits (h : text <:+ cs) : text <:+ (Text.spanDigits cs).2 :=
  suffix_dropWhile h (by simp [hbrace, Char.isDigit])

theorem suffix_readWhole {ds : List Char} (h : text <:+ cs)
    (hread : readWhole cs = some (ds, rest)) : text <:+ rest := by
  have hspan := suffix_spanDigits hbrace h
  unfold readWhole at hread
  split at hread <;> simp_all

theorem suffix_readDigits {ds : List Char} (h : text <:+ cs)
    (hread : readDigits cs = some (ds, rest)) : text <:+ rest := by
  have hspan := suffix_spanDigits hbrace h
  unfold readDigits at hread
  split at hread <;> simp_all

theorem suffix_readFraction {fraction : Option (List Char)} (h : text <:+ cs)
    (hread : readFraction cs = some (fraction, rest)) : text <:+ rest := by
  unfold readFraction at hread
  split at hread
  · obtain ⟨⟨ds, rest'⟩, hdigits, heq⟩ := Option.map_eq_some_iff.mp hread
    obtain ⟨-, rfl⟩ := Prod.mk.inj heq
    exact suffix_readDigits hbrace (suffix_behind hbrace h (by decide)) hdigits
  · obtain ⟨-, rfl⟩ := Prod.mk.inj (Option.some.inj hread)
    exact h

theorem suffix_readExponent {exponent : Option NumeralExponent} (h : text <:+ cs)
    (hread : readExponent cs = some (exponent, rest)) : text <:+ rest := by
  unfold readExponent at hread
  split at hread
  · next c tail =>
    split at hread
    · next hc =>
      have htail : text <:+ tail := suffix_behind hbrace h (by rcases hc with rfl | rfl <;> decide)
      split at hread <;> obtain ⟨⟨ds, rest'⟩, hdigits, heq⟩ := Option.map_eq_some_iff.mp hread <;>
        obtain ⟨-, rfl⟩ := Prod.mk.inj heq
      · exact suffix_readDigits hbrace (suffix_behind hbrace htail (by decide)) hdigits
      · exact suffix_readDigits hbrace (suffix_behind hbrace htail (by decide)) hdigits
      · exact suffix_readDigits hbrace htail hdigits
    · obtain ⟨-, rfl⟩ := Prod.mk.inj (Option.some.inj hread)
      exact h
  · obtain ⟨-, rfl⟩ := Prod.mk.inj (Option.some.inj hread)
    exact h

theorem suffix_readNumeral {n : Numeral} (h : text <:+ cs)
    (hread : readNumeral cs = some (n, rest)) : text <:+ rest := by
  unfold readNumeral at hread
  split at hread
  next negative digits hsign =>
    have hdigits : text <:+ digits := by
      split at hsign
      · obtain ⟨-, rfl⟩ := Prod.mk.inj hsign
        exact suffix_behind hbrace h (by decide)
      · obtain ⟨-, rfl⟩ := Prod.mk.inj hsign
        exact h
    obtain ⟨⟨whole, afterWhole⟩, hwhole, hread⟩ := Option.bind_eq_some_iff.mp hread
    obtain ⟨⟨fraction, afterFraction⟩, hfraction, hread⟩ := Option.bind_eq_some_iff.mp hread
    obtain ⟨⟨exponent, afterExponent⟩, hexponent, hread⟩ := Option.bind_eq_some_iff.mp hread
    obtain ⟨-, rfl⟩ := Prod.mk.inj (Option.some.inj hread)
    exact suffix_readExponent hbrace (suffix_readFraction hbrace
      (suffix_readWhole hbrace hdigits hwhole) hfraction) hexponent

end Scanners

theorem allBlank_of_skipBlanks {before : List Char} (h : skipBlanks (before ++ text) = text) :
    AllBlank before := by
  unfold skipBlanks at h
  rw [List.dropWhile_append] at h
  have hnil : before.dropWhile isBlank = [] := by
    split at h
    · next hempty => exact List.isEmpty_iff.mp hempty
    · exact List.append_left_eq_self.mp h
  exact List.dropWhile_eq_nil_iff.mp hnil

/-! ## A string that swallows the brace -/

theorem unit?_ne_brace {a b c d : Char} {n : Nat} (h : unit? a b c d = some n) :
    a ≠ '{' ∧ b ≠ '{' ∧ c ≠ '{' ∧ d ≠ '{' := by
  have hhex {c : Char} {n : Nat} (h : hexValue? c = some n) : c ≠ '{' := by
    rintro rfl
    cases h
  obtain ⟨va, ha, h⟩ := Option.bind_eq_some_iff.mp h
  obtain ⟨vb, hb, h⟩ := Option.bind_eq_some_iff.mp h
  obtain ⟨vc, hc, h⟩ := Option.bind_eq_some_iff.mp h
  obtain ⟨vd, hd, -⟩ := Option.bind_eq_some_iff.mp h
  exact ⟨hhex ha, hhex hb, hhex hc, hhex hd⟩

section Quote

variable {c : Char} {body : List Char}

/-- A string ends in front of an object, or at the quote behind the object's brace. -/
theorem suffix_readPieces {pieces : List Piece} (h : '{' :: '"' :: c :: body <:+ cs)
    (hread : readPieces cs = some (pieces, rest)) :
    '{' :: '"' :: c :: body <:+ rest ∨ rest = c :: body := by
  fun_induction readPieces cs generalizing pieces with
  | case1 => cases hread
  | case2 tail =>
    obtain ⟨-, rfl⟩ := Prod.mk.inj (Option.some.inj hread)
    exact .inl (suffix_behind rfl h (by decide))
  | case3 x y z w tail ih =>
    obtain ⟨n, hunit, hread⟩ := Option.bind_eq_some_iff.mp hread
    obtain ⟨⟨others, rest'⟩, hothers, hread⟩ := Option.bind_eq_some_iff.mp hread
    obtain ⟨-, rfl⟩ := Prod.mk.inj (Option.some.inj hread)
    obtain ⟨hx, hy, hz, hw⟩ := unit?_ne_brace hunit
    refine ih ?_ hothers
    exact suffix_behind rfl (suffix_behind rfl (suffix_behind rfl (suffix_behind rfl
      (suffix_behind rfl (suffix_behind rfl h (by decide)) (by decide)) hx) hy) hz) hw
  | case4 x tail _ ih =>
    obtain ⟨char, hchar, hread⟩ := Option.bind_eq_some_iff.mp hread
    obtain ⟨⟨others, rest'⟩, hothers, hread⟩ := Option.bind_eq_some_iff.mp hread
    obtain ⟨-, rfl⟩ := Prod.mk.inj (Option.some.inj hread)
    have hx : x ≠ '{' := by
      rintro rfl
      cases hchar
    exact ih (suffix_behind rfl (suffix_behind rfl h (by decide)) hx) hothers
  | case5 x tail hbad => cases hread
  | case6 x tail hquote hunit hescape hbad ih =>
    obtain ⟨⟨others, rest'⟩, hothers, hread⟩ := Option.bind_eq_some_iff.mp hread
    obtain ⟨-, rfl⟩ := Prod.mk.inj (Option.some.inj hread)
    rcases List.suffix_cons_iff.mp h with heq | h
    · obtain ⟨rfl, rfl⟩ := List.cons.inj heq
      rw [readPieces] at hothers
      obtain ⟨-, rfl⟩ := Prod.mk.inj (Option.some.inj hothers)
      exact .inr rfl
    · exact ih h hothers

end Quote

/-! ## A larger bound -/

section Bound

variable {bound more : Nat}

theorem readValue_mono
    (hitems : ∀ {cs read}, readItems bound cs = some read → readItems more cs = some read)
    (hmembers : ∀ {cs read}, readMembers bound cs = some read → readMembers more cs = some read)
    {read : Json × List Char} (h : readValue (bound + 1) cs = some read) :
    readValue (more + 1) cs = some read := by
  unfold readValue at h ⊢
  split at h
  · exact h
  · exact h
  · exact h
  · exact h
  · split at h
    · exact h
    · obtain ⟨_, hread, h⟩ := Option.map_eq_some_iff.mp h
      exact Option.map_eq_some_iff.mpr ⟨_, hitems hread, h⟩
  · split at h
    · exact h
    · obtain ⟨_, hread, h⟩ := Option.map_eq_some_iff.mp h
      exact Option.map_eq_some_iff.mpr ⟨_, hmembers hread, h⟩
  · exact h

theorem readItems_mono
    (hvalue : ∀ {cs read}, readValue bound cs = some read → readValue more cs = some read)
    (hitems : ∀ {cs read}, readItems bound cs = some read → readItems more cs = some read)
    {read : List Json × List Char} (h : readItems (bound + 1) cs = some read) :
    readItems (more + 1) cs = some read := by
  unfold readItems at h ⊢
  obtain ⟨_, hitem, h⟩ := Option.bind_eq_some_iff.mp h
  refine Option.bind_eq_some_iff.mpr ⟨_, hvalue hitem, ?_⟩
  simp only at h ⊢
  split at h
  · exact h
  · obtain ⟨_, hread, h⟩ := Option.bind_eq_some_iff.mp h
    exact Option.bind_eq_some_iff.mpr ⟨_, hitems hread, h⟩
  · exact h

theorem readMembers_mono
    (hvalue : ∀ {cs read}, readValue bound cs = some read → readValue more cs = some read)
    (hmembers : ∀ {cs read}, readMembers bound cs = some read → readMembers more cs = some read)
    {read : List (Option String × Json) × List Char} (h : readMembers (bound + 1) cs = some read) :
    readMembers (more + 1) cs = some read := by
  unfold readMembers at h ⊢
  split at h
  · obtain ⟨⟨key, tail⟩, hkey, h⟩ := Option.bind_eq_some_iff.mp h
    refine Option.bind_eq_some_iff.mpr ⟨_, hkey, ?_⟩
    simp only at h ⊢
    split at h
    · obtain ⟨⟨value, tail⟩, hitem, h⟩ := Option.bind_eq_some_iff.mp h
      refine Option.bind_eq_some_iff.mpr ⟨_, hvalue hitem, ?_⟩
      simp only at h ⊢
      split at h
      · exact h
      · obtain ⟨_, hread, h⟩ := Option.bind_eq_some_iff.mp h
        exact Option.bind_eq_some_iff.mpr ⟨_, hmembers hread, h⟩
      · exact h
    · exact h
  · exact h

/-- What is read within a bound is read within every larger one. -/
theorem read_of_le (h : bound ≤ more) :
    (∀ {cs read}, readValue bound cs = some read → readValue more cs = some read) ∧
    (∀ {cs read}, readItems bound cs = some read → readItems more cs = some read) ∧
    ∀ {cs read}, readMembers bound cs = some read → readMembers more cs = some read := by
  induction bound generalizing more with
  | zero => exact ⟨nofun, nofun, nofun⟩
  | succ bound ih =>
    cases more with
    | zero => exact absurd h (Nat.not_succ_le_zero bound)
    | succ more =>
      obtain ⟨hvalue, hitems, hmembers⟩ := ih (Nat.le_of_succ_le_succ h)
      exact ⟨readValue_mono hitems hmembers, readItems_mono hvalue hitems,
        readMembers_mono hvalue hmembers⟩

end Bound

/-! ## Values -/

/-- A text of an object that is read to its end, with a first name that begins with a letter. -/
structure IsNamedObject (text : List Char) : Prop where
  opens : ∃ c body, text = '{' :: '"' :: c :: body ∧ c.isAlpha = true
  whole : ∃ bound j, readValue bound text = some (j, [])

namespace IsNamedObject

variable (hobject : IsNamedObject text)
include hobject

theorem head : text.head? = some '{' := by
  obtain ⟨c, body, rfl, -⟩ := hobject.opens
  rfl

/-- Within every bound the object is read to its end, or not at all. -/
theorem rest_eq_nil {bound : Nat} {j : Json} (hread : readValue bound text = some (j, rest)) :
    rest = [] := by
  obtain ⟨enough, whole, hwhole⟩ := hobject.whole
  have hlarger := (read_of_le (Nat.le_max_left bound enough)).1 hread
  rw [(read_of_le (Nat.le_max_right bound enough)).1 hwhole] at hlarger
  exact (Prod.mk.inj (Option.some.inj hlarger)).2.symm

theorem suffix_readString {value : Option String} (h : text <:+ cs)
    (hread : readString cs = some (value, rest)) : text <:+ rest ∨ rest = text.drop 2 := by
  obtain ⟨c, body, rfl, -⟩ := hobject.opens
  obtain ⟨⟨pieces, rest'⟩, hpieces, heq⟩ := Option.map_eq_some_iff.mp hread
  obtain ⟨-, rfl⟩ := Prod.mk.inj heq
  exact suffix_readPieces h hpieces

/-- Behind the quote of the first name stands a letter. -/
theorem skipBlanks_inside :
    ∃ c inside, skipBlanks (text.drop 2) = c :: inside ∧ c.isAlpha = true := by
  obtain ⟨c, body, rfl, hname⟩ := hobject.opens
  have hblank : isBlank c = false := by
    rw [Bool.eq_false_iff]
    intro hc
    simp only [isBlank, Bool.or_eq_true, decide_eq_true_eq] at hc
    rcases hc with ((rfl | rfl) | rfl) | rfl <;> cases hname
  exact ⟨c, body, skipBlanks_cons hblank body, hname⟩

/-- Nothing that closes or separates stands behind the quote of the first name. -/
theorem suffix_of_mark {mark : Char} {tail : List Char} (hmark : mark ∈ ['}', ']', ',', ':'])
    (h : text <:+ rest ∨ rest = text.drop 2 ∨ rest = [])
    (hskip : skipBlanks rest = mark :: tail) : text <:+ tail := by
  rcases h with h | rfl | rfl
  · have hbrace : mark ≠ '{' := by
      rintro rfl
      simp at hmark
    exact suffix_behind hobject.head (hskip ▸ suffix_skipBlanks hobject.head h) hbrace
  · exfalso
    obtain ⟨c, inside, hinside, hname⟩ := hobject.skipBlanks_inside
    rw [hskip] at hinside
    obtain rfl := (List.cons.inj hinside).1
    simp only [List.mem_cons, List.not_mem_nil, or_false] at hmark
    rcases hmark with rfl | rfl | rfl | rfl <;> cases hname
  · cases hskip

variable {bound : Nat}

theorem suffix_readValue
    (hitems : ∀ {cs rest items}, text <:+ cs → readItems bound cs = some (items, rest) →
      text <:+ rest)
    (hmembers : ∀ {cs rest members}, text <:+ cs → readMembers bound cs = some (members, rest) →
      text <:+ rest)
    {j : Json} (h : text <:+ cs) (hread : readValue (bound + 1) cs = some (j, rest)) :
    text <:+ rest ∨ rest = text.drop 2 ∨ (skipBlanks cs = text ∧ rest = []) := by
  have hskip : text <:+ skipBlanks cs := suffix_skipBlanks hobject.head h
  by_cases hown : skipBlanks cs = text
  · rw [← readValue_skipBlanks, hown] at hread
    exact .inr (.inr ⟨hown, hobject.rest_eq_nil hread⟩)
  have hword (word : List Char) {tail : List Char} (hword : '{' ∉ word)
      (heq : skipBlanks cs = word ++ tail) : text <:+ tail := by
    rw [heq] at hskip
    exact suffix_append hobject.head hword hskip
  unfold readValue at hread
  split at hread
  · next tail heq =>
    obtain ⟨-, rfl⟩ := Prod.mk.inj (Option.some.inj hread)
    exact .inl (hword ['n', 'u', 'l', 'l'] (by decide) heq)
  · next tail heq =>
    obtain ⟨-, rfl⟩ := Prod.mk.inj (Option.some.inj hread)
    exact .inl (hword ['t', 'r', 'u', 'e'] (by decide) heq)
  · next tail heq =>
    obtain ⟨-, rfl⟩ := Prod.mk.inj (Option.some.inj hread)
    exact .inl (hword ['f', 'a', 'l', 's', 'e'] (by decide) heq)
  · next tail heq =>
    obtain ⟨⟨value, rest'⟩, hstring, hread⟩ := Option.map_eq_some_iff.mp hread
    obtain ⟨-, rfl⟩ := Prod.mk.inj hread
    have htail : text <:+ tail := hword ['"'] (by decide) heq
    exact (hobject.suffix_readString htail hstring).imp_right .inl
  · next tail heq =>
    have htail : text <:+ skipBlanks tail :=
      suffix_skipBlanks hobject.head (hword ['['] (by decide) heq)
    split at hread
    · next closed hclose =>
      obtain ⟨-, rfl⟩ := Prod.mk.inj (Option.some.inj hread)
      exact .inl (suffix_behind hobject.head (hclose ▸ htail) (by decide))
    · obtain ⟨⟨items, rest'⟩, hread', hread⟩ := Option.map_eq_some_iff.mp hread
      obtain ⟨-, rfl⟩ := Prod.mk.inj hread
      exact .inl (hitems htail hread')
  · next tail heq =>
    have htail : text <:+ skipBlanks tail := by
      rw [heq] at hskip hown
      exact suffix_skipBlanks hobject.head
        ((List.suffix_cons_iff.mp hskip).resolve_left (Ne.symm hown))
    split at hread
    · next closed hclose =>
      obtain ⟨-, rfl⟩ := Prod.mk.inj (Option.some.inj hread)
      exact .inl (suffix_behind hobject.head (hclose ▸ htail) (by decide))
    · obtain ⟨⟨members, rest'⟩, hread', hread⟩ := Option.map_eq_some_iff.mp hread
      obtain ⟨-, rfl⟩ := Prod.mk.inj hread
      exact .inl (hmembers htail hread')
  · obtain ⟨⟨n, rest'⟩, hnumeral, hread⟩ := Option.map_eq_some_iff.mp hread
    obtain ⟨-, rfl⟩ := Prod.mk.inj hread
    exact .inl (suffix_readNumeral hobject.head hskip hnumeral)

theorem suffix_readItems
    (hvalue : ∀ {cs rest j}, text <:+ cs → readValue bound cs = some (j, rest) →
      text <:+ rest ∨ rest = text.drop 2 ∨ (skipBlanks cs = text ∧ rest = []))
    (hitems : ∀ {cs rest items}, text <:+ cs → readItems bound cs = some (items, rest) →
      text <:+ rest)
    {items : List Json} (h : text <:+ cs) (hread : readItems (bound + 1) cs = some (items, rest)) :
    text <:+ rest := by
  unfold readItems at hread
  obtain ⟨⟨item, tail⟩, hitem, hread⟩ := Option.bind_eq_some_iff.mp hread
  have htail := (hvalue h hitem).imp_right (Or.imp_right And.right)
  simp only at hread
  split at hread
  · next closed hclose =>
    obtain ⟨-, rfl⟩ := Prod.mk.inj (Option.some.inj hread)
    exact hobject.suffix_of_mark (by simp) htail hclose
  · next others hcomma =>
    obtain ⟨⟨items, rest'⟩, hothers, hread⟩ := Option.bind_eq_some_iff.mp hread
    obtain ⟨-, rfl⟩ := Prod.mk.inj (Option.some.inj hread)
    exact hitems (hobject.suffix_of_mark (by simp) htail hcomma) hothers
  · cases hread

theorem suffix_readMembers
    (hvalue : ∀ {cs rest j}, text <:+ cs → readValue bound cs = some (j, rest) →
      text <:+ rest ∨ rest = text.drop 2 ∨ (skipBlanks cs = text ∧ rest = []))
    (hmembers : ∀ {cs rest members}, text <:+ cs → readMembers bound cs = some (members, rest) →
      text <:+ rest)
    {members : List (Option String × Json)} (h : text <:+ cs)
    (hread : readMembers (bound + 1) cs = some (members, rest)) : text <:+ rest := by
  have hskip : text <:+ skipBlanks cs := suffix_skipBlanks hobject.head h
  unfold readMembers at hread
  split at hread
  · next name hquote =>
    obtain ⟨⟨key, behindKey⟩, hkey, hread⟩ := Option.bind_eq_some_iff.mp hread
    have hname : text <:+ name := suffix_behind hobject.head (hquote ▸ hskip) (by decide)
    have hbehindKey : text <:+ behindKey ∨ behindKey = text.drop 2 ∨ behindKey = [] :=
      (hobject.suffix_readString hname hkey).imp_right .inl
    simp only at hread
    split at hread
    · next value hcolon =>
      obtain ⟨⟨item, tail⟩, hitem, hread⟩ := Option.bind_eq_some_iff.mp hread
      have hbehind := hobject.suffix_of_mark (by simp) hbehindKey hcolon
      have htail := (hvalue hbehind hitem).imp_right (Or.imp_right And.right)
      simp only at hread
      split at hread
      · next closed hclose =>
        obtain ⟨-, rfl⟩ := Prod.mk.inj (Option.some.inj hread)
        exact hobject.suffix_of_mark (by simp) htail hclose
      · next others hcomma =>
        obtain ⟨⟨members, rest'⟩, hothers, hread⟩ := Option.bind_eq_some_iff.mp hread
        obtain ⟨-, rfl⟩ := Prod.mk.inj (Option.some.inj hread)
        exact hmembers (hobject.suffix_of_mark (by simp) htail hcomma) hothers
      · cases hread
    · cases hread
  · cases hread

/-- Reading that begins in front of the object does not end in it. -/
theorem suffix_read (bound : Nat) :
    (∀ {cs rest j}, text <:+ cs → readValue bound cs = some (j, rest) →
      text <:+ rest ∨ rest = text.drop 2 ∨ (skipBlanks cs = text ∧ rest = [])) ∧
    (∀ {cs rest items}, text <:+ cs → readItems bound cs = some (items, rest) →
      text <:+ rest) ∧
    ∀ {cs rest members}, text <:+ cs → readMembers bound cs = some (members, rest) →
      text <:+ rest := by
  induction bound with
  | zero => exact ⟨nofun, nofun, nofun⟩
  | succ bound ih =>
    obtain ⟨hvalue, hitems, hmembers⟩ := ih
    exact ⟨hobject.suffix_readValue hitems hmembers, hobject.suffix_readItems hvalue hitems,
      hobject.suffix_readMembers hvalue hmembers⟩

/-- An object with other text than blanks in front of it is no document. -/
theorem allBlank_of_read? {before : List Char} {j : Json}
    (hread : read? (before ++ text) = some j) : AllBlank before := by
  unfold read? at hread
  split at hread
  · next value rest hvalue =>
    split at hread
    · next hend =>
      have hend : skipBlanks rest = [] := List.isEmpty_iff.mp hend
      rcases (hobject.suffix_read _).1 (List.suffix_append before text) hvalue with
        h | rfl | ⟨hskip, -⟩
      · have hnil : text <:+ [] := hend ▸ suffix_skipBlanks hobject.head h
        obtain ⟨c, body, rfl, -⟩ := hobject.opens
        cases List.suffix_nil.mp hnil
      · obtain ⟨c, inside, hinside, -⟩ := hobject.skipBlanks_inside
        rw [hend] at hinside
        cases hinside
      · exact allBlank_of_skipBlanks hskip
    · cases hread
  · cases hread

end IsNamedObject

/-! ## The compact text behind other text -/

theorem isNamedObject_compact {j : Json} (hplain : j.IsPlain)
    (hopens : ∃ c body, j.compact = '{' :: '"' :: c :: body ∧ c.isAlpha = true) :
    IsNamedObject j.compact where
  opens := hopens
  whole := by
    have hread : readValue (2 * j.compact.length) (j.compact ++ []) = some (j, []) :=
      readValue_written (written_compact hplain) (by simp) (Nat.le_refl _)
    rw [List.append_nil] at hread
    exact ⟨_, j, hread⟩

/-- Behind blanks an object is read as itself, and behind anything else there is no document. -/
theorem read?_append_compact {j : Json} (hplain : j.IsPlain)
    (hopens : ∃ c body, j.compact = '{' :: '"' :: c :: body ∧ c.isAlpha = true)
    (before : List Char) :
    read? (before ++ j.compact) = if before.all isBlank then some j else none := by
  split
  · next hblank =>
    have hread := read?_written (written_compact hplain) (List.all_eq_true.mp hblank) allBlank_nil
    rwa [List.append_nil] at hread
  · next hother =>
    rw [Option.eq_none_iff_forall_ne_some]
    intro value hread
    exact hother (List.all_eq_true.mpr
      ((isNamedObject_compact hplain hopens).allBlank_of_read? hread))

end InterruptStress.Json
