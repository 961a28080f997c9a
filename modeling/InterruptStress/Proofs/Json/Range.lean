import InterruptStress.Proofs.Binary64.Size
import InterruptStress.Proofs.Json.Written

/-!
# Plain documents can be loaded

An integer of 64 bits is gathered digit by digit without loss, and it is far from the largest
binary64 number.  So a document whose numbers are all of that kind is loaded as a whole.
-/

namespace InterruptStress.Json

namespace Numeral

theorem le_ofDigitChars (ds : List Char) (n : Nat) : n ≤ Nat.ofDigitChars 10 ds n := by
  induction ds generalizing n with
  | nil => exact Nat.le_refl n
  | cons d ds ih =>
    rw [Nat.ofDigitChars_cons]
    exact Nat.le_trans (by omega) (ih _)

/-- Digits of a number of 64 bits are all kept. -/
theorem foldl_addWhole (ds : List Char) (n : Nat)
    (h : Nat.ofDigitChars 10 ds n < 18_446_744_073_709_551_616) :
    ds.foldl Gathered.addWhole ⟨n, 0⟩ = ⟨Nat.ofDigitChars 10 ds n, 0⟩ := by
  induction ds generalizing n with
  | nil => rfl
  | cons d ds ih =>
    rw [Nat.ofDigitChars_cons] at h ⊢
    have hnext := Nat.lt_of_le_of_lt (le_ofDigitChars ds _) h
    have hadd : Gathered.addWhole ⟨n, 0⟩ d = ⟨10 * n + (d.toNat - '0'.toNat), 0⟩ := by
      simp only [Gathered.addWhole, Nat.mul_comm n 10, true_and, if_pos hnext]
    rw [List.foldl_cons, hadd, ih _ h]

/-- A number of 64 bits is in range. -/
theorem inRange_ofInt {i : Int} (h : i.natAbs < 18_446_744_073_709_551_616) :
    (ofInt i).inRange = true := by
  have hvalue : Nat.ofDigitChars 10 (Text.digits i.natAbs) 0 = i.natAbs :=
    Text.ofDigits_digits i.natAbs
  have hgathered : (ofInt i).gathered = ⟨i.natAbs, 0⟩ := by
    have hfold := foldl_addWhole (Text.digits i.natAbs) 0 (by rwa [hvalue])
    rw [hvalue] at hfold
    simp [gathered, ofInt, hfold, Gathered.addFraction]
  have hproduct := Binary64.isFinite_mul_ofNat h (n := 1) (by decide)
  simp [inRange, hgathered, hproduct]

end Numeral

mutual

theorem isLoadable_of_isPlain : ∀ {j : Json}, j.IsPlain → j.isLoadable = true
  | .null, _ | .bool _, _ => rfl
  | .num n, h => by
    obtain ⟨i, hi, rfl⟩ : ∃ i : Int, _ ∧ n = Numeral.ofInt i := by simpa only [IsPlain] using h
    rw [isLoadable]
    exact Numeral.inRange_ofInt hi
  | .str text, h => by
    rw [isLoadable]
    simpa only [IsPlain] using h
  | .arr items, h => by
    rw [isLoadable]
    exact itemsLoadable_of_itemsPlain (by simpa only [IsPlain] using h)
  | .obj members, h => by
    rw [isLoadable]
    exact membersLoadable_of_membersPlain (by simpa only [IsPlain] using h)

theorem itemsLoadable_of_itemsPlain : ∀ {items : List Json}, ItemsPlain items →
    itemsLoadable items = true
  | [], _ => rfl
  | item :: rest, h => by
    rw [ItemsPlain] at h
    rw [itemsLoadable, isLoadable_of_isPlain h.1, itemsLoadable_of_itemsPlain h.2]
    rfl

theorem membersLoadable_of_membersPlain : ∀ {members : List (Option String × Json)},
    MembersPlain members → membersLoadable members = true
  | [], _ => rfl
  | member :: rest, h => by
    rw [MembersPlain] at h
    rw [membersLoadable, h.1, isLoadable_of_isPlain h.2.1, membersLoadable_of_membersPlain h.2.2]
    rfl

end

end InterruptStress.Json
