import InterruptStress.Proofs.Binary64.Size
import Mathlib.Tactic.Linarith
import Mathlib.Tactic.Ring

/-!
# What a rounded number stands for

The pattern that rounding assembles stands for the significand it counted, at the spacing that
binary64 has at the size of its argument (`magnitude_ofMagnitude`).
-/

namespace InterruptStress

variable {x : Rat}

/-! ## Rounding to an integer -/

theorem floor_le_roundHalfEven (x : Rat) : x.floor ≤ roundHalfEven x := by
  unfold roundHalfEven
  simp only
  split <;> (try split) <;> (try split) <;> omega

theorem le_roundHalfEven {n : Int} (h : (n : Rat) ≤ x) : n ≤ roundHalfEven x :=
  (Rat.le_floor_iff.mpr h).trans (floor_le_roundHalfEven x)

/-- A half goes to zero, which is even. -/
theorem roundHalfEven_pos_iff : 0 < roundHalfEven x ↔ 1 / 2 < x := by
  have hfloor := Rat.floor_le x
  have hnext : x - 1 < x.floor := Rat.lt_floor
  rcases lt_trichotomy x.floor 0 with hneg | hzero | hpos
  · have hbelow : (x.floor : Rat) + 1 ≤ 0 := by exact_mod_cast hneg
    have hround : roundHalfEven x ≤ 0 := roundHalfEven_le (by push_cast; linarith)
    exact iff_of_false (by omega) (by linarith)
  · simp only [roundHalfEven, hzero]
    split
    · exact iff_of_false (by omega) (by push_cast at *; linarith)
    · split
      · exact iff_of_true (by omega) (by push_cast at *; linarith)
      · exact iff_of_false (by simp) (by push_cast at *; linarith)
  · have hone : (1 : Rat) ≤ x.floor := by exact_mod_cast hpos
    exact iff_of_true (hpos.trans_le (floor_le_roundHalfEven x)) (by linarith)

/-! ## Patterns -/

namespace Binary64

variable {negative : Bool}

theorem trailing_ofSignAndBits {n : Nat} (hn : n ≤ infinityBits) :
    (ofSignAndBits negative n).trailing = n % 4_503_599_627_370_496 := by
  rw [trailing, toNat_bits_ofSignAndBits hn]
  split <;> omega

/-- A pattern with the leading bit. -/
theorem magnitude_ofSignAndBits_normal {n e t : Nat} (hn : n ≤ infinityBits)
    (hsplit : n = (e + 1) * 4_503_599_627_370_496 + t) (ht : t < 4_503_599_627_370_496) :
    (ofSignAndBits negative n).magnitude =
      ((4_503_599_627_370_496 + t : Nat) : Rat) * (2 : Rat) ^ ((e : Int) - 1074) := by
  have hbiased : (ofSignAndBits negative n).biasedExponent = e + 1 := by
    rw [biasedExponent_ofSignAndBits hn]
    omega
  have htrailing : (ofSignAndBits negative n).trailing = t := by
    rw [trailing_ofSignAndBits hn]
    omega
  rw [magnitude, significand, exponent, hbiased, htrailing, if_neg e.succ_ne_zero,
    if_neg e.succ_ne_zero]
  congr 2
  omega

/-- A significand at an exponent stands for their product.  Without its leading bit it is at the
least exponent, and one that has grown to the next power of two carries into the exponent. -/
theorem magnitude_ofSignAndBits {e m : Nat} (hm : m ≤ 9_007_199_254_740_992)
    (hleading : e = 0 ∨ 4_503_599_627_370_496 ≤ m)
    (hfinite : e * 4_503_599_627_370_496 + m ≤ infinityBits) :
    (ofSignAndBits negative (e * 4_503_599_627_370_496 + m)).magnitude =
      (m : Rat) * (2 : Rat) ^ ((e : Int) - 1074) := by
  rcases Nat.lt_or_ge m 4_503_599_627_370_496 with hsmall | hlarge
  · obtain rfl : e = 0 := hleading.resolve_right (by omega)
    have hbiased : (ofSignAndBits negative (0 * 4_503_599_627_370_496 + m)).biasedExponent = 0 := by
      rw [biasedExponent_ofSignAndBits hfinite]
      omega
    rw [magnitude, significand, exponent, if_pos hbiased, if_pos hbiased,
      trailing_ofSignAndBits hfinite, Nat.zero_mul, Nat.zero_add, Nat.mod_eq_of_lt hsmall]
    rfl
  · obtain ⟨t, rfl⟩ := Nat.exists_eq_add_of_le hlarge
    rcases Nat.lt_or_ge t 4_503_599_627_370_496 with hfits | hcarries
    · exact magnitude_ofSignAndBits_normal hfinite (by omega) hfits
    · obtain rfl : t = 4_503_599_627_370_496 := by omega
      rw [magnitude_ofSignAndBits_normal (e := e + 1) (t := 0) hfinite (by omega) (by omega)]
      rw [show ((e + 1 : Nat) : Int) - 1074 = (e - 1074 : Int) + 1 by omega,
        zpow_add_one₀ (by norm_num)]
      push_cast
      ring

/-! ## Signs -/

theorem isNegative_ofSignAndBits {n : Nat} (hn : n ≤ infinityBits) :
    (ofSignAndBits negative n).isNegative = negative := by
  rw [isNegative, toNat_bits_ofSignAndBits hn]
  unfold infinityBits at hn
  cases negative with
  | false =>
    simp only [Bool.false_eq_true, if_false]
    exact decide_eq_false (by omega)
  | true => exact decide_eq_true (Nat.le_add_right _ _)

theorem isNegative_ofMagnitude : (ofMagnitude negative x).isNegative = negative := by
  unfold ofMagnitude
  split
  · exact isNegative_ofSignAndBits (Nat.zero_le _)
  · exact isNegative_ofSignAndBits (Nat.min_le_right _ _)

theorem ofRat_of_nonneg (hx : 0 ≤ x) : ofRat x = ofMagnitude false x := by
  rw [ofRat, Rat.abs_of_nonneg hx, decide_eq_false (not_lt.mpr hx)]

theorem toRat_ofRat_of_nonneg (hx : 0 ≤ x) : (ofRat x).toRat = (ofRat x).magnitude := by
  rw [ofRat_of_nonneg hx, toRat, isNegative_ofMagnitude]
  rfl

theorem magnitude_of_toRat_nonneg {z : Binary64} (h : 0 ≤ z.toRat) : z.magnitude = z.toRat := by
  have hmagnitude := magnitude_nonneg z
  unfold toRat at h ⊢
  split at h
  · rw [if_pos ‹_›]
    linarith
  · rw [if_neg ‹_›]

theorem magnitude_eq_zero_iff {z : Binary64} : z.magnitude = 0 ↔ z.significand = 0 := by
  have hpower : (2 : Rat) ^ z.exponent ≠ 0 := by positivity
  rw [magnitude, mul_eq_zero, or_iff_left hpower, Nat.cast_eq_zero]

theorem isBelowZero_iff {z : Binary64} (hfinite : z.isFinite = true) :
    z.isBelowZero = true ↔ z.toRat < 0 := by
  have hnan : z.isNaN = false := by
    rw [isFinite, decide_eq_true_eq] at hfinite
    simp [isNaN, hfinite]
  have hzero : z.isZero = true ↔ z.magnitude = 0 := by
    simp [isZero, hfinite, magnitude_eq_zero_iff]
  have hpositive : 0 < z.magnitude ↔ z.magnitude ≠ 0 := (magnitude_nonneg z).lt_iff_ne'
  unfold isBelowZero toRat
  by_cases hsign : z.isNegative = true
  · simp [hsign, hnan, hpositive, ← hzero]
  · simpa [hsign] using magnitude_nonneg z

/-! ## Rounding to the grid -/

theorem le_gridExponent (x : Rat) : -1074 ≤ gridExponent x := le_max_right _ _

/-- The significand that rounding counts has its leading bit unless the grid is the finest. -/
theorem le_scaled (hx : 0 < x) (hgrid : gridExponent x ≠ -1074) :
    ((4_503_599_627_370_496 : Int) : Rat) ≤ x / (2 : Rat) ^ gridExponent x := by
  have hgrid : gridExponent x = floorLog2 x - 52 := by
    unfold gridExponent at hgrid ⊢
    omega
  rw [le_div_iff₀ (by positivity), hgrid]
  calc ((4_503_599_627_370_496 : Int) : Rat) * (2 : Rat) ^ (floorLog2 x - 52)
      = (2 : Rat) ^ (52 + (floorLog2 x - 52)) := by
        rw [zpow_add₀ (by norm_num)]
        norm_num
    _ ≤ x := by
        rw [add_sub_cancel]
        exact (floorLog2_spec hx).1

/-- A number that rounds to a finite one rounds to the nearest on its grid. -/
theorem magnitude_ofMagnitude (hx : 0 < x) (hfinite : (ofMagnitude negative x).isFinite = true) :
    (ofMagnitude negative x).magnitude =
      (roundHalfEven (x / (2 : Rat) ^ gridExponent x) : Rat) * (2 : Rat) ^ gridExponent x := by
  have hcoarse := le_gridExponent x
  have hpositive : 0 ≤ roundHalfEven (x / (2 : Rat) ^ gridExponent x) :=
    le_roundHalfEven (by push_cast; positivity)
  have hplaces := roundHalfEven_le (scaled_lt hx)
  have hleading : gridExponent x = -1074 ∨
      4_503_599_627_370_496 ≤ roundHalfEven (x / (2 : Rat) ^ gridExponent x) := by
    by_cases hgrid : gridExponent x = -1074
    · exact .inl hgrid
    · exact .inr (le_roundHalfEven (le_scaled hx hgrid))
  unfold ofMagnitude at hfinite ⊢
  simp only [if_neg hx.ne'] at hfinite ⊢
  generalize gridExponent x = q at *
  generalize roundHalfEven (x / (2 : Rat) ^ q) = m at *
  obtain ⟨e, rfl⟩ : ∃ e : Nat, q = e - 1074 := ⟨(q + 1074).toNat, by omega⟩
  obtain ⟨m, rfl⟩ := Int.eq_ofNat_of_zero_le hpositive
  have hexponent : ((e : Int) - 1074 + 1074).toNat = e := by omega
  rw [hexponent, Int.toNat_natCast] at hfinite ⊢
  have hbelow : e * 4_503_599_627_370_496 + m < infinityBits := by
    rw [isFinite, decide_eq_true_eq, biasedExponent_ofSignAndBits (Nat.min_le_right _ _)] at hfinite
    unfold infinityBits at hfinite ⊢
    omega
  rw [Nat.min_eq_left hbelow.le,
    magnitude_ofSignAndBits (by omega) (by omega) hbelow.le]
  rfl

/-! ## Whole numbers and products -/

theorem toRat_ofNat (n : Nat) : (ofNat n).toRat = (ofNat n).magnitude :=
  toRat_ofRat_of_nonneg (Nat.cast_nonneg n)

theorem isFinite_of_isFinite_mul {y z : Binary64} (h : (y.mul z).isFinite = true) :
    y.isFinite = true ∧ z.isFinite = true := by
  have hnan : nan.isFinite = false := by decide
  have hinfinite (negative : Bool) : (infinity negative).isFinite = false := by
    cases negative <;> decide
  have hcases (x : Binary64) : x.isFinite = !(x.isNaN || x.isInfinite) := by
    rw [Bool.eq_iff_iff]
    simp [isFinite, isNaN, isInfinite]
    tauto
  unfold mul at h
  simp only at h
  split at h
  · simp [hnan] at h
  · split at h
    · split at h <;> simp [hnan, hinfinite] at h
    · simp_all

end Binary64

end InterruptStress
