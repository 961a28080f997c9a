import InterruptStress.Binary64.Rounding
import Mathlib.Algebra.Order.Field.Power
import Mathlib.Algebra.Order.Field.Rat
import Mathlib.Data.Rat.Floor
import Mathlib.Tactic.Positivity

/-!
# How large a rounded number is

Rounding keeps the size of a number up to one binary place: what is at most a power of two has a
biased exponent of that power's size, and a number with that exponent is at most a little larger.
So a number of 64 bits and the product of two of them are finite.
-/

namespace InterruptStress

/-! ## The binary logarithm -/

variable {x : Rat}

/-- The logarithm that is guessed from numerator and denominator is off by less than one. -/
theorem between_guesses (hx : 0 < x) :
    (2 : Rat) ^ ((x.num.natAbs.log2 : Int) - x.den.log2 - 1) < x ∧
      x < (2 : Rat) ^ ((x.num.natAbs.log2 : Int) - x.den.log2 + 1) := by
  have hnum : x.num.natAbs ≠ 0 := Int.natAbs_ne_zero.mpr (Rat.num_pos.mpr hx).ne'
  have hden : (0 : Rat) < x.den := Nat.cast_pos.mpr x.den_pos
  have hsplit : x * x.den = x.num.natAbs := by
    rw [Nat.cast_natAbs, abs_of_pos (Rat.num_pos.mpr hx)]
    exact x.mul_den_eq_num
  have hnlow : (2 : Rat) ^ (x.num.natAbs.log2 : Int) ≤ x.num.natAbs := by
    exact_mod_cast Nat.log2_self_le hnum
  have hnhigh : (x.num.natAbs : Rat) < (2 : Rat) ^ ((x.num.natAbs.log2 : Int) + 1) := by
    exact_mod_cast Nat.lt_log2_self
  have hdlow : (2 : Rat) ^ (x.den.log2 : Int) ≤ x.den := by
    exact_mod_cast Nat.log2_self_le x.den_nz
  have hdhigh : (x.den : Rat) < (2 : Rat) ^ ((x.den.log2 : Int) + 1) := by
    exact_mod_cast Nat.lt_log2_self
  constructor
  · refine lt_of_mul_lt_mul_right ?_ hden.le
    calc (2 : Rat) ^ ((x.num.natAbs.log2 : Int) - x.den.log2 - 1) * x.den
        < (2 : Rat) ^ ((x.num.natAbs.log2 : Int) - x.den.log2 - 1) *
            (2 : Rat) ^ ((x.den.log2 : Int) + 1) := by gcongr
      _ = (2 : Rat) ^ (x.num.natAbs.log2 : Int) := by
        rw [← zpow_add₀ (by norm_num)]
        congr 1
        omega
      _ ≤ x * x.den := by rw [hsplit]; exact hnlow
  · refine lt_of_mul_lt_mul_right ?_ hden.le
    calc x * x.den < (2 : Rat) ^ ((x.num.natAbs.log2 : Int) + 1) := by rw [hsplit]; exact hnhigh
      _ = (2 : Rat) ^ ((x.num.natAbs.log2 : Int) - x.den.log2 + 1) *
            (2 : Rat) ^ (x.den.log2 : Int) := by
        rw [← zpow_add₀ (by norm_num)]
        congr 1
        omega
      _ ≤ (2 : Rat) ^ ((x.num.natAbs.log2 : Int) - x.den.log2 + 1) * x.den := by gcongr

/-- The binary logarithm of a positive number, rounded down. -/
theorem floorLog2_spec (hx : 0 < x) :
    (2 : Rat) ^ floorLog2 x ≤ x ∧ x < (2 : Rat) ^ (floorLog2 x + 1) := by
  obtain ⟨hlow, hhigh⟩ := between_guesses hx
  unfold floorLog2
  simp only
  split
  · next hguess => exact ⟨hguess, hhigh⟩
  · next hguess =>
    rw [Int.sub_add_cancel]
    exact ⟨hlow.le, not_le.mp hguess⟩

theorem floorLog2_le {k : Int} (hx : 0 < x) (hk : x ≤ (2 : Rat) ^ k) : floorLog2 x ≤ k :=
  (zpow_le_zpow_iff_right₀ (by norm_num)).mp ((floorLog2_spec hx).1.trans hk)

theorem roundHalfEven_le {n : Int} (h : x < n) : roundHalfEven x ≤ n := by
  have hfloor : x.floor < n := Rat.floor_lt_iff.mpr h
  unfold roundHalfEven
  simp only
  split <;> (try split) <;> (try split) <;> omega

/-! ## Rounding -/

namespace Binary64

/-- The significand that rounding counts has at most 53 places, or is the next power of two. -/
theorem scaled_lt (hx : 0 < x) :
    x / (2 : Rat) ^ gridExponent x < ((9_007_199_254_740_992 : Int) : Rat) := by
  have hgrid : floorLog2 x + 1 ≤ 53 + gridExponent x := by
    unfold gridExponent
    omega
  rw [div_lt_iff₀ (by positivity)]
  calc x < (2 : Rat) ^ (floorLog2 x + 1) := (floorLog2_spec hx).2
    _ ≤ (2 : Rat) ^ (53 + gridExponent x) := zpow_le_zpow_right₀ (by norm_num) hgrid
    _ = ((9_007_199_254_740_992 : Int) : Rat) * (2 : Rat) ^ gridExponent x := by
      rw [zpow_add₀ (by norm_num)]
      norm_num

theorem toNat_bits_ofSignAndBits {negative : Bool} {n : Nat} (hn : n ≤ infinityBits) :
    (ofSignAndBits negative n).bits.toNat =
      (if negative then 9_223_372_036_854_775_808 else 0) + n := by
  unfold infinityBits at hn
  rw [ofSignAndBits, UInt64.toNat_ofNat']
  apply Nat.mod_eq_of_lt
  split <;> omega

theorem biasedExponent_ofSignAndBits {negative : Bool} {n : Nat} (hn : n ≤ infinityBits) :
    (ofSignAndBits negative n).biasedExponent = n / 4_503_599_627_370_496 := by
  rw [biasedExponent, toNat_bits_ofSignAndBits hn]
  unfold infinityBits at hn
  split <;> omega

/-- What is at most a power of two has at most the exponent of the next. -/
theorem biasedExponent_ofMagnitude_le (negative : Bool) {k : Nat} (hx : 0 ≤ x)
    (hk : x ≤ (2 : Rat) ^ (k : Int)) :
    (ofMagnitude negative x).biasedExponent ≤ k + 1024 := by
  unfold ofMagnitude
  split
  · rw [biasedExponent_ofSignAndBits (Nat.zero_le _)]
    omega
  · next hne =>
    have hpos : 0 < x := lt_of_le_of_ne hx (Ne.symm hne)
    have hlog : floorLog2 x ≤ k := floorLog2_le hpos hk
    have hround := roundHalfEven_le (scaled_lt hpos)
    have hgrid : gridExponent x ≤ k - 52 := by
      unfold gridExponent
      omega
    simp only
    rw [biasedExponent_ofSignAndBits (Nat.min_le_right _ _)]
    generalize roundHalfEven (x / (2 : Rat) ^ gridExponent x) = m at hround
    omega

theorem isFinite_ofMagnitude {negative : Bool} {k : Nat} (hx : 0 ≤ x)
    (hk : x ≤ (2 : Rat) ^ (k : Int)) (hsmall : k ≤ 1022) :
    (ofMagnitude negative x).isFinite = true := by
  have hexponent := biasedExponent_ofMagnitude_le negative hx hk
  rw [isFinite, decide_eq_true_eq]
  omega

theorem magnitude_nonneg (y : Binary64) : 0 ≤ y.magnitude := by
  unfold magnitude
  positivity

/-- A number is at most the power of two that its exponent counts. -/
theorem magnitude_le (y : Binary64) :
    y.magnitude ≤ (2 : Rat) ^ ((y.biasedExponent : Int) - 1022) := by
  have htrailing : y.trailing < 4_503_599_627_370_496 := Nat.mod_lt _ (by decide)
  -- the significand has one place less where the leading bit is missing
  have hplaces (places exponent : Int) (hsignificand : (y.significand : Rat) ≤ (2 : Rat) ^ places)
      (hexponent : y.exponent = exponent) (hsum : places + exponent = y.biasedExponent - 1022) :
      y.magnitude ≤ (2 : Rat) ^ ((y.biasedExponent : Int) - 1022) := by
    rw [← hsum, zpow_add₀ (by norm_num), magnitude, hexponent]
    gcongr
  by_cases hsubnormal : y.biasedExponent = 0
  · refine hplaces 52 (-1074) ?_ (by simp [exponent, hsubnormal]) (by omega)
    rw [significand, if_pos hsubnormal]
    norm_num
    exact_mod_cast htrailing.le
  · refine hplaces 53 _ ?_ (by rw [exponent, if_neg hsubnormal]) (by omega)
    rw [significand, if_neg hsubnormal]
    norm_num
    have hsum : 4_503_599_627_370_496 + y.trailing ≤ 9_007_199_254_740_992 := by omega
    exact_mod_cast hsum

theorem ofNat_eq (n : Nat) : ofNat n = ofMagnitude false n := by
  have hsign : ¬ (n : Rat) < 0 := not_lt.mpr (Nat.cast_nonneg n)
  rw [ofNat, ofRat, Rat.abs_of_nonneg (Nat.cast_nonneg n)]
  simp [hsign]

theorem mul_of_isFinite {x y : Binary64} (hx : x.isFinite = true) (hy : y.isFinite = true) :
    x.mul y = ofMagnitude (x.isNegative != y.isNegative) (x.magnitude * y.magnitude) := by
  rw [isFinite, decide_eq_true_eq] at hx hy
  simp [mul, isNaN, isInfinite, hx, hy]

/-! ## Numbers of 64 bits -/

theorem cast_le_of_lt {n : Nat} (hn : n < 18_446_744_073_709_551_616) :
    (n : Rat) ≤ (2 : Rat) ^ ((64 : Nat) : Int) := by
  norm_num
  exact_mod_cast hn.le

theorem isFinite_ofNat {n : Nat} (hn : n < 18_446_744_073_709_551_616) :
    (ofNat n).isFinite = true := by
  rw [ofNat_eq]
  exact isFinite_ofMagnitude (Nat.cast_nonneg n) (cast_le_of_lt hn) (by decide)

theorem magnitude_ofNat_le {n : Nat} (hn : n < 18_446_744_073_709_551_616) :
    (ofNat n).magnitude ≤ (2 : Rat) ^ (66 : Int) := by
  have hexponent : (ofNat n).biasedExponent ≤ 64 + 1024 := by
    rw [ofNat_eq]
    exact biasedExponent_ofMagnitude_le false (Nat.cast_nonneg n) (cast_le_of_lt hn)
  exact (magnitude_le _).trans (zpow_le_zpow_right₀ (by norm_num) (by omega))

/-- The product of two numbers of 64 bits is finite. -/
theorem isFinite_mul_ofNat {m n : Nat} (hm : m < 18_446_744_073_709_551_616)
    (hn : n < 18_446_744_073_709_551_616) : ((ofNat m).mul (ofNat n)).isFinite = true := by
  rw [mul_of_isFinite (isFinite_ofNat hm) (isFinite_ofNat hn)]
  refine isFinite_ofMagnitude (k := 132)
    (mul_nonneg (magnitude_nonneg _) (magnitude_nonneg _)) ?_ (by decide)
  calc (ofNat m).magnitude * (ofNat n).magnitude
      ≤ (2 : Rat) ^ (66 : Int) * (2 : Rat) ^ (66 : Int) :=
        mul_le_mul (magnitude_ofNat_le hm) (magnitude_ofNat_le hn) (magnitude_nonneg _)
          (by positivity)
    _ = (2 : Rat) ^ ((132 : Nat) : Int) := by norm_num

end Binary64

end InterruptStress
