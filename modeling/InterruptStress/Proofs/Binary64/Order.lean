import InterruptStress.Proofs.Binary64.Value

/-!
# Rounding keeps order

A larger number lies on the same grid or on a coarser one.  On the same grid it rounds to as many
steps at least, and on a coarser one to so many that it is past everything on the finer grid
(`Binary64.grid_cases`).  So rounding neither changes an order nor makes a number infinite that is
below one that stays finite (`Binary64.magnitude_ofMagnitude_mono`).

What is on the grid of its size is not changed by rounding, and neither does it matter what is
added to it below half a step (`Binary64.rounded_add`).  Every finite number is on that grid, so
rounding a number a second time changes nothing.
-/

namespace InterruptStress

variable {x y : Rat}

/-! ## Rounding to an integer -/

/-- The nearest integer, and of two that are equally near the even one. -/
def IsNearest (x : Rat) (n : Int) : Prop := |x - n| < 1 / 2 ∨ |x - n| = 1 / 2 ∧ n % 2 = 0

theorem IsNearest.abs_sub_le {n : Int} (h : IsNearest x n) : |x - n| ≤ 1 / 2 := by
  rcases h with hnear | ⟨htie, -⟩
  · exact hnear.le
  · exact htie.le

/-- Two neighbours are not both nearest: between them lies a half, and one of them is odd. -/
theorem IsNearest.not_succ {n : Int} (h : IsNearest x n) : ¬ IsNearest x (n + 1) := by
  intro hsucc
  have hbelow := abs_le.mp h.abs_sub_le
  have habove := abs_le.mp hsucc.abs_sub_le
  push_cast at habove
  have hhalf : x = n + 1 / 2 := by linarith
  rw [hhalf] at h hsucc
  have heven : n % 2 = 0 := by simpa [IsNearest, abs_of_pos] using h
  have hodd : (n + 1) % 2 = 0 := by
    rcases hsucc with hnear | ⟨-, heven⟩
    · rw [abs_lt] at hnear
      push_cast at hnear
      linarith
    · exact heven
  omega

/-- There is one nearest integer. -/
theorem IsNearest.unique {m n : Int} (hm : IsNearest x m) (hn : IsNearest x n) : m = n := by
  have hm' := abs_le.mp hm.abs_sub_le
  have hn' := abs_le.mp hn.abs_sub_le
  have hmn : (m : Rat) ≤ ((n + 1 : Int) : Rat) := by push_cast; linarith
  have hnm : (n : Rat) ≤ ((m + 1 : Int) : Rat) := by push_cast; linarith
  rw [Int.cast_le] at hmn hnm
  by_contra hne
  by_cases hlt : m < n
  · obtain rfl : n = m + 1 := by omega
    exact hm.not_succ hn
  · obtain rfl : m = n + 1 := by omega
    exact hn.not_succ hm

theorem isNearest_roundHalfEven (x : Rat) : IsNearest x (roundHalfEven x) := by
  have hfloor := Rat.floor_le x
  have hnext : x - 1 < x.floor := Rat.lt_floor
  unfold IsNearest roundHalfEven
  simp only
  split
  · left
    rw [abs_lt]
    constructor <;> linarith
  · split
    · left
      rw [abs_lt]
      push_cast
      constructor <;> linarith
    · have hhalf : x - x.floor = 1 / 2 := by linarith
      right
      split
      · next heven => exact ⟨by rw [hhalf]; norm_num, heven⟩
      · next hodd =>
        refine ⟨?_, by omega⟩
        push_cast
        rw [← sub_sub, hhalf]
        norm_num

theorem isNearest_iff {n : Int} : IsNearest x n ↔ n = roundHalfEven x := by
  constructor
  · intro h
    exact h.unique (isNearest_roundHalfEven x)
  · rintro rfl
    exact isNearest_roundHalfEven x

theorem roundHalfEven_mono (hxy : x ≤ y) : roundHalfEven x ≤ roundHalfEven y := by
  by_contra hgt
  have hx := abs_le.mp (isNearest_roundHalfEven x).abs_sub_le
  have hy := abs_le.mp (isNearest_roundHalfEven y).abs_sub_le
  have hsucc : ((roundHalfEven y + 1 : Int) : Rat) ≤ roundHalfEven x := by
    rw [Int.cast_le]
    omega
  push_cast at hsucc
  -- both are then the half between the two integers
  have heq : x = y := by linarith
  rw [heq] at hgt
  exact hgt le_rfl

theorem exists_isNearest_le {n : Nat} (hx : 0 ≤ x) (hxy : x ≤ y) (hn : IsNearest y n) :
    ∃ m : Nat, m ≤ n ∧ IsNearest x m := by
  have hnonneg : 0 ≤ roundHalfEven x := le_roundHalfEven hx
  have hle : roundHalfEven x ≤ n := by
    rw [isNearest_iff.mp hn]
    exact roundHalfEven_mono hxy
  obtain ⟨m, hm⟩ := Int.eq_ofNat_of_zero_le hnonneg
  exact ⟨m, by omega, isNearest_iff.mpr hm.symm⟩

/-- A remainder below a half is dropped. -/
theorem roundHalfEven_add {f : Rat} (n : Int) (hf : 0 ≤ f) (hhalf : f < 1 / 2) :
    roundHalfEven (n + f) = n := by
  symm
  rw [← isNearest_iff, IsNearest, add_sub_cancel_left, abs_of_nonneg hf]
  exact .inl hhalf

/-! ## The grid -/

theorem floorLog2_lt {k : Int} (hx : 0 < x) (hk : x < (2 : Rat) ^ k) : floorLog2 x < k :=
  (zpow_lt_zpow_iff_right₀ (by norm_num)).mp ((floorLog2_spec hx).1.trans_lt hk)

theorem le_floorLog2 {k : Int} (hk : (2 : Rat) ^ k ≤ x) : k ≤ floorLog2 x := by
  have hx : 0 < x := lt_of_lt_of_le (by positivity) hk
  have hlt : k < floorLog2 x + 1 :=
    (zpow_lt_zpow_iff_right₀ (by norm_num)).mp (hk.trans_lt (floorLog2_spec hx).2)
  omega

namespace Binary64

variable {negative : Bool}

theorem gridExponent_mono (hx : 0 < x) (hxy : x ≤ y) : gridExponent x ≤ gridExponent y := by
  have hlog : floorLog2 x ≤ floorLog2 y := le_floorLog2 ((floorLog2_spec hx).1.trans hxy)
  unfold gridExponent
  omega

theorem gridExponent_le {k : Int} (hx : 0 < x) (hk : -1074 ≤ k)
    (hplaces : x < (2 : Rat) ^ (k + 53)) : gridExponent x ≤ k := by
  have hlog := floorLog2_lt hx hplaces
  unfold gridExponent
  omega

/-- How many steps of the grid a number is rounded to. -/
def gridSteps (x : Rat) : Int := roundHalfEven (x / (2 : Rat) ^ gridExponent x)

/-- The number nearest on the grid, however large it is. -/
def rounded (x : Rat) : Rat := gridSteps x * (2 : Rat) ^ gridExponent x

theorem gridSteps_nonneg (hx : 0 ≤ x) : 0 ≤ gridSteps x :=
  le_roundHalfEven (by push_cast; positivity)

theorem rounded_nonneg (hx : 0 ≤ x) : 0 ≤ rounded x := by
  have hsteps : (0 : Rat) ≤ gridSteps x := by exact_mod_cast gridSteps_nonneg hx
  unfold rounded
  positivity

/-- A larger number is on the same grid, or on one so coarse that even its smallest number is past
all of the finer grid. -/
theorem grid_cases (hx : 0 < x) (hxy : x ≤ y) :
    (gridExponent x = gridExponent y ∧ gridSteps x ≤ gridSteps y) ∨
      (gridExponent x < gridExponent y ∧ gridSteps x ≤ 9_007_199_254_740_992 ∧
        4_503_599_627_370_496 ≤ gridSteps y) := by
  rcases (gridExponent_mono hx hxy).eq_or_lt with hsame | hcoarser
  · left
    refine ⟨hsame, ?_⟩
    unfold gridSteps
    rw [hsame]
    apply roundHalfEven_mono
    gcongr
  · right
    have hleast := le_gridExponent x
    exact ⟨hcoarser, roundHalfEven_le (scaled_lt hx),
      le_roundHalfEven (le_scaled (hx.trans_le hxy) (by omega))⟩

theorem rounded_zero : rounded 0 = 0 := by
  have hzero : roundHalfEven 0 = 0 := by simpa using roundHalfEven_add 0 le_rfl (by norm_num)
  rw [rounded, gridSteps, zero_div, hzero, Int.cast_zero, zero_mul]

theorem rounded_mono (hx : 0 ≤ x) (hxy : x ≤ y) : rounded x ≤ rounded y := by
  rcases hx.eq_or_lt with rfl | hpos
  · rw [rounded_zero]
    exact rounded_nonneg hxy
  · unfold rounded
    rcases grid_cases hpos hxy with ⟨hsame, hsteps⟩ | ⟨hcoarser, hxsteps, hysteps⟩
    · rw [hsame]
      gcongr
    · have hxsteps : (gridSteps x : Rat) ≤ 9_007_199_254_740_992 := by exact_mod_cast hxsteps
      have hysteps : (4_503_599_627_370_496 : Rat) ≤ gridSteps y := by exact_mod_cast hysteps
      calc gridSteps x * (2 : Rat) ^ gridExponent x
          ≤ 9_007_199_254_740_992 * (2 : Rat) ^ gridExponent x := by gcongr
        _ = 4_503_599_627_370_496 * (2 : Rat) ^ (gridExponent x + 1) := by
          rw [zpow_add_one₀ (by norm_num)]
          ring
        _ ≤ 4_503_599_627_370_496 * (2 : Rat) ^ gridExponent y := by
          gcongr
          · norm_num
          · omega
        _ ≤ gridSteps y * (2 : Rat) ^ gridExponent y := by gcongr

/-- Less than half a step that is added to a number on the grid is lost. -/
theorem rounded_add {f : Rat} {n k : Int} (hx : x = n * (2 : Rat) ^ k)
    (hgrid : gridExponent (x + f) ≤ k) (hf : 0 ≤ f)
    (hhalf : 2 * f < (2 : Rat) ^ gridExponent (x + f)) : rounded (x + f) = x := by
  obtain ⟨i, rfl⟩ := Int.le.dest hgrid
  unfold rounded gridSteps
  generalize gridExponent (x + f) = q at *
  have hstep : (0 : Rat) < (2 : Rat) ^ q := by positivity
  have hon : x = ((n * 2 ^ i : Int) : Rat) * (2 : Rat) ^ q := by
    rw [hx, zpow_add₀ (by norm_num), zpow_natCast]
    push_cast
    ring
  have hscaled : (x + f) / (2 : Rat) ^ q = ((n * 2 ^ i : Int) : Rat) + f / (2 : Rat) ^ q := by
    rw [add_div, hon, mul_div_cancel_right₀ _ hstep.ne']
  have hrest : f / (2 : Rat) ^ q < 1 / 2 := by
    rw [div_lt_iff₀ hstep]
    linarith
  rw [hscaled, roundHalfEven_add _ (by positivity) hrest, ← hon]

theorem rounded_of_lt {n : Nat} {k : Int} (hn : n < 9_007_199_254_740_992) (hk : -1074 ≤ k) :
    rounded (n * (2 : Rat) ^ k) = n * (2 : Rat) ^ k := by
  rcases Nat.eq_zero_or_pos n with rfl | hpos
  · rw [Nat.cast_zero, zero_mul, rounded_zero]
  · have hn : (n : Rat) < 9_007_199_254_740_992 := by exact_mod_cast hn
    have hplaces : n * (2 : Rat) ^ k < (2 : Rat) ^ (k + 53) := by
      rw [zpow_add₀ (by norm_num), mul_comm]
      norm_num
      gcongr
    have hgrid := gridExponent_le (by positivity) hk hplaces
    simpa using rounded_add (f := 0) (n := n) (k := k) rfl (by simpa using hgrid) le_rfl
      (by simp; positivity)

/-- Fifty-three binary places are on the grid, and so is the next power of two. -/
theorem rounded_of_places {n : Nat} {k : Int} (hn : n ≤ 9_007_199_254_740_992) (hk : -1074 ≤ k) :
    rounded (n * (2 : Rat) ^ k) = n * (2 : Rat) ^ k := by
  rcases hn.eq_or_lt with rfl | hlt
  · have hcarry : ((9_007_199_254_740_992 : Nat) : Rat) * (2 : Rat) ^ k =
        (4_503_599_627_370_496 : Nat) * (2 : Rat) ^ (k + 1) := by
      rw [zpow_add_one₀ (by norm_num)]
      push_cast
      ring
    rw [hcarry]
    exact rounded_of_lt (by omega) (by omega)
  · exact rounded_of_lt hlt hk

theorem rounded_natCast {n : Nat} (hn : n ≤ 9_007_199_254_740_992) : rounded n = n := by
  simpa using rounded_of_places (k := 0) hn (by omega)

/-- Rounding a second time changes nothing. -/
theorem rounded_rounded (hx : 0 ≤ x) : rounded (rounded x) = rounded x := by
  rcases hx.eq_or_lt with rfl | hpos
  · rw [rounded_zero, rounded_zero]
  · have hmost : gridSteps x ≤ 9_007_199_254_740_992 := roundHalfEven_le (scaled_lt hpos)
    obtain ⟨n, hn⟩ := Int.eq_ofNat_of_zero_le (gridSteps_nonneg hx)
    have hcounted : rounded x = n * (2 : Rat) ^ gridExponent x := by
      rw [rounded, hn, Int.cast_natCast]
    rw [hcounted]
    exact rounded_of_places (by omega) (le_gridExponent x)

/-! ## Numbers that are rounded -/

theorem magnitude_eq_rounded (hx : 0 ≤ x) (hfinite : (ofMagnitude negative x).isFinite = true) :
    (ofMagnitude negative x).magnitude = rounded x := by
  rcases hx.eq_or_lt with rfl | hpos
  · rw [rounded_zero, ofMagnitude, if_pos rfl]
    simpa using (magnitude_ofSignAndBits (Nat.zero_le _) (.inl rfl) (Nat.zero_le _) :
      (ofSignAndBits negative (0 * 4_503_599_627_370_496 + 0)).magnitude = _)
  · exact magnitude_ofMagnitude hpos hfinite

theorem isFinite_ofMagnitude_iff (hx : 0 < x) :
    (ofMagnitude negative x).isFinite = true ↔
      (gridExponent x + 1074) * 4_503_599_627_370_496 + gridSteps x <
        2047 * 4_503_599_627_370_496 := by
  have hleast := le_gridExponent x
  have hsteps := gridSteps_nonneg hx.le
  unfold gridSteps at hsteps ⊢
  rw [isFinite, decide_eq_true_eq, ofMagnitude, if_neg hx.ne',
    biasedExponent_ofSignAndBits (Nat.min_le_right _ _)]
  unfold infinityBits
  generalize gridExponent x = q at *
  generalize roundHalfEven (x / (2 : Rat) ^ q) = m at *
  omega

/-- What is below a number that stays finite stays finite, and below it. -/
theorem magnitude_ofMagnitude_mono {negative' : Bool} (hx : 0 ≤ x) (hxy : x ≤ y)
    (hfinite : (ofMagnitude negative' y).isFinite = true) :
    (ofMagnitude negative x).isFinite = true ∧
      (ofMagnitude negative x).magnitude ≤ (ofMagnitude negative' y).magnitude := by
  have hxfinite : (ofMagnitude negative x).isFinite = true := by
    rcases hx.eq_or_lt with rfl | hpos
    · exact isFinite_ofMagnitude (k := 0) le_rfl (by positivity) (by omega)
    · rw [isFinite_ofMagnitude_iff (hpos.trans_le hxy)] at hfinite
      rw [isFinite_ofMagnitude_iff hpos]
      rcases grid_cases hpos hxy with ⟨hsame, hsteps⟩ | ⟨hcoarser, hxsteps, hysteps⟩ <;> omega
  refine ⟨hxfinite, ?_⟩
  rw [magnitude_eq_rounded hx hxfinite, magnitude_eq_rounded (hx.trans hxy) hfinite]
  exact rounded_mono hx hxy

theorem toRat_ofNat_eq_rounded {n : Nat} (hn : n < 18_446_744_073_709_551_616) :
    (ofNat n).toRat = rounded n := by
  have hfinite := isFinite_ofNat hn
  rw [toRat_ofNat]
  rw [ofNat_eq] at hfinite ⊢
  exact magnitude_eq_rounded (Nat.cast_nonneg n) hfinite

theorem toRat_ofRat_eq_rounded {k : Nat} (hx : 0 ≤ x) (hk : x ≤ (2 : Rat) ^ (k : Int))
    (hsmall : k ≤ 1022) : (ofRat x).toRat = rounded x := by
  rw [toRat_ofRat_of_nonneg hx, ofRat_of_nonneg hx]
  exact magnitude_eq_rounded hx (isFinite_ofMagnitude hx hk hsmall)

/-- What reaches a power of two is not rounded below it. -/
theorem zpow_le_magnitude_ofMagnitude {k : Int} (hk : -1074 ≤ k) (hx : (2 : Rat) ^ k ≤ x)
    (hfinite : (ofMagnitude negative x).isFinite = true) :
    (2 : Rat) ^ k ≤ (ofMagnitude negative x).magnitude := by
  have hpower : rounded ((2 : Rat) ^ k) = (2 : Rat) ^ k := by
    simpa using rounded_of_places (n := 1) (by omega) hk
  rw [magnitude_eq_rounded (le_trans (by positivity) hx) hfinite, ← hpower]
  exact rounded_mono (by positivity) hx

/-! ## Products -/

/-- A zero of either sign counts as not below zero, and what it is multiplied with becomes one. -/
theorem toRat_mul_eq_rounded {y z : Binary64} (hy : 0 ≤ y.toRat) (hz : 0 ≤ z.toRat)
    (hfinite : (y.mul z).isFinite = true) : (y.mul z).toRat = rounded (y.toRat * z.toRat) := by
  have hzero {w : Binary64} (hw : 0 ≤ w.toRat) (hsign : w.isNegative = true) : w.toRat = 0 := by
    have hmagnitude := magnitude_nonneg w
    rw [toRat, if_pos hsign] at hw ⊢
    linarith
  obtain ⟨hyfinite, hzfinite⟩ := isFinite_of_isFinite_mul hfinite
  rw [mul_of_isFinite hyfinite hzfinite, magnitude_of_toRat_nonneg hy,
    magnitude_of_toRat_nonneg hz] at hfinite ⊢
  rw [toRat, isNegative_ofMagnitude, magnitude_eq_rounded (mul_nonneg hy hz) hfinite]
  by_cases hsame : y.isNegative = z.isNegative
  · simp [hsame]
  · have hproduct : y.toRat * z.toRat = 0 := by
      by_cases hsign : y.isNegative = true
      · rw [hzero hy hsign, zero_mul]
      · rw [hzero hz (by simpa [hsign] using hsame), mul_zero]
    rw [hproduct, rounded_zero, neg_zero, ite_self]

/-- A product of numbers that are not below zero grows with both of them. -/
theorem mul_mono {y₁ y₂ z₁ z₂ : Binary64} (hyfinite : y₁.isFinite = true)
    (hzfinite : z₁.isFinite = true) (hy : 0 ≤ y₁.toRat) (hz : 0 ≤ z₁.toRat)
    (hyle : y₁.toRat ≤ y₂.toRat) (hzle : z₁.toRat ≤ z₂.toRat)
    (hfinite : (y₂.mul z₂).isFinite = true) :
    (y₁.mul z₁).isFinite = true ∧ 0 ≤ (y₁.mul z₁).toRat ∧
      (y₁.mul z₁).toRat ≤ (y₂.mul z₂).toRat := by
  have hproducts : y₁.toRat * z₁.toRat ≤ y₂.toRat * z₂.toRat :=
    mul_le_mul hyle hzle hz (hy.trans hyle)
  have hstays : (y₁.mul z₁).isFinite = true := by
    obtain ⟨hyfinite₂, hzfinite₂⟩ := isFinite_of_isFinite_mul hfinite
    rw [mul_of_isFinite hyfinite₂ hzfinite₂, magnitude_of_toRat_nonneg (hy.trans hyle),
      magnitude_of_toRat_nonneg (hz.trans hzle)] at hfinite
    rw [mul_of_isFinite hyfinite hzfinite, magnitude_of_toRat_nonneg hy,
      magnitude_of_toRat_nonneg hz]
    exact (magnitude_ofMagnitude_mono (mul_nonneg hy hz) hproducts hfinite).1
  rw [toRat_mul_eq_rounded hy hz hstays,
    toRat_mul_eq_rounded (hy.trans hyle) (hz.trans hzle) hfinite]
  exact ⟨hstays, rounded_nonneg (mul_nonneg hy hz), rounded_mono (mul_nonneg hy hz) hproducts⟩

/-! ## Numbers that are on the grid -/

theorem significand_lt (z : Binary64) : z.significand < 9_007_199_254_740_992 := by
  have htrailing : z.trailing < 4_503_599_627_370_496 := Nat.mod_lt _ (by decide)
  unfold significand
  split <;> omega

theorem le_exponent (z : Binary64) : -1074 ≤ z.exponent := by
  unfold exponent
  split <;> omega

end Binary64

end InterruptStress
