import InterruptStress.Duration
import InterruptStress.Proofs.Binary64.Order

/-!
# Spans of time and numbers of seconds

A span is turned into seconds by four roundings, and none of them changes an order, but their sum
might: the whole seconds are rounded before the rest is added.  It does not
(`Duration.toSeconds_mono`).  Below 2^53 seconds nothing is lost of the whole seconds, and the rest
stays below the next second.  From there on the numbers of the format are two seconds and more
apart, and the rest, which is less than one, is lost.

Back from seconds comes the span of the nearest nanosecond, wherever there is one
(`Duration.ofSeconds_eq_ok_iff`).
-/

namespace InterruptStress

open Binary64

namespace Duration

variable {d d₁ d₂ : Duration}

/-! ## Whole nanoseconds -/

theorem totalNanos_lt (d : Duration) :
    d.totalNanos < 18_446_744_073_709_551_616 * 1_000_000_000 := by
  have hsecs := d.secs.toNat_lt
  have hnanos := d.nanos_lt
  unfold totalNanos
  omega

theorem totalNanos_injective (h : d₁.totalNanos = d₂.totalNanos) : d₁ = d₂ := by
  obtain ⟨secs₁, nanos₁, hnanos₁⟩ := d₁
  obtain ⟨secs₂, nanos₂, hnanos₂⟩ := d₂
  unfold totalNanos at h
  simp only at h
  have hsecs : secs₁ = secs₂ := UInt64.toNat_inj.mp (by omega)
  have hnanos : nanos₁ = nanos₂ := UInt32.toNat_inj.mp (by omega)
  subst hsecs hnanos
  rfl

theorem ofNanos?_eq_some_iff {n : Nat} : ofNanos? n = some d ↔ d.totalNanos = n := by
  unfold ofNanos?
  constructor
  · intro h
    split at h
    · next hfits =>
      rw [Option.some.injEq] at h
      rw [← h, totalNanos_ofNanos hfits]
    · cases h
  · rintro rfl
    rw [if_pos d.totalNanos_lt, Option.some.injEq]
    exact totalNanos_injective (totalNanos_ofNanos d.totalNanos_lt)

/-! ## From seconds -/

/-- A number of seconds is a span if it is finite and not below zero and its nearest nanosecond
fits. -/
theorem ofSeconds_eq_ok_iff {x : Binary64} :
    ofSeconds x = .ok d ↔
      x.isFinite = true ∧ 0 ≤ x.toRat ∧ IsNearest (x.toRat * 1_000_000_000) d.totalNanos := by
  unfold ofSeconds
  by_cases hfinite : x.isFinite = true
  · by_cases hbelow : x.isBelowZero = true
    · have hnegative := (isBelowZero_iff hfinite).mp hbelow
      simp [hbelow, hnegative]
    · have hnonneg : 0 ≤ x.toRat := by
        rwa [isBelowZero_iff hfinite, not_lt] at hbelow
      have hround : 0 ≤ roundHalfEven (x.toRat * 1_000_000_000) :=
        le_roundHalfEven (by push_cast; positivity)
      have hnanos : d.totalNanos = (roundHalfEven (x.toRat * 1_000_000_000)).toNat ↔
          IsNearest (x.toRat * 1_000_000_000) d.totalNanos := by
        rw [isNearest_iff]
        omega
      rw [if_neg hbelow, magnitude_of_toRat_nonneg hnonneg, ← hnanos, ← ofNanos?_eq_some_iff]
      simp only [hfinite, hnonneg, Bool.not_true, Bool.false_eq_true, if_false, true_and]
      cases ofNanos? (roundHalfEven (x.toRat * 1_000_000_000)).toNat with
      | some d' => simp
      | none => simp
  · constructor
    · intro h
      split at h
      · cases h
      · simp [hfinite] at h
    · rintro ⟨h, -, -⟩
      exact absurd h hfinite

theorem totalNanos_of_ofSeconds {x : Binary64} (h : ofSeconds x = .ok d) :
    x.isFinite = true ∧ d.totalNanos = (roundHalfEven (x.magnitude * 1_000_000_000)).toNat := by
  obtain ⟨hfinite, hnonneg, hnearest⟩ := ofSeconds_eq_ok_iff.mp h
  rw [isNearest_iff] at hnearest
  rw [magnitude_of_toRat_nonneg hnonneg, ← hnearest]
  exact ⟨hfinite, rfl⟩

/-! ## To seconds -/

/-- The nanoseconds beside the seconds, as a number of seconds. -/
def fraction (d : Duration) : Rat := rounded ((d.nanos.toNat : Rat) / 1_000_000_000)

theorem fraction_nonneg (d : Duration) : 0 ≤ d.fraction :=
  rounded_nonneg (by positivity)

/-- They are less than a second also after rounding, as a number of thirty places lies between. -/
theorem fraction_lt_one (d : Duration) : d.fraction < 1 := by
  have hnanos : (d.nanos.toNat : Rat) ≤ 999_999_999 := by
    exact_mod_cast Nat.le_of_lt_succ d.nanos_lt
  have hplaces := rounded_of_places (n := 1_073_741_823) (k := -30) (by omega) (by omega)
  calc d.fraction ≤ rounded ((1_073_741_823 : Nat) * (2 : Rat) ^ (-30 : Int)) := by
        apply rounded_mono (by positivity)
        norm_num
        linarith
    _ = (1_073_741_823 : Nat) * (2 : Rat) ^ (-30 : Int) := hplaces
    _ < 1 := by norm_num

theorem toRat_toSeconds (d : Duration) :
    d.toSeconds.isFinite = true ∧
      d.toSeconds.toRat = rounded (rounded d.secs.toNat + d.fraction) := by
  have hlt := d.nanos_lt
  have hnanos : (Binary64.ofNat d.nanos.toNat).toRat = d.nanos.toNat := by
    rw [toRat_ofNat_eq_rounded (by omega), rounded_natCast (by omega)]
  have hquotient : (d.nanos.toNat : Rat) / 1_000_000_000 ≤ (2 : Rat) ^ ((0 : Nat) : Int) := by
    rw [div_le_iff₀ (by norm_num)]
    norm_num
    exact hlt.le
  have hfraction : (ofRat ((d.nanos.toNat : Rat) / 1_000_000_000)).toRat = d.fraction :=
    toRat_ofRat_eq_rounded (by positivity) hquotient (by omega)
  have hnonneg : 0 ≤ rounded d.secs.toNat + d.fraction :=
    add_nonneg (rounded_nonneg (Nat.cast_nonneg _)) d.fraction_nonneg
  have hsum : rounded d.secs.toNat + d.fraction ≤ (2 : Rat) ^ ((67 : Nat) : Int) := by
    have hsecs := magnitude_ofNat_le d.secs.toNat_lt
    rw [← toRat_ofNat, toRat_ofNat_eq_rounded d.secs.toNat_lt] at hsecs
    have hone := d.fraction_lt_one
    norm_num at hsecs ⊢
    linarith
  rw [toSeconds, hnanos, hfraction, toRat_ofNat_eq_rounded d.secs.toNat_lt]
  refine ⟨?_, toRat_ofRat_eq_rounded hnonneg hsum (by omega)⟩
  rw [ofRat_of_nonneg hnonneg]
  exact isFinite_ofMagnitude hnonneg hsum (by omega)

theorem toRat_toSeconds_nonneg (d : Duration) : 0 ≤ d.toSeconds.toRat := by
  rw [(toRat_toSeconds d).2]
  exact rounded_nonneg (add_nonneg (rounded_nonneg (Nat.cast_nonneg _)) d.fraction_nonneg)

/-- From 2^53 on less than one that is added is lost. -/
theorem rounded_add_of_large {s : Nat} {f : Rat} (hs : 9_007_199_254_740_992 ≤ s)
    (hlt : s < 18_446_744_073_709_551_616) (hf : 0 ≤ f) (hone : f < 1) :
    rounded (rounded s + f) = rounded s := by
  let z := Binary64.ofNat s
  have hz : rounded s = (z.significand : Int) * (2 : Rat) ^ z.exponent := by
    rw [← toRat_ofNat_eq_rounded hlt, toRat_ofNat]
    rfl
  have hlarge : (9_007_199_254_740_992 : Rat) ≤ rounded s := by
    have hmono := rounded_mono (x := (9_007_199_254_740_992 : Nat)) (y := s) (by positivity)
      (by exact_mod_cast hs)
    rwa [rounded_natCast le_rfl] at hmono
  have hplaces : (z.significand : Rat) + 1 ≤ 9_007_199_254_740_992 := by
    exact_mod_cast Nat.succ_le_of_lt z.significand_lt
  have hpower : (0 : Rat) < (2 : Rat) ^ z.exponent := by positivity
  have hstep : 1 ≤ (2 : Rat) ^ z.exponent := by
    by_contra hbelow
    rw [hz] at hlarge
    push_cast at hlarge
    nlinarith
  have hgrid : 1 ≤ gridExponent (rounded s + f) := by
    have hlog : 53 ≤ floorLog2 (rounded s + f) := by
      apply le_floorLog2
      norm_num
      linarith
    unfold gridExponent
    omega
  apply rounded_add hz
  · apply gridExponent_le (by linarith) z.le_exponent
    calc rounded s + f < (z.significand + 1) * (2 : Rat) ^ z.exponent := by
          rw [hz]
          push_cast
          linarith
      _ ≤ 9_007_199_254_740_992 * (2 : Rat) ^ z.exponent := by gcongr
      _ = (2 : Rat) ^ (z.exponent + 53) := by
        rw [zpow_add₀ (by norm_num), mul_comm]
        norm_num
  · exact hf
  · calc 2 * f < (2 : Rat) ^ (1 : Int) := by
          norm_num
          exact hone
      _ ≤ (2 : Rat) ^ gridExponent (rounded s + f) := zpow_le_zpow_right₀ (by norm_num) hgrid

theorem toSeconds_mono (h : d₁.totalNanos ≤ d₂.totalNanos) :
    d₁.toSeconds.toRat ≤ d₂.toSeconds.toRat := by
  rw [(toRat_toSeconds d₁).2, (toRat_toSeconds d₂).2]
  have hcases : d₁.secs.toNat = d₂.secs.toNat ∧ d₁.nanos.toNat ≤ d₂.nanos.toNat ∨
      d₁.secs.toNat + 1 ≤ d₂.secs.toNat := by
    have hnanos := d₂.nanos_lt
    unfold totalNanos at h
    omega
  have hwhole₁ : 0 ≤ rounded d₁.secs.toNat := rounded_nonneg (Nat.cast_nonneg _)
  have hwhole₂ : 0 ≤ rounded d₂.secs.toNat := rounded_nonneg (Nat.cast_nonneg _)
  have hfraction₁ := d₁.fraction_nonneg
  have hfraction₂ := d₂.fraction_nonneg
  rcases hcases with ⟨hsecs, hnanos⟩ | hnext
  · apply rounded_mono (by linarith)
    rw [hsecs]
    unfold fraction
    gcongr
    apply rounded_mono (by positivity)
    gcongr
  · by_cases hsmall : d₁.secs.toNat < 9_007_199_254_740_992
    · -- the next second is a number of the format
      have hreach : ((d₁.secs.toNat + 1 : Nat) : Rat) ≤ rounded d₂.secs.toNat := by
        rw [← rounded_natCast hsmall]
        apply rounded_mono (by positivity)
        exact_mod_cast hnext
      apply rounded_mono (by linarith)
      rw [rounded_natCast hsmall.le]
      have hone := d₁.fraction_lt_one
      push_cast at hreach
      linarith
    · rw [rounded_add_of_large (not_lt.mp hsmall) d₁.secs.toNat_lt hfraction₁ d₁.fraction_lt_one]
      calc rounded d₁.secs.toNat ≤ rounded d₂.secs.toNat := by
            apply rounded_mono (by positivity)
            exact_mod_cast (Nat.le_succ _).trans hnext
        _ = rounded (rounded d₂.secs.toNat) := (rounded_rounded (by positivity)).symm
        _ ≤ rounded (rounded d₂.secs.toNat + d₂.fraction) := by
            apply rounded_mono hwhole₂
            linarith

/-- A millisecond and more does not vanish in seconds. -/
theorem le_toSeconds (hd : 1_000_000 ≤ d.totalNanos) :
    (2 : Rat) ^ (-11 : Int) ≤ d.toSeconds.magnitude := by
  have hmillisecond : (2 : Rat) ^ (-11 : Int) ≤ (ofMillis 1).toSeconds.toRat := by decide +kernel
  have hmono : (ofMillis 1).toSeconds.toRat ≤ d.toSeconds.toRat := toSeconds_mono hd
  have hreach := hmillisecond.trans hmono
  rwa [magnitude_of_toRat_nonneg (le_trans (by positivity) hreach)]

end Duration

end InterruptStress
