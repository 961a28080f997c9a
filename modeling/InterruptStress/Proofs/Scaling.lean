import InterruptStress.Interval
import InterruptStress.Proofs.Duration

/-!
# Scaling keeps order

A longer base and a larger factor give a longer interval, and where they give one at all, shorter
and smaller ones do (`scaledInterval_mono`).  The interval is the nanosecond nearest to the product
of the two, and there is one exactly where the product is a finite number, not below zero, whose
nearest nanosecond fits a span (`exists_scaledInterval_iff`).
-/

namespace InterruptStress

open Binary64

theorem mapError_eq_ok {ε ε' α : Type} {f : ε → ε'} {x : Except ε α} {a : α} :
    x.mapError f = .ok a ↔ x = .ok a := by
  cases x <;> simp [Except.mapError]

variable {base : Duration} {factor : Binary64}

/-! ## The nearest nanosecond -/

theorem scaledInterval_eq_ok_iff {d : Duration} :
    scaledInterval base factor = .ok d ↔
      (base.toSeconds.mul factor).isFinite = true ∧ 0 ≤ (base.toSeconds.mul factor).toRat ∧
        IsNearest ((base.toSeconds.mul factor).toRat * 1_000_000_000) d.totalNanos := by
  rw [scaledInterval, mapError_eq_ok, Duration.ofSeconds_eq_ok_iff]

/-- Neither a number that is not finite nor one below zero is an interval, and no number whose
nearest nanosecond does not fit. -/
theorem exists_scaledInterval_iff (base : Duration) (factor : Binary64) :
    (∃ d, scaledInterval base factor = .ok d) ↔
      (base.toSeconds.mul factor).isFinite = true ∧ 0 ≤ (base.toSeconds.mul factor).toRat ∧
        ∃ n : Nat, n < 18_446_744_073_709_551_616 * 1_000_000_000 ∧
          IsNearest ((base.toSeconds.mul factor).toRat * 1_000_000_000) n := by
  constructor
  · rintro ⟨d, hd⟩
    obtain ⟨hfinite, hnonneg, hnearest⟩ := scaledInterval_eq_ok_iff.mp hd
    exact ⟨hfinite, hnonneg, d.totalNanos, d.totalNanos_lt, hnearest⟩
  · rintro ⟨hfinite, hnonneg, n, hfits, hnearest⟩
    refine ⟨.ofNanos n, scaledInterval_eq_ok_iff.mpr ⟨hfinite, hnonneg, ?_⟩⟩
    rwa [Duration.totalNanos_ofNanos hfits]

/-! ## Order -/

theorem scaledInterval_mono {base₁ base₂ d₂ : Duration} {factor₁ factor₂ : Binary64}
    (hbase : base₁.totalNanos ≤ base₂.totalNanos) (hfinite : factor₁.isFinite = true)
    (hnonneg : 0 ≤ factor₁.toRat) (hfactor : factor₁.toRat ≤ factor₂.toRat)
    (h : scaledInterval base₂ factor₂ = .ok d₂) :
    ∃ d₁, scaledInterval base₁ factor₁ = .ok d₁ ∧ d₁.totalNanos ≤ d₂.totalNanos := by
  obtain ⟨hproduct, -, hnearest₂⟩ := scaledInterval_eq_ok_iff.mp h
  have hseconds : base₁.toSeconds.isFinite = true := (Duration.toRat_toSeconds base₁).1
  obtain ⟨hfinite₁, hnonneg₁, hle⟩ := mul_mono hseconds hfinite (Duration.toRat_toSeconds_nonneg _)
    hnonneg (Duration.toSeconds_mono hbase) hfactor hproduct
  have hscaled : (base₁.toSeconds.mul factor₁).toRat * 1_000_000_000 ≤
      (base₂.toSeconds.mul factor₂).toRat * 1_000_000_000 :=
    mul_le_mul_of_nonneg_right hle (by norm_num)
  obtain ⟨n, hnanos, hnearest₁⟩ :=
    exists_isNearest_le (mul_nonneg hnonneg₁ (by norm_num)) hscaled hnearest₂
  have hfits := hnanos.trans_lt d₂.totalNanos_lt
  refine ⟨.ofNanos n, scaledInterval_eq_ok_iff.mpr ⟨hfinite₁, hnonneg₁, ?_⟩, ?_⟩
  · rwa [Duration.totalNanos_ofNanos hfits]
  · rwa [Duration.totalNanos_ofNanos hfits]

/-- A longer base and a larger factor give no shorter interval, and none where shorter and smaller
ones give none.  An interval comes only from a finite product that is not below zero and whose
nearest nanosecond fits, and it is that nanosecond. -/
theorem scaledInterval_mono_and_nearest :
    (∀ (base₁ base₂ d₂ : Duration) (factor₁ factor₂ : Binary64),
      base₁.totalNanos ≤ base₂.totalNanos → factor₁.isFinite = true → factor₂.isFinite = true →
      0 ≤ factor₁.toRat → factor₁.toRat ≤ factor₂.toRat →
      scaledInterval base₂ factor₂ = .ok d₂ →
        ∃ d₁, scaledInterval base₁ factor₁ = .ok d₁ ∧ d₁.totalNanos ≤ d₂.totalNanos) ∧
    (∀ (base : Duration) (factor : Binary64),
      (∃ d, scaledInterval base factor = .ok d) ↔
        (base.toSeconds.mul factor).isFinite = true ∧ 0 ≤ (base.toSeconds.mul factor).toRat ∧
          ∃ n : Nat, n < 18_446_744_073_709_551_616 * 1_000_000_000 ∧
            IsNearest ((base.toSeconds.mul factor).toRat * 1_000_000_000) n) ∧
    ∀ (base d : Duration) (factor : Binary64), scaledInterval base factor = .ok d →
      IsNearest ((base.toSeconds.mul factor).toRat * 1_000_000_000) d.totalNanos := by
  refine ⟨?_, exists_scaledInterval_iff, ?_⟩
  · intro base₁ base₂ d₂ factor₁ factor₂ hbase hfinite _ hnonneg hfactor h
    exact scaledInterval_mono hbase hfinite hnonneg hfactor h
  · intro base d factor h
    exact (scaledInterval_eq_ok_iff.mp h).2.2

/-- Twenty seconds, and four milliseconds more scaled by two and a half. -/
theorem scaledInterval_mono_and_nearest_longer :
    scaledInterval (.ofMillis 20_004) ⟨0x4004000000000000⟩ = .ok (.ofMillis 50_010) ∧
      ∃ d₁, scaledInterval (.ofMillis 20_000) (.ofNat 1) = .ok d₁ ∧
        d₁.totalNanos ≤ (Duration.ofMillis 50_010).totalNanos := by
  have hlonger : scaledInterval (.ofMillis 20_004) ⟨0x4004000000000000⟩ =
      .ok (.ofMillis 50_010) := by decide +kernel
  refine ⟨hlonger, scaledInterval_mono_and_nearest.1 _ _ _ _ _ ?_ ?_ ?_ ?_ ?_ hlonger⟩ <;>
    decide +kernel

end InterruptStress
