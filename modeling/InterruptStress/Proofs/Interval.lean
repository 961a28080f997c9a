import InterruptStress.Config
import InterruptStress.Proofs.Scaling
import Mathlib.Tactic.NormNum

/-!
# The interval of a configuration that is not refused

A configuration that passes the check gives every mode one and the same interval: the nanoseconds
nearest to the product of base and factor (`Config.interval_of_validate`).  The check looks at
base and factor each for itself, so the interval may be empty: it is exactly where the product is
half a nanosecond at most.  A base is a millisecond at least, so no factor of two millionths or
more makes it so.
-/

namespace InterruptStress

open Binary64

/-! ## The check -/

/-- The product of base and factor, in seconds. -/
def WatchdogConfig.seconds (w : WatchdogConfig) : Binary64 :=
  (Duration.ofMillis w.baseIntervalMs).toSeconds.mul w.timeoutFactor

namespace Config

variable {config : Config}

/-- What the check has seen of a configuration that it lets pass. -/
theorem interval_ok_of_validate (h : config.validate = .ok ()) :
    config.run.iterations ≠ 0 ∧ config.watchdog.baseIntervalMs ≠ 0 ∧
      ∃ interval, config.watchdog.interval = .ok interval := by
  unfold validate at h
  simp only at h
  split at h
  · cases h
  · next hiterations =>
    split at h
    · cases h
    · split at h
      · cases h
      · next hbase =>
        split at h
        · cases h
        · next interval hinterval => exact ⟨hiterations, hbase, interval, hinterval⟩

/-- The settings of every mode.  The equation has no arguments on its left, so that the match is
compared as it stands: an interval that is evaluated for it does not come to an end. -/
theorem controller_eq : controller = fun config mode =>
    match config.watchdog.interval with
    | .error e => .error e
    | .ok interval =>
      .ok ⟨mode, interval, config.run.suspend, .ofMillis config.run.interruptPauseMs,
        defaultExitGrace⟩ := rfl

theorem controller_of_interval {interval : Duration} (h : config.watchdog.interval = .ok interval)
    (mode : Mode) :
    config.controller mode =
      .ok ⟨mode, interval, config.run.suspend, .ofMillis config.run.interruptPauseMs,
        defaultExitGrace⟩ := by
  rw [controller_eq]
  simp only [h]

theorem interval_eq_of_ok {w : WatchdogConfig} {interval : Duration}
    (h : w.interval = .ok interval) : Duration.ofSeconds w.seconds = .ok interval := by
  rw [WatchdogConfig.interval, scaledInterval, mapError_eq_ok] at h
  rw [WatchdogConfig.seconds, h]

/-- The product of a base that is not refused and a factor of two millionths or more is more than
half a nanosecond. -/
theorem half_lt_seconds {w : WatchdogConfig} (hbase : w.baseIntervalMs ≠ 0)
    (hfinite : w.seconds.isFinite = true) (hfactor : 1 / 500_000 ≤ w.timeoutFactor.toRat) :
    1 / 2 < w.seconds.magnitude * 1_000_000_000 := by
  have hmillis : 1_000_000 ≤ (Duration.ofMillis w.baseIntervalMs).totalNanos := by
    have hword := w.baseIntervalMs.toNat_lt
    have hpos : w.baseIntervalMs.toNat ≠ 0 := fun h => hbase (UInt64.toNat_inj.mp h)
    rw [Duration.ofMillis, Duration.totalNanos_ofNanos (by omega)]
    omega
  have hmagnitude : (2 : Rat) ^ (-19 : Int) ≤ w.timeoutFactor.magnitude := by
    have hle : w.timeoutFactor.toRat ≤ w.timeoutFactor.magnitude := by
      have hnonneg := magnitude_nonneg w.timeoutFactor
      rw [toRat]
      split <;> linarith
    norm_num at hfactor ⊢
    linarith
  have hproduct : (2 : Rat) ^ (-30 : Int) ≤ w.seconds.magnitude := by
    obtain ⟨hx, hy⟩ := isFinite_of_isFinite_mul hfinite
    rw [WatchdogConfig.seconds, mul_of_isFinite hx hy] at hfinite ⊢
    refine zpow_le_magnitude_ofMagnitude (by norm_num) ?_ hfinite
    calc (2 : Rat) ^ (-30 : Int) = (2 : Rat) ^ (-11 : Int) * (2 : Rat) ^ (-19 : Int) := by norm_num
      _ ≤ _ := mul_le_mul (Duration.le_toSeconds hmillis) hmagnitude (by positivity)
        (magnitude_nonneg _)
  norm_num at hproduct ⊢
  linarith

/-- A configuration that is not refused runs at least once, and every mode gets one and the same
interval.  It is empty exactly where the product of base and factor rounds to nothing, which no
factor of two millionths or more does. -/
theorem interval_of_validate (config : Config) (hvalid : config.validate = .ok ()) :
    1 ≤ config.run.iterations ∧
      ∃ interval,
        (∀ mode, config.controller mode =
          .ok ⟨mode, interval, config.run.suspend, .ofMillis config.run.interruptPauseMs,
            defaultExitGrace⟩) ∧
        interval.totalNanos =
          (roundHalfEven (config.watchdog.seconds.magnitude * 1_000_000_000)).toNat ∧
        (0 < interval.totalNanos ↔
          1 / 2 < config.watchdog.seconds.magnitude * 1_000_000_000) ∧
        (1 / 500_000 ≤ config.watchdog.timeoutFactor.toRat → 0 < interval.totalNanos) := by
  obtain ⟨hiterations, hbase, interval, hinterval⟩ := interval_ok_of_validate hvalid
  obtain ⟨hfinite, hnanos⟩ := Duration.totalNanos_of_ofSeconds (interval_eq_of_ok hinterval)
  have hpositive : 0 < interval.totalNanos ↔
      1 / 2 < config.watchdog.seconds.magnitude * 1_000_000_000 := by
    rw [hnanos, Int.pos_iff_toNat_pos.symm, roundHalfEven_pos_iff]
  have hruns : 1 ≤ config.run.iterations := by
    have hne : config.run.iterations.toNat ≠ 0 := fun h => hiterations (UInt32.toNat_inj.mp h)
    rw [UInt32.le_iff_toNat_le]
    exact Nat.one_le_iff_ne_zero.mpr hne
  exact ⟨hruns, interval, controller_of_interval hinterval, hnanos, hpositive,
    fun hfactor => hpositive.mpr (half_lt_seconds hbase hfinite hfactor)⟩

theorem interval_of_validate_default :
    Config.default.validate = .ok () ∧
      ∃ interval, (∀ mode, Config.default.controller mode =
        .ok ⟨mode, interval, .thread, .ofMillis 5, defaultExitGrace⟩) ∧
          0 < interval.totalNanos := by
  have hvalid : Config.default.validate = .ok () := by decide +kernel
  have hfactor : 1 / 500_000 ≤ Config.default.watchdog.timeoutFactor.toRat := by decide +kernel
  obtain ⟨-, interval, hcontroller, -, -, hpositive⟩ := interval_of_validate _ hvalid
  exact ⟨hvalid, interval, hcontroller, hpositive hfactor⟩

/-- A millisecond scaled by 10^-7, each of which passes the check. -/
theorem validate_empty_interval :
    ¬ ∀ config : Config, config.validate = .ok () →
      1 ≤ config.run.iterations ∧ ∀ mode, ∃ settings, config.controller mode = .ok settings ∧
        0 < settings.interval.totalNanos := by
  intro h
  let config := { Config.default with watchdog := ⟨1, ⟨0x3E7AD7F29ABCAF48⟩⟩ }
  have hvalid : config.validate = .ok () := by decide +kernel
  have hempty : config.watchdog.interval = .ok .zero := by decide +kernel
  obtain ⟨settings, hsettings, hpositive⟩ := (h config hvalid).2 .precise
  rw [controller_of_interval hempty, Except.ok.injEq] at hsettings
  rw [← hsettings] at hpositive
  exact absurd hpositive (by decide +kernel)

end Config

end InterruptStress
