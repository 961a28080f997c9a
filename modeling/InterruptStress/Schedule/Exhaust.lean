/-!
# Running to rest

A schedule turns what may happen into what does happen: it names one next state, until there is
none.  The bound only guards against schedules that never come to rest.
-/

namespace InterruptStress

/-- Repeats a step until it no longer applies, but not more often than the bound says. -/
def exhaust {σ : Type} (step : σ → Option σ) : Nat → σ → σ
  | 0, s => s
  | bound + 1, s =>
    match step s with
    | none => s
    | some s' => exhaust step bound s'

/-- Repeats a step until a state has what is looked for, and gives that state, or where it came
to rest without. -/
def exhaustUntil {σ : Type} (found : σ → Bool) (step : σ → Option σ) : Nat → σ → σ :=
  exhaust fun s => if found s then none else step s

/-- How many steps a schedule may take. -/
def patience : Nat := 4000000

section
variable {σ : Type} {step : σ → Option σ}

/-- What every step keeps, a run keeps. -/
theorem exhaust_induction {P : σ → Prop} (hstep : ∀ s s', P s → step s = some s' → P s')
    (bound : Nat) {s : σ} (h : P s) : P (exhaust step bound s) := by
  induction bound generalizing s with
  | zero => exact h
  | succ bound ih =>
    rw [exhaust]
    split
    · exact h
    · next s' hs => exact ih (hstep s s' h hs)

end

end InterruptStress
