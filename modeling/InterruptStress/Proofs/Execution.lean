/-!
# Executions

A system is given by its states and by a step that a move either makes or cannot make.  An
execution makes one move after the other; its history keeps every move together with the state
it was made in, the latest first.  Whatever happened on the way to a state is a statement about
the history, and so needs no further field of the state.
-/

namespace InterruptStress

/-- The executions of a step from a start: what they did, and the state that they have reached. -/
inductive Execution {σ μ : Type} (step : σ → μ → Option σ) (start : σ) :
    List (σ × μ) → σ → Prop where
  | nil : Execution step start [] start
  | cons {history : List (σ × μ)} {s s' : σ} {m : μ} :
      Execution step start history s → step s m = some s' →
        Execution step start ((s, m) :: history) s'

namespace Execution

variable {σ μ : Type} {step : σ → μ → Option σ} {start s : σ} {history : List (σ × μ)}

/-- What the start has and every admitted move keeps, every execution of admitted moves has. -/
theorem invariant {P : List (σ × μ) → σ → Prop} {admitted : σ × μ → Prop}
    (hrun : Execution step start history s) (hadmitted : ∀ e ∈ history, admitted e)
    (hstart : P [] start)
    (hstep : ∀ history s m s', admitted (s, m) → P history s → step s m = some s' →
      P ((s, m) :: history) s') :
    P history s := by
  induction hrun with
  | nil => exact hstart
  | cons _ hs ih =>
    obtain ⟨hm, hrest⟩ := List.forall_mem_cons.mp hadmitted
    exact hstep _ _ _ _ hm (ih hrest) hs

/-- Every move of an execution ends one execution and begins another. -/
theorem split {later earlier : List (σ × μ)} {before : σ} {m : μ}
    (hrun : Execution step start (later ++ (before, m) :: earlier) s) :
    ∃ after, Execution step start earlier before ∧ step before m = some after ∧
      Execution step after later s := by
  induction later generalizing s with
  | nil => cases hrun with | cons hearlier hs => exact ⟨s, hearlier, hs, .nil⟩
  | cons e later ih =>
    cases hrun with
    | cons hrun hs =>
      obtain ⟨after, hearlier, hmove, hlater⟩ := ih hrun
      exact ⟨after, hearlier, hmove, hlater.cons hs⟩

/-- An execution goes on from where another has ended. -/
theorem append {later earlier : List (σ × μ)} {middle : σ}
    (hearlier : Execution step start earlier middle) (hlater : Execution step middle later s) :
    Execution step start (later ++ earlier) s := by
  induction hlater with
  | nil => exact hearlier
  | cons _ hs ih => exact ih.cons hs

/-- A move between two executions makes them one. -/
theorem join {later earlier : List (σ × μ)} {before after : σ} {m : μ}
    (hearlier : Execution step start earlier before) (hmove : step before m = some after)
    (hlater : Execution step after later s) :
    Execution step start (later ++ (before, m) :: earlier) s :=
  (hearlier.cons hmove).append hlater

/-- Executions that make the same moves are the same. -/
theorem unique {history' : List (σ × μ)} {s' : σ} (hrun : Execution step start history s)
    (hrun' : Execution step start history' s')
    (hmoves : history'.map Prod.snd = history.map Prod.snd) : history' = history ∧ s' = s := by
  induction hrun generalizing history' s' with
  | nil =>
    cases hrun' with
    | nil => exact ⟨rfl, rfl⟩
    | cons => cases hmoves
  | @cons history s after m _ hs ih =>
    cases hrun' with
    | nil => cases hmoves
    | cons hrun' hs' =>
      obtain ⟨rfl, hrest⟩ := List.cons.inj hmoves
      obtain ⟨rfl, rfl⟩ := ih hrun' hrest
      exact ⟨rfl, Option.some.inj (hs'.symm.trans hs)⟩

/-- How many moves of some kind a history has. -/
theorem countP_history_cons (p : μ → Bool) (s : σ) (m : μ) (history : List (σ × μ)) :
    ((s, m) :: history).countP (fun e => p e.2) =
      history.countP (fun e => p e.2) + (p m).toNat := by
  rw [List.countP_cons]
  cases p m <;> rfl

/-- Makes moves one after the other, if each of them can be made. -/
def replay (step : σ → μ → Option σ) : List (σ × μ) → σ → List μ → Option (List (σ × μ) × σ)
  | history, s, [] => some (history, s)
  | history, s, m :: moves => (step s m).bind fun s' => replay step ((s, m) :: history) s' moves

/-- What has been replayed is an execution. -/
theorem of_replay (hrun : Execution step start history s) (moves : List μ)
    {history' : List (σ × μ)} {s' : σ} (h : replay step history s moves = some (history', s')) :
    Execution step start history' s' := by
  induction moves generalizing history s with
  | nil =>
    obtain ⟨rfl, rfl⟩ : history = history' ∧ s = s' := by simpa [replay] using h
    exact hrun
  | cons m moves ih =>
    obtain ⟨s₁, hs, hrest⟩ := Option.bind_eq_some_iff.mp h
    exact ih (hrun.cons hs) hrest

end Execution

end InterruptStress
