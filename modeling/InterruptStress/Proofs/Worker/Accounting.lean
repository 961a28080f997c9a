import InterruptStress.Proofs.Worker.Fault

/-!
# Precise accounting

In precise mode one baton goes round between worker and generator: the generator is about to
send, or an interrupt is pending on the worker's token, or the worker has been interrupted and
has still to acknowledge it, or an acknowledgement waits to be taken.  Exactly one of the four
holds at any time (`Balanced.baton`), so no interrupt is ever collapsed into another one, the
status is clear when the worker reads it, and one interrupt more is sent than is acknowledged.
-/

namespace InterruptStress

/-- The moves of the two threads themselves, nobody else having the worker's token: lines are
taken or refused, sleeps may run to their end, and waits may end for no reason. -/
def LocalMove.isOwn : LocalMove → Bool
  | .report _ | .advance _ | .expire _ | .stir _ => true
  | _ => false

/-! ## The baton -/

/-- The generator will send before it looks for an acknowledgement. -/
def Generator.aboutToSend (g : Generator) : Bool :=
  match g.phase with
  | .entering | .sending => true
  | _ => false

namespace Worker

/-- An interrupt has ended the sleep of this iteration and is still to be acknowledged. -/
def owesAck (w : Worker) : Bool :=
  match w.phase with
  | .reporting .caught | .reading | .reporting .acknowledge | .acknowledging => true
  | _ => false

/-- How many interrupts the worker has acknowledged in precise mode. -/
def acks (w : Worker) : Nat :=
  match w.phase with
  | .reporting .check => w.completed + w.interrupted.toNat
  | _ => w.completed

variable {w : Worker}

@[simp] theorem owesAck_resumeLoop : w.resumeLoop.owesAck = false := by
  simp only [resumeLoop, nextLine]
  split <;> rfl

@[simp] theorem acks_resumeLoop : w.resumeLoop.acks = w.completed := by
  simp only [resumeLoop, nextLine]
  split <;> rfl

@[simp] theorem owesAck_endLoop (failure : Option WorkerError) :
    (w.endLoop failure).owesAck = false := by
  unfold endLoop
  split <;> rfl

@[simp] theorem acks_endLoop (failure : Option WorkerError) :
    (w.endLoop failure).acks = w.completed := by
  unfold endLoop
  split <;> rfl

/-- Taking a line passes no baton, if the worker does not fail with it. -/
theorem afterLine_keeps_baton {line : WorkerLine} (hw : w.phase = .reporting line)
    (hok : line = .check → w.interrupted = true) :
    (w.afterLine line).owesAck = w.owesAck ∧ (w.afterLine line).acks = w.acks := by
  cases line with
  | check =>
    have howes : w.owesAck = false := by simp [owesAck, hw]
    have hacks : w.acks = w.completed + 1 := by simp [acks, hw, hok rfl]
    simp [afterLine, hok rfl, howes, hacks]
  | done =>
    have howes : w.owesAck = false := by simp [owesAck, hw]
    have hacks : w.acks = w.completed := by simp [acks, hw]
    simp [afterLine, howes, hacks]
  | _ => simp [afterLine, owesAck, acks, hw]

end Worker

/-- The accounts of a worker and its generator. -/
structure Balanced (w : Worker) (g : Generator) (pending acked : Bool) : Prop where
  baton : g.aboutToSend.toNat + pending.toNat + w.owesAck.toNat + acked.toNat = 1
  count : g.sent + g.aboutToSend.toNat + acked.toNat = w.acks + 1
  /-- A generator ends only after it has taken every acknowledgement. -/
  settled : g.result?.isSome = true → acked = false

namespace Balanced

variable {w w' : Worker} {g g' : Generator} {pending acked : Bool}

/-- A worker that passes no baton. -/
theorem frame (h : Balanced w g pending acked)
    (hw : w'.owesAck = w.owesAck ∧ w'.acks = w.acks) : Balanced w' g pending acked where
  baton := hw.1 ▸ h.baton
  count := hw.2 ▸ h.count
  settled := h.settled

/-- A generator that passes no baton. -/
theorem frame_generator (h : Balanced w g pending acked)
    (hg : g'.aboutToSend = g.aboutToSend ∧ g'.sent = g.sent)
    (hr : g'.result?.isSome = true → acked = false) : Balanced w g' pending acked where
  baton := hg.1 ▸ h.baton
  count := by rw [hg.1, hg.2]; exact h.count
  settled := hr

end Balanced

namespace LocalRun

/-- The accounts are balanced, unless the worker has failed.  Before its generator is started
nothing is pending. -/
def InBalance (s : LocalRun) : Prop :=
  match s.generator with
  | none => s.token.pending = false
  | some g =>
    s.worker.failure? = none → Balanced s.worker g s.token.pending s.rendezvous.acked

variable {s s' : LocalRun} {m : LocalMove}

theorem InBalance.balanced (h : s.InBalance) {g : Generator} (hg : s.generator = some g)
    (hnone : s.worker.failure? = none) :
    Balanced s.worker g s.token.pending s.rendezvous.acked := by
  unfold InBalance at h
  rw [hg] at h
  exact h hnone

theorem inBalance_of {g : Generator} (hg : s.generator = some g)
    (h : s.worker.failure? = none → Balanced s.worker g s.token.pending s.rendezvous.acked) :
    s.InBalance := by
  unfold InBalance
  rwa [hg]

/-- A move of the worker alone that passes no baton. -/
theorem InBalance.frame (h : s.InBalance) (ho : s.InOrder) (hw : s.worker.phase ≠ .starting)
    (hnone : s.worker.failure? = none)
    (hsame : s'.generator = s.generator ∧ s'.token.pending = s.token.pending ∧
      s'.rendezvous.acked = s.rendezvous.acked)
    (hw' : s'.worker.owesAck = s.worker.owesAck ∧ s'.worker.acks = s.worker.acks) :
    s'.InBalance := by
  obtain ⟨g, hg⟩ := ho.exists_generator hw
  refine inBalance_of (hsame.1.trans hg) fun _ => ?_
  rw [hsame.2.1, hsame.2.2]
  exact (h.balanced hg hnone).frame hw'

/-- A worker that fails keeps no accounts. -/
theorem inBalance_of_failed (hg : s.generator ≠ none) {e : WorkerError}
    (he : s.worker.failure? = some e) : s.InBalance := by
  obtain ⟨g, hg⟩ := Option.ne_none_iff_exists'.mp hg
  exact inBalance_of hg fun hnone => by simp [he] at hnone

/-- Every move of the two threads keeps the accounts balanced. -/
theorem inBalance_transition (h : s.InBalance) (ho : s.InOrder) (hc : s.worker.OnCourse)
    (hmode : s.mode = .precise) (ht : s.Transition m s') (hm : m.isOwn = true) :
    s'.InBalance := by
  have hgenerator (hw : s.worker.phase ≠ .starting) : s.generator ≠ none := fun hg =>
    hw (ho.starting hg).1
  have hnever {g : Generator} (hg : s.generator = some g) :
      g.phase = .pausing ∨ g.phase = .asleep → False :=
    (ho.coordinated hg).never_pauses ((ho.coordinated hg).strategy.trans hmode)
  cases ht with
  | start hw =>
    have hg := ho.unstarted hw
    have hclear : s.token.pending = false := by
      unfold InBalance at h
      rwa [hg] at h
    have hacked : s.rendezvous.acked = false := by rw [(ho.starting hg).2.2.1]; rfl
    have hzero := (hc.starting hw).1
    refine inBalance_of rfl fun _ => ⟨?_, ?_, fun _ => hacked⟩
    · simp [Generator.start, hmode, Generator.aboutToSend, hclear, hacked]
    · simp [Generator.start, hmode, Generator.aboutToSend, hzero, hacked]
  | failStart => cases hm
  | takeLine line hw =>
    by_cases hok : line = .check → s.worker.interrupted = true
    · exact h.frame ho (by simp [hw]) (by simp [Worker.failure?, hw]) ⟨rfl, rfl, rfl⟩
        (Worker.afterLine_keeps_baton hw hok)
    · obtain ⟨rfl, hcaught⟩ := Classical.not_imp.mp hok
      exact inBalance_of_failed (hgenerator (by simp [hw]))
        (Worker.failure?_afterLine_check (eq_false_of_ne_true hcaught))
  | refuseLine line hw =>
    exact inBalance_of_failed (hgenerator (by simp [hw])) (Worker.failure?_endLoop _)
  | doze hw hclear =>
    exact h.frame ho (by simp [hw]) (by simp [Worker.failure?, hw]) ⟨rfl, by simp [hclear], rfl⟩
      (by simp [Worker.owesAck, Worker.acks, hw])
  | dozeOn hw hclear =>
    exact h.frame ho (by simp [hw]) (by simp [Worker.failure?, hw]) ⟨rfl, by simp [hclear], rfl⟩
      ⟨rfl, rfl⟩
  | wake _ _ hw hset expired =>
    -- the baton goes from the token to the worker
    have hstarted : s.worker.phase ≠ .starting := by rcases hw with hw | hw <;> simp [hw]
    have hnone : s.worker.failure? = none := by
      rcases hw with hw | hw <;> simp [Worker.failure?, hw]
    have howes : s.worker.owesAck = false ∧ s.worker.acks = s.worker.completed := by
      rcases hw with hw | hw <;> simp [Worker.owesAck, Worker.acks, hw]
    obtain ⟨g, hg⟩ := ho.exists_generator hstarted
    obtain ⟨hbaton, hcount, hsettled⟩ := h.balanced hg hnone
    rw [hset, howes.1] at hbaton
    rw [howes.2] at hcount
    refine inBalance_of hg fun _ => ⟨?_, ?_, hsettled⟩
    · simpa [Worker.owesAck] using hbaton
    · simpa [Worker.acks] using hcount
  | oversleep hw hclear =>
    have hcaught := (hc.asleep hw).2.2
    refine h.frame ho (by rcases hw with hw | hw <;> simp [hw])
      (by rcases hw with hw | hw <;> simp [Worker.failure?, hw]) ⟨rfl, by simp [hclear], rfl⟩ ?_
    rcases hw with hw | hw <;> simp [Worker.owesAck, Worker.acks, hw, hcaught]
  | endSleep => cases hm
  | read _ told hread hw w hs =>
    rcases Worker.step_read hw hs with ⟨-, -, rfl⟩ | ⟨-, -, rfl⟩ | ⟨hne, -⟩
    · exact inBalance_of_failed (hgenerator (by simp [hw])) (Worker.failure?_endLoop _)
    · exact h.frame ho (by simp [hw]) (by simp [Worker.failure?, hw]) ⟨rfl, rfl, rfl⟩
        (by simp [Worker.owesAck, Worker.acks, hw])
    · exact absurd hmode hne
  | acknowledge hw =>
    -- the baton goes from the worker to the rendezvous
    obtain ⟨g, hg⟩ := ho.exists_generator (by simp [hw])
    have hcoord := ho.coordinated hg
    have hgoing : g.result?.isSome = false := eq_false_of_ne_true fun hdone => by
      have hstopped := hcoord.stopped.mpr (.inr hdone)
      simp [Worker.hasStopped, hw] at hstopped
    have hcaught := (hc.awake (.inr hw)).2.2
    obtain ⟨hbaton, hcount, -⟩ := h.balanced hg (by simp [Worker.failure?, hw])
    have howes : s.worker.owesAck = true ∧ s.worker.acks = s.worker.completed := by
      simp [Worker.owesAck, Worker.acks, hw]
    rw [howes.1, Bool.toNat_true] at hbaton
    rw [howes.2] at hcount
    refine inBalance_of hg fun _ => ⟨?_, ?_, by simp [hgoing]⟩
    · simp only [Worker.owesAck, Bool.toNat_true, Bool.toNat_false]
      omega
    · simp only [Worker.acks, hcaught, Bool.toNat_true]
      omega
  | failAcknowledge hw =>
    exact inBalance_of_failed (hgenerator (by simp [hw])) (Worker.failure?_endLoop _)
  | stop failure hw r hr =>
    obtain ⟨g, hg⟩ := ho.exists_generator (by simp [hw])
    have hacked : r.acked = s.rendezvous.acked := by
      rcases hr with ⟨-, -, -, rfl⟩ | ⟨-, rfl⟩ <;> rfl
    refine inBalance_of hg fun hnone => ?_
    have hb := h.balanced hg (by simpa [Worker.failure?, hw] using hnone)
    rw [hacked]
    exact hb.frame (by simp [Worker.owesAck, Worker.acks, hw])
  | failStop failure hw =>
    exact inBalance_of_failed (hgenerator (by simp [hw])) rfl
  | join failure hw g hg sent hp =>
    refine inBalance_of hg fun hnone => ?_
    have hgood : s.worker.failure? = none := by
      rcases Worker.failure?_conclude (w := s.worker) failure sent with hr | ⟨-, -, -, hr⟩
      · simpa [Worker.failure?, hw] using hr.symm.trans hnone
      · simp [hr] at hnone
    exact (h.balanced hg hgood).frame (by simp [Worker.owesAck, Worker.acks, hw])
  | failJoin failure hw => exact inBalance_of_failed (hgenerator (by simp [hw])) rfl
  | enter g hg hp =>
    refine inBalance_of rfl fun hnone => ?_
    exact (h.balanced hg hnone).frame_generator (by simp [Generator.aboutToSend, hp])
      (by simp [Generator.result?])
  | reenter g hg hp =>
    refine inBalance_of rfl fun hnone => ?_
    exact (h.balanced hg hnone).frame_generator (by simp [Generator.aboutToSend, hp])
      (by simp [Generator.result?])
  | failEnter g hg _ _ hpoisoned => simp [(ho.coordinated hg).sound] at hpoisoned
  | send g hg hp =>
    -- the baton goes from the generator to the token
    have hprecise : g.strategy = .precise := (ho.coordinated hg).strategy.trans hmode
    refine inBalance_of rfl fun hnone => ?_
    obtain ⟨hbaton, hcount, -⟩ := h.balanced hg hnone
    have hsend : g.aboutToSend = true := by simp [Generator.aboutToSend, hp]
    rw [hsend, Bool.toNat_true] at hbaton hcount
    refine ⟨?_, ?_, ?_⟩
    all_goals simp only [Generator.afterSending, if_pos hprecise, Generator.aboutToSend]
    · simp only [Token.pending_interrupt, Bool.toNat_true, Bool.toNat_false]
      omega
    · simp only [Bool.toNat_false]
      omega
    · simp [Generator.result?]
  | seeAck g hg hp hacked =>
    -- the baton goes from the rendezvous to the generator
    refine inBalance_of rfl fun hnone => ?_
    obtain ⟨hbaton, hcount, -⟩ := h.balanced hg hnone
    rw [hacked, Bool.toNat_true] at hbaton hcount
    refine ⟨?_, ?_, by simp [Generator.result?]⟩
    all_goals simp only [Generator.aboutToSend, Bool.toNat_true, Bool.toNat_false]
    · omega
    · omega
  | seeStop g hg hp hacked =>
    refine inBalance_of rfl fun hnone => ?_
    exact (h.balanced hg hnone).frame_generator (by simp [Generator.aboutToSend, hp])
      fun _ => hacked
  | park g hg hp =>
    refine inBalance_of rfl fun hnone => ?_
    exact (h.balanced hg hnone).frame_generator (by simp [Generator.aboutToSend, hp])
      (by simp [Generator.result?])
  | pause g hg hp => exact (hnever hg (.inl hp)).elim
  | pauseOn g hg hp => exact (hnever hg (.inr hp)).elim
  | breakPause _ _ g _ hg hp => exact (hnever hg hp).elim
  | pauseOver g hg hp => exact (hnever hg hp).elim
  | stirWorker hw =>
    exact h.frame ho (by simp [hw]) (by simp [Worker.failure?, hw]) ⟨rfl, rfl, rfl⟩ ⟨rfl, rfl⟩
  | stirPause g hg hp => exact (hnever hg (.inr hp)).elim
  | stirParked => exact h
  | interrupt => cases hm
  | crash => cases hm

end LocalRun

end InterruptStress
