import InterruptStress.Duration
import InterruptStress.Proofs.Execution
import InterruptStress.Proofs.Worker.Transition

/-!
# A token that many threads use

Any number of threads may interrupt one token, clear it, read it and sleep on it, in any order
(`SharedToken.act`).  Each move is what one thread does under the token's lock, so the lock is free
in every state; a sleeper that waits is notified by an interrupt, wakes up for no reason, or finds
that its timer has run off.  Time passes between the moves and, since a sleep takes its start from
the clock before it looks at it, within the first look of a sleep.

No interrupt is lost and none is invented (`SharedToken.interrupts_of_run`): an interrupt that found
the flag clear is used up by exactly one sleep or one clearing, or is still pending.  A sleep that
ran to its end did so in its own time, and while the flag is set every sleeper has been notified.
-/

namespace InterruptStress

namespace Token

variable {t : Token} {sleeper other : Nat}

theorem isWaiting_filter (h : other ≠ sleeper) :
    (t.waiters.filter (· != sleeper)).contains other = t.isWaiting other := by
  simp [isWaiting, h]

/-- What a sleeper finds is nothing to the others. -/
theorem isWaiting_look_of_ne (h : other ≠ sleeper) (expired : Bool) :
    (t.look sleeper expired).2.isWaiting other = t.isWaiting other := by
  rw [← isWaiting_filter h]
  cases hset : t.pending <;> cases expired <;> simp [look, isWaiting, hset, h]

theorem isWaiting_stir_of_ne (h : other ≠ sleeper) :
    (t.stir sleeper).isWaiting other = t.isWaiting other :=
  isWaiting_filter h

end Token

/-- A sleep that has begun. -/
structure Nap where
  /-- When it began, in nanoseconds. -/
  since : Nat
  span : Duration

namespace Nap

/-- The timer of its wait has run off. -/
def isDue (nap : Nap) (now : Nat) : Bool := decide (nap.since + nap.span.totalNanos ≤ now)

/-- More time has passed than it was to last. -/
def isOver (nap : Nap) (now : Nat) : Bool := decide (nap.since + nap.span.totalNanos < now)

end Nap

structure SharedToken where
  token : Token
  /-- The time, in nanoseconds. -/
  now : Nat
  /-- The sleep that a thread is in. -/
  naps : Nat → Option Nap

/-- What can happen to a shared token. -/
inductive TokenMove where
  | interrupt (thread : Nat)
  | clear (thread : Nat)
  | read (thread : Nat)
  /-- A thread begins to sleep and looks at the flag; in between some time may pass. -/
  | sleep (thread : Nat) (span : Duration) (delay : Nat)
  /-- A sleeper that was woken looks at the flag. -/
  | wake (thread : Nat)
  /-- A sleeper's wait ends for no reason. -/
  | stir (thread : Nat)
  | pass (nanos : Nat)

/-- What a call returns to its thread. -/
inductive TokenAnswer where
  | done
  | flag (pending : Bool)
  | slept (outcome : SleepOutcome)
deriving DecidableEq

/-- The thread whose sleep a move lets look at the flag. -/
def TokenMove.sleeper? : TokenMove → Option Nat
  | .sleep thread .. | .wake thread => some thread
  | _ => none

namespace SharedToken

/-- A token that nobody has used. -/
def new : SharedToken := ⟨.new, 0, fun _ => none⟩

/-- A thread is in no sleep, and can call. -/
def isFree (s : SharedToken) (thread : Nat) : Bool := (s.naps thread).isNone

/-- Puts a thread into a sleep, or out of it. -/
def withNap (s : SharedToken) (thread : Nat) (nap : Option Nap) : SharedToken :=
  { s with naps := fun other => if other = thread then nap else s.naps other }

/-- A sleeper looks at the flag and at the clock. -/
def look (s : SharedToken) (thread : Nat) (nap : Nap) : Option TokenAnswer × SharedToken :=
  let found := s.token.look thread (nap.isOver s.now)
  (found.1.map .slept,
    { s with token := found.2 }.withNap thread (if found.1.isSome then none else some nap))

/-- What a move returns to its thread, if it returns, and what it makes of a shared token, if it
can happen. -/
def act (s : SharedToken) : TokenMove → Option (Option TokenAnswer × SharedToken)
  | .interrupt thread =>
    if s.isFree thread then some (some .done, { s with token := s.token.interrupt }) else none
  | .clear thread =>
    if s.isFree thread then some (some (.flag s.token.pending), { s with token := s.token.clear })
    else none
  | .read thread =>
    if s.isFree thread then some (some (.flag s.token.pending), s) else none
  | .sleep thread span delay =>
    if s.isFree thread then some ({ s with now := s.now + delay }.look thread ⟨s.now, span⟩)
    else none
  | .wake thread =>
    (s.naps thread).bind fun nap =>
      if s.token.isWaiting thread && !nap.isDue s.now then none else some (s.look thread nap)
  | .stir thread =>
    (s.naps thread).map fun _ => (none, { s with token := s.token.stir thread })
  | .pass nanos => some (none, { s with now := s.now + nanos })

/-- What a move makes of a shared token, if it can happen. -/
def step (s : SharedToken) (m : TokenMove) : Option SharedToken := (s.act m).map Prod.snd

/-- What a move returns to its thread. -/
def returned (e : SharedToken × TokenMove) : Option TokenAnswer := (e.1.act e.2).bind Prod.fst

/-! ## Transitions -/

/-- A move lets a thread look at the flag for a sleep that it is in, or that it begins, when the
clock shows a time. -/
inductive Looks (s : SharedToken) : TokenMove → Nat → Nap → Nat → Prop where
  | first (thread : Nat) (span : Duration) (delay : Nat) (hfree : s.isFree thread = true) :
      Looks s (.sleep thread span delay) thread ⟨s.now, span⟩ (s.now + delay)
  | again (thread : Nat) (nap : Nap) (hnap : s.naps thread = some nap)
      (hwoken : s.token.isWaiting thread = true → nap.isDue s.now = true) :
      Looks s (.wake thread) thread nap s.now

/-- What each move can return and make of a shared token. -/
inductive Transition (s : SharedToken) : TokenMove → Option TokenAnswer → SharedToken → Prop where
  | interrupt (thread : Nat) (hfree : s.isFree thread = true) :
      Transition s (.interrupt thread) (some .done) { s with token := s.token.interrupt }
  | clear (thread : Nat) (hfree : s.isFree thread = true) :
      Transition s (.clear thread) (some (.flag s.token.pending))
        { s with token := s.token.clear }
  | read (thread : Nat) (hfree : s.isFree thread = true) :
      Transition s (.read thread) (some (.flag s.token.pending)) s
  | caught (m : TokenMove) (thread : Nat) (nap : Nap) (time : Nat)
      (hlooks : s.Looks m thread nap time) (hset : s.token.pending = true) :
      Transition s m (some (.slept .interrupted))
        (withNap ⟨(s.token.look thread (nap.isOver time)).2, time, s.naps⟩ thread none)
  | completed (m : TokenMove) (thread : Nat) (nap : Nap) (time : Nat)
      (hlooks : s.Looks m thread nap time) (hclear : s.token.pending = false)
      (hover : nap.isOver time = true) :
      Transition s m (some (.slept .completed))
        (withNap ⟨(s.token.look thread true).2, time, s.naps⟩ thread none)
  | waitOn (m : TokenMove) (thread : Nat) (nap : Nap) (time : Nat)
      (hlooks : s.Looks m thread nap time) (hclear : s.token.pending = false)
      (hearly : nap.isOver time = false) :
      Transition s m none
        (withNap ⟨(s.token.look thread false).2, time, s.naps⟩ thread (some nap))
  | stir (thread : Nat) (nap : Nap) (hnap : s.naps thread = some nap) :
      Transition s (.stir thread) none { s with token := s.token.stir thread }
  | pass (nanos : Nat) : Transition s (.pass nanos) none { s with now := s.now + nanos }

variable {s s' : SharedToken} {m : TokenMove} {answer : Option TokenAnswer}
  {history : List (SharedToken × TokenMove)}

theorem transition_of_look {thread time : Nat} {nap : Nap} (hlooks : s.Looks m thread nap time)
    (h : { s with now := time }.look thread nap = (answer, s')) : s.Transition m answer s' := by
  have hlook {outcome : Option SleepOutcome}
      (houtcome : (s.token.look thread (nap.isOver time)).1 = outcome) :
      { s with now := time }.look thread nap =
        (outcome.map .slept,
          withNap ⟨(s.token.look thread (nap.isOver time)).2, time, s.naps⟩ thread
            (if outcome.isSome then none else some nap)) := by
    rw [look, houtcome]
  cases hset : s.token.pending with
  | true =>
    rw [hlook (Token.look_of_pending _ _ _ hset)] at h
    obtain ⟨rfl, rfl⟩ := Prod.mk.inj h
    exact .caught m thread nap time hlooks hset
  | false =>
    cases hover : nap.isOver time with
    | true =>
      have houtcome : (s.token.look thread (nap.isOver time)).1 = some .completed := by
        rw [hover, Token.look_expired_of_clear _ _ hset]
      rw [hlook houtcome, hover] at h
      obtain ⟨rfl, rfl⟩ := Prod.mk.inj h
      exact .completed m thread nap time hlooks hset hover
    | false =>
      have houtcome : (s.token.look thread (nap.isOver time)).1 = none := by
        rw [hover, Token.look_of_clear _ _ hset]
      rw [hlook houtcome, hover] at h
      obtain ⟨rfl, rfl⟩ := Prod.mk.inj h
      exact .waitOn m thread nap time hlooks hset hover

/-- Every move that is made is one of the transitions. -/
theorem transition_of_act (h : s.act m = some (answer, s')) : s.Transition m answer s' := by
  cases m with
  | interrupt thread =>
    obtain ⟨hfree, h⟩ := Option.ite_none_right_eq_some.mp h
    cases h
    exact .interrupt thread hfree
  | clear thread =>
    obtain ⟨hfree, h⟩ := Option.ite_none_right_eq_some.mp h
    cases h
    exact .clear thread hfree
  | read thread =>
    obtain ⟨hfree, h⟩ := Option.ite_none_right_eq_some.mp h
    cases h
    exact .read thread hfree
  | sleep thread span delay =>
    obtain ⟨hfree, h⟩ := Option.ite_none_right_eq_some.mp h
    exact transition_of_look (.first thread span delay hfree) (Option.some.inj h)
  | wake thread =>
    obtain ⟨nap, hnap, h⟩ := Option.bind_eq_some_iff.mp h
    obtain ⟨hwoken, h⟩ := Option.ite_none_left_eq_some.mp h
    refine transition_of_look (.again thread nap hnap fun hwaiting => ?_) (Option.some.inj h)
    simpa [hwaiting] using hwoken
  | stir thread =>
    obtain ⟨nap, hnap, h⟩ := Option.map_eq_some_iff.mp h
    cases h
    exact .stir thread nap hnap
  | pass nanos =>
    cases h
    exact .pass nanos

theorem act_of_step (hs : s.step m = some s') : ∃ answer, s.act m = some (answer, s') := by
  obtain ⟨⟨answer, _⟩, hact, rfl⟩ := Option.map_eq_some_iff.mp hs
  exact ⟨answer, hact⟩

theorem returned_of_act (h : s.act m = some (answer, s')) : returned (s, m) = answer := by
  simp [returned, h]

/-! ## What happens to interrupts -/

/-- An interrupt that finds the flag clear. -/
def isFresh : SharedToken × TokenMove → Bool
  | (s, .interrupt _) => !s.token.pending
  | _ => false

/-- A clearing that returns that the flag was set. -/
def isTaken (e : SharedToken × TokenMove) : Bool :=
  match e.2 with
  | .clear _ => returned e = some (.flag true)
  | _ => false

/-- A sleep that returns that it was interrupted. -/
def isCaught (e : SharedToken × TokenMove) : Bool :=
  returned e = some (.slept .interrupted)

/-- A look for a sleep is neither an interrupt nor a clearing. -/
theorem Looks.unused {thread time : Nat} {nap : Nap} (h : s.Looks m thread nap time) :
    isFresh (s, m) = false ∧ isTaken (s, m) = false := by
  cases h <;> exact ⟨rfl, rfl⟩

theorem Looks.sleeper?_eq {thread time : Nat} {nap : Nap} (h : s.Looks m thread nap time) :
    m.sleeper? = some thread := by
  cases h <;> rfl

/-- What sets the flag is used up by what clears it. -/
theorem balance_step (h : s.act m = some (answer, s')) :
    (isCaught (s, m)).toNat + (isTaken (s, m)).toNat + s'.token.pending.toNat =
      s.token.pending.toNat + (isFresh (s, m)).toNat := by
  have hreturned := returned_of_act h
  cases transition_of_act h with
  | interrupt thread =>
    cases hset : s.token.pending <;> simp [isCaught, isTaken, isFresh, hreturned, hset]
  | clear thread =>
    cases hset : s.token.pending <;> simp [isCaught, isTaken, isFresh, hreturned, hset]
  | read thread => simp [isCaught, isTaken, isFresh, hreturned]
  | caught _ thread nap time hlooks hset =>
    simp [isCaught, hreturned, hlooks.unused, hset, withNap]
  | completed _ thread nap time hlooks hclear =>
    simp [isCaught, hreturned, hlooks.unused, hclear, withNap]
  | waitOn _ thread nap time hlooks hclear =>
    simp [isCaught, hreturned, hlooks.unused, hclear, withNap]
  | stir thread nap => simp [isCaught, isTaken, isFresh, hreturned]
  | pass nanos => simp [isCaught, isTaken, isFresh, hreturned]

/-- Every interrupt that found the flag clear has been used up once, or is pending. -/
theorem balance_of_run (hrun : Execution step new history s) :
    history.countP isCaught + history.countP isTaken + s.token.pending.toNat =
      history.countP isFresh := by
  induction hrun with
  | nil => rfl
  | @cons history s s' m _ hs ih =>
    obtain ⟨answer, hact⟩ := act_of_step hs
    have hbalance := balance_step hact
    have hcons (p : SharedToken × TokenMove → Bool) :
        ((s, m) :: history).countP p = history.countP p + (p (s, m)).toNat := by
      rw [List.countP_cons]
      cases p (s, m) <;> rfl
    rw [hcons isCaught, hcons isTaken, hcons isFresh]
    omega

/-! ## What happens to sleepers -/

/-- The sleep that a thread has begun last. -/
def lastNap? (thread : Nat) : List (SharedToken × TokenMove) → Option Nap
  | [] => none
  | (s, .sleep other span _) :: earlier =>
    if other = thread then some ⟨s.now, span⟩ else lastNap? thread earlier
  | _ :: earlier => lastNap? thread earlier

/-- Sleepers that wait un-notified have nothing to wake up for, and a thread sleeps for the last
sleep that it has begun. -/
structure Rested (history : List (SharedToken × TokenMove)) (s : SharedToken) : Prop where
  waiting : ∀ thread, s.token.isWaiting thread = true →
    s.token.pending = false ∧ (s.naps thread).isSome = true
  naps : ∀ thread nap, s.naps thread = some nap → lastNap? thread history = some nap

theorem lastNap?_of_looks {thread time : Nat} {nap : Nap} (hlooks : s.Looks m thread nap time)
    (h : Rested history s) :
    lastNap? thread ((s, m) :: history) = some nap ∧
      ∀ other, other ≠ thread → lastNap? other ((s, m) :: history) = lastNap? other history := by
  cases hlooks with
  | first _ span delay => exact ⟨if_pos rfl, fun other hne => if_neg hne.symm⟩
  | again _ _ hnap => exact ⟨h.naps thread nap hnap, fun _ _ => rfl⟩

@[simp] theorem naps_withNap_self (thread : Nat) (nap : Option Nap) :
    (s.withNap thread nap).naps thread = nap := if_pos rfl

theorem naps_withNap_of_ne {thread other : Nat} (h : other ≠ thread) (nap : Option Nap) :
    (s.withNap thread nap).naps other = s.naps other := if_neg h

/-- A sleeper that has looked and waits on has seen the flag clear. -/
theorem Rested.look {thread time : Nat} {nap : Nap} {waits : Option Nap} {expired : Bool}
    (h : Rested history s) (hlooks : s.Looks m thread nap time)
    (hwaits : waits = none ∨ waits = some nap)
    (hon : (!s.token.pending && !expired) = true → waits.isSome = true) :
    Rested ((s, m) :: history)
      (withNap ⟨(s.token.look thread expired).2, time, s.naps⟩ thread waits) where
  waiting other hwaiting := by
    refine ⟨Token.pending_look .., ?_⟩
    by_cases hne : other = thread
    · subst hne
      rw [naps_withNap_self]
      exact hon ((Token.isWaiting_look ..).symm.trans hwaiting)
    · rw [naps_withNap_of_ne hne]
      exact (h.waiting other ((Token.isWaiting_look_of_ne hne expired).symm.trans hwaiting)).2
  naps other nap' hnap := by
    obtain ⟨hself, hothers⟩ := lastNap?_of_looks hlooks h
    by_cases hne : other = thread
    · subst hne
      rw [naps_withNap_self] at hnap
      rcases hwaits with rfl | rfl
      · cases hnap
      · rw [hself, hnap]
    · rw [naps_withNap_of_ne hne] at hnap
      rw [hothers other hne]
      exact h.naps other nap' hnap

theorem rested_step (h : Rested history s) (hact : s.act m = some (answer, s')) :
    Rested ((s, m) :: history) s' := by
  cases transition_of_act hact with
  | interrupt thread => exact ⟨nofun, h.naps⟩
  | clear thread => exact ⟨fun other hwaiting => ⟨rfl, (h.waiting other hwaiting).2⟩, h.naps⟩
  | read thread => exact ⟨h.waiting, h.naps⟩
  | caught _ thread nap time hlooks hset =>
    exact h.look hlooks (.inl rfl) (by simp [hset])
  | completed _ thread nap time hlooks => exact h.look hlooks (.inl rfl) (by simp)
  | waitOn _ thread nap time hlooks => exact h.look hlooks (.inr rfl) (fun _ => rfl)
  | stir thread nap =>
    refine ⟨fun other hwaiting => ?_, h.naps⟩
    by_cases hne : other = thread
    · subst hne
      simp at hwaiting
    · exact h.waiting other ((Token.isWaiting_stir_of_ne hne).symm.trans hwaiting)
  | pass nanos => exact ⟨h.waiting, h.naps⟩

theorem rested_of_run (hrun : Execution step new history s) : Rested history s := by
  induction hrun with
  | nil => exact ⟨nofun, nofun⟩
  | cons _ hs ih =>
    obtain ⟨answer, hact⟩ := act_of_step hs
    exact rested_step ih hact

/-- What a sleep has returned for. -/
theorem slept_of_act (h : Rested history s) {outcome : SleepOutcome}
    (hact : s.act m = some (some (.slept outcome), s')) :
    s'.token.pending = false ∧ ∃ thread nap, m.sleeper? = some thread ∧
      lastNap? thread ((s, m) :: history) = some nap ∧ s'.naps thread = none ∧
      (outcome = .interrupted → s.token.pending = true) ∧
      (outcome = .completed →
        s.token.pending = false ∧ nap.since + nap.span.totalNanos < s'.now) := by
  cases transition_of_act hact with
  | caught _ thread nap time hlooks hset =>
    exact ⟨Token.pending_look .., thread, nap, hlooks.sleeper?_eq, (lastNap?_of_looks hlooks h).1,
      naps_withNap_self .., fun _ => hset, nofun⟩
  | completed _ thread nap time hlooks hclear hover =>
    exact ⟨Token.pending_look .., thread, nap, hlooks.sleeper?_eq, (lastNap?_of_looks hlooks h).1,
      naps_withNap_self .., nofun, fun _ => ⟨hclear, of_decide_eq_true hover⟩⟩

/-- A sleeper that is not waiting can look, and finds an interrupt that is pending. -/
theorem act_wake_of_pending {thread : Nat} {nap : Nap} (hnap : s.naps thread = some nap)
    (hwoken : s.token.isWaiting thread = false) (hset : s.token.pending = true) :
    ∃ s', s.act (.wake thread) = some (some (.slept .interrupted), s') := by
  have hact : s.act (.wake thread) = some (s.look thread nap) := by simp [act, hnap, hwoken]
  refine ⟨(s.look thread nap).2, ?_⟩
  rw [hact, look, Token.look_of_pending _ _ _ hset]
  rfl

/-- Whatever threads do with a token, and however their moves are interleaved.  The sleeps that were
interrupted, the clearings that found the flag set and a pending interrupt are together as many as
the interrupts that found the flag clear.  A sleep that returns leaves the flag clear; it was
interrupted only if the flag was set until then, and completed only if it was clear and more time
has passed than the sleep was to last since it was begun.  While the flag is set, every sleeper has
been notified and can return for it. -/
theorem interrupts_of_run (hrun : Execution step new history s) :
    history.countP isCaught + history.countP isTaken + s.token.pending.toNat =
      history.countP isFresh ∧
    (∀ m outcome s', s.act m = some (some (.slept outcome), s') →
      s'.token.pending = false ∧ ∃ thread nap, m.sleeper? = some thread ∧
        lastNap? thread ((s, m) :: history) = some nap ∧ s'.naps thread = none ∧
        (outcome = .interrupted → s.token.pending = true) ∧
        (outcome = .completed →
          s.token.pending = false ∧ nap.since + nap.span.totalNanos < s'.now)) ∧
    (s.token.pending = true → ∀ thread nap, s.naps thread = some nap →
      s.token.isWaiting thread = false ∧
        ∃ s', s.act (.wake thread) = some (some (.slept .interrupted), s')) := by
  have hrested := rested_of_run hrun
  refine ⟨balance_of_run hrun, fun m outcome s' hact => slept_of_act hrested hact, ?_⟩
  intro hset thread nap hnap
  have hwoken : s.token.isWaiting thread = false := by
    refine eq_false_of_ne_true fun hwaiting => ?_
    simp [(hrested.waiting thread hwaiting).1] at hset
  exact ⟨hwoken, act_wake_of_pending hnap hwoken hset⟩

/-- One interrupt ends one of two sleeps, a second one is cleared away, and a third one has ended
neither the sleep that has run to its end nor, yet, the one that goes on. -/
theorem interrupts_of_run_three :
    ∃ history s, Execution step new history s ∧
      history.filterMap returned =
        [.done, .flag true, .done, .slept .completed, .slept .interrupted, .done] ∧
      history.countP isCaught + history.countP isTaken + s.token.pending.toNat = 3 ∧
      s.token.isWaiting 1 = false := by
  let moves : List TokenMove :=
    [.sleep 1 (.ofMillis 5) 0, .sleep 2 (.ofMillis 5) 0, .interrupt 3, .wake 2, .wake 1,
      .sleep 4 .zero 1, .interrupt 3, .clear 2, .interrupt 3]
  obtain ⟨history, s, hrun, hreturned, hfresh, hset, nap, hnap⟩ : ∃ history s,
      Execution step new history s ∧
      history.filterMap returned =
        [.done, .flag true, .done, .slept .completed, .slept .interrupted, .done] ∧
      history.countP isFresh = 3 ∧ s.token.pending = true ∧ ∃ nap, s.naps 1 = some nap :=
    ⟨_, _, .of_replay .nil moves rfl, by decide, by decide, rfl, _, rfl⟩
  obtain ⟨hbalance, -, hnotified⟩ := interrupts_of_run hrun
  exact ⟨history, s, hrun, hreturned, hbalance.trans hfresh, (hnotified hset 1 nap hnap).1⟩

end SharedToken

end InterruptStress
