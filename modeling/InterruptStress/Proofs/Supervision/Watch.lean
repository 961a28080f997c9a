import InterruptStress.Schedule.StepTimes
import Mathlib.Data.Nat.Find
import Mathlib.Order.Monotone.Defs

/-!
# What a watchdog finds

A `Watch` is all that a watchdog's finding depends on: how the count of steps goes with time, when
the watchdog's task is polled, when its cancellation is sent, and which of cancellation and timer
each poll asks for first.  It looks at the first poll at which an interval has passed since its
last look; timers may be late, and so may polls.

A hang is found at the first look that sees the count of the look before it, if that look is made,
and everything else is about that look: nothing has moved since the look before it, and until then
each look has seen something move.

A cancellation that is ready at a poll ends the watch there, unless the timer is due at the same
poll and is asked for first.  So the look is not made if the task was polled since the cancellation
was sent, and a cancellation sent before the look before it excludes it in any case.  But one look
may still be made after the cancellation was sent (`Watch.cancellation_overtaken`).

`Watch.judged` puts this together: when a hang is found and what is reported, what a cancellation
excludes, that a target that moves in every interval is spared, and that a stall is found between
one and two intervals after its begin if the watchdog is punctual.
-/

namespace InterruptStress

namespace StepCounter

/-- Each step gives one more than the one before it, in 64 bits. -/
theorem increments_eq (counter : StepCounter) (n : Nat) :
    counter.increments n =
      ((List.range n).map fun k => counter.count + UInt64.ofNat (k + 1),
        ⟨counter.count + UInt64.ofNat n⟩) := by
  induction n generalizing counter with
  | zero => simp [increments]
  | succ n ih =>
    have hnext (k : Nat) :
        counter.count + 1 + UInt64.ofNat k = counter.count + UInt64.ofNat (k + 1) := by
      rw [UInt64.ofNat_add, UInt64.add_assoc, UInt64.add_comm 1]
      rfl
    simp only [increments, increment, ih, hnext, List.range_succ_eq_map, List.map_cons,
      List.map_map, Function.comp_def]
    rfl

/-- So the counter that a run begins with holds the number of its steps in 64 bits. -/
theorem get_increments_new (n : Nat) : (new.increments n).2.get = UInt64.ofNat n := by
  rw [increments_eq]
  exact UInt64.zero_add _

end StepCounter

/-- What a watchdog has to go by.  Times are nanoseconds. -/
structure Watch where
  interval : Duration
  interval_pos : 0 < interval.totalNanos
  /-- How many steps are counted up to a time, those at that time included. -/
  count : Nat → Nat
  count_mono : Monotone count
  /-- When its task is polled.  It starts at its first poll. -/
  pollAt : Nat → Nat
  pollAt_mono : Monotone pollAt
  /-- When its cancellation is sent, if it is. -/
  sent : Option Nat
  /-- Whether a poll asks for the cancellation before the timer. -/
  cancelFirst : Nat → Bool

namespace Watch

variable (w : Watch)

def start : Nat := w.pollAt 0

def poll (i : Nat) : Watchdog.Poll :=
  ⟨w.pollAt i, w.count (w.pollAt i), w.sent.any (· ≤ w.pollAt i), w.cancelFirst i⟩

/-- The task after its first polls. -/
def task (n : Nat) : Watchdog.Task :=
  (Watchdog.start w.interval (w.count w.start) w.start).run ((List.range n).map w.poll)

/-- It finds a hang at a poll. -/
def Finds (i : Nat) (report : HangReport) : Prop :=
  (∀ earlier, w.task i ≠ .hung earlier) ∧ w.task (i + 1) = .hung report

/-- When the timer was set that runs at a poll: at the last poll before it that found a timer due,
which is when the watchdog looked, or at the start. -/
def lookBefore (w : Watch) : Nat → Nat
  | 0 => w.start
  | i + 1 =>
    if lookBefore w i + w.interval.totalNanos ≤ w.pollAt i then w.pollAt i else lookBefore w i

/-- A poll at which the timer is due, so that the watchdog looks if it gets there. -/
def IsLook (i : Nat) : Prop := w.lookBefore i + w.interval.totalNanos ≤ w.pollAt i

/-- A look that sees the count that the look before it saw. -/
def IsStill (i : Nat) : Prop := w.IsLook i ∧ w.count (w.pollAt i) = w.count (w.lookBefore i)

/-- No cancellation has been sent when this poll is made. -/
def Uncancelled (i : Nat) : Prop := ∀ sent ∈ w.sent, w.pollAt i < sent

/-- A time after the start at which the count moves. -/
def MovesAt (time : Nat) : Prop := w.start < time ∧ w.count (time - 1) < w.count time

/-- Every look comes an interval after the one before it, and no later. -/
structure IsPunctual : Prop where
  on_time : ∀ i, w.IsLook i → w.pollAt i = w.lookBefore i + w.interval.totalNanos
  goes_on : ∀ i, ∃ j, i ≤ j ∧ w.IsLook j

instance : DecidablePred w.IsLook := fun _ => inferInstanceAs (Decidable (_ ≤ _))

instance : DecidablePred w.IsStill := fun _ => inferInstanceAs (Decidable (_ ∧ _))

instance : DecidablePred w.Uncancelled := fun _ => inferInstanceAs (Decidable (∀ _ ∈ _, _))

variable {w} {i j n : Nat} {found : HangReport}

/-! ## Looks -/

@[simp] theorem lookBefore_zero (w : Watch) : w.lookBefore 0 = w.start := rfl

theorem lookBefore_succ_of_look (h : w.IsLook i) : w.lookBefore (i + 1) = w.pollAt i := if_pos h

theorem lookBefore_succ_of_not_look (h : ¬ w.IsLook i) : w.lookBefore (i + 1) = w.lookBefore i :=
  if_neg h

/-- The look before a poll was made at a poll before it, or is the start. -/
theorem exists_pollAt_eq_lookBefore (w : Watch) (i : Nat) :
    ∃ j ≤ i, w.pollAt j = w.lookBefore i := by
  induction i with
  | zero => exact ⟨0, Nat.le_refl 0, rfl⟩
  | succ i ih =>
    by_cases hlook : w.IsLook i
    · exact ⟨i, Nat.le_succ i, (lookBefore_succ_of_look hlook).symm⟩
    · obtain ⟨j, hji, hj⟩ := ih
      rw [lookBefore_succ_of_not_look hlook]
      exact ⟨j, Nat.le_succ_of_le hji, hj⟩

/-- Unless the look before a poll is the start, it was a look at an earlier poll. -/
theorem exists_look_before (w : Watch) (i : Nat) (h : w.lookBefore i ≠ w.start) :
    ∃ j < i, w.pollAt j = w.lookBefore i ∧ w.IsLook j := by
  induction i with
  | zero => exact absurd rfl h
  | succ i ih =>
    by_cases hlook : w.IsLook i
    · exact ⟨i, Nat.lt_succ_self i, (lookBefore_succ_of_look hlook).symm, hlook⟩
    · rw [lookBefore_succ_of_not_look hlook] at h ⊢
      obtain ⟨j, hj, hbefore⟩ := ih h
      exact ⟨j, Nat.lt_succ_of_lt hj, hbefore⟩

theorem start_le_lookBefore (w : Watch) (i : Nat) : w.start ≤ w.lookBefore i := by
  obtain ⟨j, -, hj⟩ := w.exists_pollAt_eq_lookBefore i
  rw [← hj]
  exact w.pollAt_mono (Nat.zero_le j)

/-- The first poll is no look. -/
theorem not_isLook_zero (w : Watch) : ¬ w.IsLook 0 := by
  have hpos := w.interval_pos
  rw [IsLook, lookBefore_zero, start]
  omega

theorem lookBefore_eq_of_not_look (hij : i ≤ j) (h : ∀ k, i ≤ k → k < j → ¬ w.IsLook k) :
    w.lookBefore j = w.lookBefore i := by
  induction j, hij using Nat.le_induction with
  | base => rfl
  | succ j hij ih =>
    rw [lookBefore_succ_of_not_look (h j hij (Nat.lt_succ_self j))]
    exact ih fun k hik hkj => h k hik (Nat.lt_succ_of_lt hkj)

/-- If looks go on, the timer that runs at a poll is due at some poll. -/
theorem exists_isLook (h : ∃ j, i ≤ j ∧ w.IsLook j) :
    ∃ j, w.IsLook j ∧ w.lookBefore j = w.lookBefore i := by
  obtain ⟨hle, hlook⟩ := Nat.find_spec h
  refine ⟨Nat.find h, hlook, lookBefore_eq_of_not_look hle fun k hik hk hlookAt => ?_⟩
  exact Nat.find_min h hk ⟨hik, hlookAt⟩

/-! ## A run -/

/-- The watchdog as it is before a poll if it still waits then. -/
def watchdog (w : Watch) (i : Nat) : Watchdog :=
  ⟨w.interval, w.count (w.lookBefore i), w.lookBefore i⟩

/-- What a still look reports. -/
def report (w : Watch) (i : Nat) : HangReport :=
  ⟨.ofNat (w.count (w.pollAt i)), .ofNanos (w.pollAt i - w.lookBefore i), w.interval⟩

/-- A poll that lets the watchdog go on waiting. -/
def IsQuiet (w : Watch) (i : Nat) : Prop := w.Uncancelled i ∧ ¬ w.IsStill i

instance : DecidablePred w.IsQuiet := fun _ => inferInstanceAs (Decidable (_ ∧ _))

/-- A still look that is made: either no cancellation was sent, or the poll asks for it second. -/
def IsTaken (w : Watch) (i : Nat) : Prop :=
  w.IsStill i ∧ (w.Uncancelled i ∨ w.cancelFirst i = false)

instance : DecidablePred w.IsTaken := fun _ => inferInstanceAs (Decidable (_ ∧ _))

/-- What a poll that is not quiet makes of a task that waits. -/
def ending (w : Watch) (i : Nat) : Watchdog.Task :=
  if w.IsTaken i then .hung (w.report i) else .cancelled

theorem uncancelled_iff : w.Uncancelled i ↔ (w.poll i).cancelled = false := by
  cases hsent : w.sent with
  | none => simp [Uncancelled, poll, hsent]
  | some sent => simp [Uncancelled, poll, hsent]

theorem look_watchdog (hlook : w.IsLook i) :
    (w.watchdog i).look (w.count (w.pollAt i)) (w.pollAt i) =
      if w.IsStill i then .error (w.report i) else .ok (w.watchdog (i + 1)) := by
  rw [Watchdog.look, watchdog]
  by_cases hsame : w.count (w.pollAt i) = w.count (w.lookBefore i)
  · rw [if_pos hsame, if_pos ⟨hlook, hsame⟩, report]
  · rw [if_neg hsame, if_neg fun hstill => hsame hstill.2]
    simp only [watchdog, lookBefore_succ_of_look hlook]

theorem select_watchdog (w : Watch) (i : Nat) :
    (w.watchdog i).select (w.poll i) =
      if w.IsLook i ∧ (w.Uncancelled i ∨ w.cancelFirst i = false) then some .timer
      else if w.Uncancelled i then none
      else some .cancellation := by
  have htimer : (w.watchdog i).since + (w.watchdog i).interval.totalNanos ≤ (w.poll i).now ↔
      w.IsLook i := Iff.rfl
  have hfirst : (w.poll i).cancelFirst = w.cancelFirst i := rfl
  simp only [Watchdog.select, htimer, hfirst, uncancelled_iff]
  by_cases hlook : w.IsLook i
  · cases (w.poll i).cancelled <;> cases w.cancelFirst i <;> simp [hlook]
  · cases (w.poll i).cancelled <;> cases w.cancelFirst i <;> simp [hlook]

/-- What a poll makes of a watchdog that waits. -/
theorem poll_watchdog (w : Watch) (i : Nat) :
    (w.watchdog i).poll (w.poll i) =
      if w.IsQuiet i then .waiting (w.watchdog (i + 1)) else w.ending i := by
  rw [Watchdog.poll, select_watchdog]
  by_cases hlook : w.IsLook i
  · -- the timer is due: whether it is asked for first decides whether the look is made
    have hcount : (w.watchdog i).look (w.poll i).steps (w.poll i).now = _ := look_watchdog hlook
    by_cases hstill : w.IsStill i
    · by_cases hasked : w.Uncancelled i ∨ w.cancelFirst i = false
      · simp [hlook, hstill, hasked, hcount, IsQuiet, ending, IsTaken]
      · rw [not_or] at hasked
        simp [hlook, hstill, hasked, IsQuiet, ending, IsTaken]
    · by_cases hunsent : w.Uncancelled i
      · have hcancelled := uncancelled_iff.mp hunsent
        simp [hlook, hstill, hunsent, hcount, IsQuiet, hcancelled]
      · have hcancelled : (w.poll i).cancelled = true := by
          rw [uncancelled_iff] at hunsent
          simpa using hunsent
        by_cases hfirst : w.cancelFirst i = false
        · simp [hlook, hstill, hunsent, hcount, IsQuiet, ending, IsTaken, hcancelled, hfirst]
        · simp [hlook, hstill, hunsent, IsQuiet, ending, IsTaken, hfirst]
  · have hstill : ¬ w.IsStill i := fun h => hlook h.1
    have hsame : w.watchdog (i + 1) = w.watchdog i := by
      rw [watchdog, lookBefore_succ_of_not_look hlook, watchdog]
    by_cases hunsent : w.Uncancelled i
    · simp [hlook, hstill, hunsent, IsQuiet, hsame]
    · simp [hlook, hstill, hunsent, IsQuiet, ending, IsTaken]

theorem task_succ (w : Watch) (n : Nat) : w.task (n + 1) = (w.task n).poll (w.poll n) := by
  simp only [task, Watchdog.run, List.range_succ, List.map_append, List.map_cons, List.map_nil,
    List.foldl_append, List.foldl_cons, List.foldl_nil]

theorem task_of_quiet (h : ∀ j < n, w.IsQuiet j) : w.task n = .waiting (w.watchdog n) := by
  induction n with
  | zero => rfl
  | succ n ih =>
    rw [task_succ, ih fun j hj => h j (Nat.lt_succ_of_lt hj), Watchdog.Task.poll, poll_watchdog,
      if_pos (h n (Nat.lt_succ_self n))]

/-- The first poll that is not quiet ends the task. -/
theorem task_of_first (hquiet : ∀ j < i, w.IsQuiet j) (hends : ¬ w.IsQuiet i) (hin : i < n) :
    w.task n = w.ending i := by
  induction n, hin using Nat.le_induction with
  | base =>
    rw [task_succ, task_of_quiet hquiet, Watchdog.Task.poll, poll_watchdog, if_neg hends]
  | succ n hin ih =>
    rw [task_succ, ih, ending]
    by_cases htaken : w.IsTaken i
    · rw [if_pos htaken, Watchdog.Task.poll]
      exact nofun
    · rw [if_neg htaken, Watchdog.Task.poll]
      exact nofun

/-- A task waits as long as every poll was quiet, and else ended at the first that was not. -/
theorem task_cases (w : Watch) (n : Nat) :
    ((∀ j < n, w.IsQuiet j) ∧ w.task n = .waiting (w.watchdog n)) ∨
      ∃ i < n, (∀ j < i, w.IsQuiet j) ∧ ¬ w.IsQuiet i ∧ w.task n = w.ending i := by
  by_cases hall : ∀ j < n, w.IsQuiet j
  · exact .inl ⟨hall, task_of_quiet hall⟩
  · have hsome : ∃ i, i < n ∧ ¬ w.IsQuiet i := by simpa using hall
    obtain ⟨hin, hends⟩ := Nat.find_spec hsome
    have hquiet (j : Nat) (hj : j < Nat.find hsome) : w.IsQuiet j := by
      by_contra hnot
      exact Nat.find_min hsome hj ⟨hj.trans hin, hnot⟩
    exact .inr ⟨Nat.find hsome, hin, hquiet, hends, task_of_first hquiet hends hin⟩

theorem IsTaken.not_isQuiet (h : w.IsTaken i) : ¬ w.IsQuiet i := fun hquiet => hquiet.2 h.1

theorem task_eq_hung_iff :
    w.task n = .hung found ↔
      ∃ i < n, (∀ j < i, w.IsQuiet j) ∧ w.IsTaken i ∧ found = w.report i := by
  constructor
  · intro hhung
    rcases w.task_cases n with ⟨-, hwaits⟩ | ⟨i, hin, hquiet, -, hended⟩
    · rw [hwaits] at hhung
      exact nomatch hhung
    · rw [hended, ending] at hhung
      by_cases htaken : w.IsTaken i
      · rw [if_pos htaken] at hhung
        exact ⟨i, hin, hquiet, htaken, (Watchdog.Task.hung.inj hhung).symm⟩
      · rw [if_neg htaken] at hhung
        exact nomatch hhung
  · rintro ⟨i, hin, hquiet, htaken, rfl⟩
    rw [task_of_first hquiet htaken.not_isQuiet hin, ending, if_pos htaken]

theorem task_eq_cancelled_iff :
    w.task n = .cancelled ↔
      ∃ i < n, (∀ j < i, w.IsQuiet j) ∧ ¬ w.Uncancelled i ∧
        (w.IsStill i → w.cancelFirst i = true) := by
  constructor
  · intro hcancelled
    rcases w.task_cases n with ⟨-, hwaits⟩ | ⟨i, hin, hquiet, hends, hended⟩
    · rw [hwaits] at hcancelled
      exact nomatch hcancelled
    · rw [hended, ending] at hcancelled
      by_cases htaken : w.IsTaken i
      · rw [if_pos htaken] at hcancelled
        exact nomatch hcancelled
      · rw [IsTaken, not_and, not_or, Bool.not_eq_false] at htaken
        refine ⟨i, hin, hquiet, fun hunsent => ?_, fun hstill => (htaken hstill).2⟩
        by_cases hstill : w.IsStill i
        · exact (htaken hstill).1 hunsent
        · exact hends ⟨hunsent, hstill⟩
  · rintro ⟨i, hin, hquiet, hsent, hfirst⟩
    have htaken : ¬ w.IsTaken i := by
      rintro ⟨hstill, hunsent | hsecond⟩
      · exact hsent hunsent
      · rw [hfirst hstill] at hsecond
        exact nomatch hsecond
    rw [task_of_first hquiet (fun hnot => hsent hnot.1) hin, ending, if_neg htaken]

theorem finds_iff :
    w.Finds i found ↔ (∀ j < i, w.IsQuiet j) ∧ w.IsTaken i ∧ found = w.report i := by
  constructor
  · rintro ⟨hnever, hhung⟩
    obtain ⟨j, hj, hquiet, htaken, rfl⟩ := task_eq_hung_iff.mp hhung
    obtain rfl : j = i := by
      by_contra hne
      exact hnever _ (task_eq_hung_iff.mpr ⟨j, by omega, hquiet, htaken, rfl⟩)
    exact ⟨hquiet, htaken, rfl⟩
  · rintro ⟨hquiet, htaken, rfl⟩
    refine ⟨fun earlier hhung => ?_, ?_⟩
    · obtain ⟨j, hj, -, hbefore, -⟩ := task_eq_hung_iff.mp hhung
      exact hbefore.not_isQuiet (hquiet j hj)
    · exact task_eq_hung_iff.mpr ⟨i, Nat.lt_succ_self i, hquiet, htaken, rfl⟩

/-! ## Stalls -/

/-- What moves up to a still look moves up to the look before it. -/
theorem IsStill.le_lookBefore {time : Nat} (hstill : w.IsStill i) (hmove : w.MovesAt time)
    (htime : time ≤ w.pollAt i) : time ≤ w.lookBefore i := by
  by_contra hlate
  have hbefore := w.count_mono (show w.lookBefore i ≤ time - 1 by omega)
  have hafter := w.count_mono htime
  have hsame := hstill.2
  have hmoved := hmove.2
  omega

/-- Where every interval sees a step, no look is still. -/
theorem not_isStill_of_moving
    (hmoving : ∀ t, w.start ≤ t → w.count t < w.count (t + w.interval.totalNanos)) (i : Nat) :
    ¬ w.IsStill i := by
  rintro ⟨hlook, hsame⟩
  have hstep := hmoving _ (w.start_le_lookBefore i)
  have hseen := w.count_mono hlook
  omega

theorem start_le_of_move {time : Nat} (h : time = w.start ∨ w.MovesAt time) : w.start ≤ time := by
  rcases h with rfl | hmove
  · exact Nat.le_refl _
  · exact hmove.1.le

/-- A stall is found an interval after its begin at the earliest. -/
theorem IsStill.add_le {time : Nat} (hstill : w.IsStill i) (h : time = w.start ∨ w.MovesAt time)
    (htime : time ≤ w.pollAt i) : time + w.interval.totalNanos ≤ w.pollAt i := by
  have hbefore : time ≤ w.lookBefore i := by
    rcases h with rfl | hmove
    · exact w.start_le_lookBefore i
    · exact hstill.le_lookBefore hmove htime
  calc
    time + w.interval.totalNanos ≤ w.lookBefore i + w.interval.totalNanos :=
      Nat.add_le_add_right hbefore _
    _ ≤ w.pollAt i := hstill.1

/-- A look at every multiple of the interval. -/
theorem IsPunctual.exists_look (h : w.IsPunctual) (k : Nat) :
    ∃ i, w.IsLook i ∧ w.lookBefore i = w.start + k * w.interval.totalNanos := by
  induction k with
  | zero =>
    obtain ⟨i, hlook, hbefore⟩ := exists_isLook (h.goes_on 0)
    exact ⟨i, hlook, by rw [hbefore, lookBefore_zero, Nat.zero_mul, Nat.add_zero]⟩
  | succ k ih =>
    obtain ⟨i, hlook, hbefore⟩ := ih
    obtain ⟨j, hnext, hthen⟩ := exists_isLook (h.goes_on (i + 1))
    refine ⟨j, hnext, ?_⟩
    rw [hthen, lookBefore_succ_of_look hlook, h.on_time i hlook, hbefore, Nat.succ_mul,
      Nat.add_assoc]

/-- The look after a time at which nothing has been looked at since an interval. -/
theorem IsPunctual.exists_look_after (h : w.IsPunctual) {time : Nat} (htime : w.start ≤ time) :
    ∃ i, w.IsLook i ∧ time ≤ w.lookBefore i ∧ w.lookBefore i ≤ time + w.interval.totalNanos := by
  have hpos := w.interval_pos
  obtain ⟨i, hlook, hbefore⟩ := h.exists_look ((time - w.start) / w.interval.totalNanos + 1)
  refine ⟨i, hlook, ?_, ?_⟩
  · have hlt := Nat.lt_div_mul_add hpos (a := time - w.start)
    rw [hbefore, Nat.succ_mul]
    omega
  · have hle := Nat.div_mul_le_self (time - w.start) w.interval.totalNanos
    rw [hbefore, Nat.succ_mul]
    omega

/-- A count that stands still from a time on is still at a look within two intervals. -/
theorem IsPunctual.exists_isStill (h : w.IsPunctual) {time : Nat} (htime : w.start ≤ time)
    (hstands : ∀ u, time ≤ u → w.count u = w.count time) :
    ∃ i, w.IsStill i ∧ w.pollAt i ≤ time + 2 * w.interval.totalNanos := by
  obtain ⟨i, hlook, hafter, hsoon⟩ := h.exists_look_after htime
  have hon := h.on_time i hlook
  refine ⟨i, ⟨hlook, ?_⟩, by omega⟩
  rw [hstands _ hafter, hstands _ (by omega)]

/-- The first still look comes within two intervals of the last move. -/
theorem IsPunctual.pollAt_le (h : w.IsPunctual) {time : Nat} (htime : w.start ≤ time)
    (hlook : w.IsLook i) (hfirst : ∀ j < i, ¬ w.IsStill j)
    (hstands : ∀ u, time ≤ u → u ≤ w.pollAt i → w.count u = w.count time) :
    w.pollAt i ≤ time + 2 * w.interval.totalNanos := by
  have hon := h.on_time i hlook
  by_contra hlate
  -- the look before has seen a move, which was after the look before that
  obtain ⟨j, hji, hbefore, hlast⟩ := w.exists_look_before i (by omega)
  have honLast := h.on_time j hlast
  have hseen := hstands (w.pollAt j) (by omega) (by omega)
  have hlastSeen := hstands (w.lookBefore j) (by omega) (by omega)
  exact hfirst j hji ⟨hlast, hseen.trans hlastSeen.symm⟩

end Watch

/-! ## Watches on time -/

namespace StepTimes

variable (s : StepTimes) {interval : Duration}

theorem countWithin_mono (gaps : List Nat) : Monotone fun time => countWithin time gaps := by
  intro t u htu
  induction gaps generalizing t u with
  | nil => exact Nat.le_refl _
  | cons gap gaps ih =>
    simp only [countWithin]
    split
    · rw [if_pos (by omega)]
      exact Nat.succ_le_succ (ih (by omega))
    · exact Nat.zero_le _

theorem seenAt_mono (s : StepTimes) : Monotone s.seenAt := by
  intro t u htu
  have hmono := countWithin_mono s.gaps htu
  simp only at hmono
  simp only [seenAt, countAt]
  split <;> split <;> omega

theorem pollAt_mono (interval : Duration) (cancelled : Option Nat) :
    Monotone (pollAt interval cancelled) := by
  intro j k hjk
  have hmultiple := Nat.mul_le_mul_right interval.totalNanos hjk
  cases cancelled with
  | none => exact hmultiple
  | some time =>
    have hbefore := Nat.mul_le_mul_right interval.totalNanos (Nat.sub_le_sub_right hjk 1)
    simp only [pollAt]
    -- a variable for the interval, or the nanoseconds of a second are counted out in unary
    generalize interval.totalNanos = T at hmultiple hbefore ⊢
    omega

theorem pollAt_zero (interval : Duration) (cancelled : Option Nat) :
    pollAt interval cancelled 0 = 0 := by
  cases cancelled with
  | none => exact Nat.zero_mul _
  | some time => simp only [pollAt, Nat.zero_sub, Nat.zero_mul, Nat.zero_min, Nat.max_self]

/-- The watch of a watchdog whose task is polled on time. -/
def toWatch (s : StepTimes) (interval : Duration) (hpos : 0 < interval.totalNanos)
    (cancelled : Option Nat) : Watch where
  interval
  interval_pos := hpos
  count := s.seenAt
  count_mono := s.seenAt_mono
  pollAt := pollAt interval cancelled
  pollAt_mono := pollAt_mono interval cancelled
  sent := cancelled
  cancelFirst _ := false

theorem start_toWatch (hpos : 0 < interval.totalNanos) (cancelled : Option Nat) :
    (s.toWatch interval hpos cancelled).start = 0 := pollAt_zero interval cancelled

/-- The task of a watchdog that is polled on time is the task of its watch. -/
theorem task_toWatch (hpos : 0 < interval.totalNanos) (cancelled : Option Nat) (n : Nat) :
    (s.toWatch interval hpos cancelled).task n = s.task interval cancelled n := by
  rw [Watch.task, start_toWatch, task]
  rfl

theorem lookBefore_toWatch (hpos : 0 < interval.totalNanos) (k : Nat) :
    (s.toWatch interval hpos none).lookBefore (k + 1) = k * interval.totalNanos := by
  induction k with
  | zero =>
    rw [Watch.lookBefore_succ_of_not_look (Watch.not_isLook_zero _), Watch.lookBefore_zero,
      start_toWatch, Nat.zero_mul]
  | succ k ih =>
    have hlook : (s.toWatch interval hpos none).IsLook (k + 1) := by
      rw [Watch.IsLook, ih]
      exact (Nat.succ_mul k interval.totalNanos).ge
    exact Watch.lookBefore_succ_of_look hlook

/-- A watchdog that is polled on time and not cancelled is punctual. -/
theorem isPunctual_toWatch (hpos : 0 < interval.totalNanos) :
    (s.toWatch interval hpos none).IsPunctual := by
  have hdue (k : Nat) : (s.toWatch interval hpos none).lookBefore (k + 1) + interval.totalNanos =
      (s.toWatch interval hpos none).pollAt (k + 1) := by
    rw [lookBefore_toWatch, ← Nat.succ_mul]
    rfl
  constructor
  · intro i hlook
    cases i with
    | zero => exact absurd hlook (Watch.not_isLook_zero _)
    | succ k => exact (hdue k).symm
  · intro i
    exact ⟨i + 1, Nat.le_succ i, (hdue i).le⟩

end StepTimes

namespace Watch

variable {w : Watch} {i : Nat} {found : HangReport}

/-! ## What is found -/

/-- Everything about the finding of a watchdog. -/
structure Judged (w : Watch) : Prop where
  /-- A hang is found exactly at the first look that sees the count of the look before it, provided
  that no earlier poll came when the cancellation was sent already and that this poll, if it does,
  asks for the timer first; and this is what is reported. -/
  finds : ∀ i found, w.Finds i found ↔
    w.IsLook i ∧ w.count (w.pollAt i) = w.count (w.lookBefore i) ∧
      (∀ j < i, w.IsLook j → w.count (w.pollAt j) ≠ w.count (w.lookBefore j)) ∧
      (∀ sent ∈ w.sent, (∀ j < i, w.pollAt j < sent) ∧
        (sent ≤ w.pollAt i → w.cancelFirst i = false)) ∧
      found = ⟨.ofNat (w.count (w.pollAt i)), .ofNanos (w.pollAt i - w.lookBefore i), w.interval⟩
  /-- Nothing else is ever found, and what has been found stays. -/
  once : ∀ n found, w.task n = .hung found ↔ ∃ i < n, w.Finds i found
  /-- The task ends without a finding only if it was cancelled, and is over at the first poll that
  comes when the cancellation was sent. -/
  ends : (∀ n, w.task n = .cancelled → ∃ j < n, ∃ sent ∈ w.sent, sent ≤ w.pollAt j) ∧
    ∀ sent ∈ w.sent, ∀ j n, sent ≤ w.pollAt j → j < n →
      w.task n = .cancelled ∨ ∃ found, w.task n = .hung found
  /-- A cancellation excludes a hang at every look after a poll that comes when it was sent, so at
  every look if it was sent no later than the look before. -/
  excludes : ∀ i found, w.Finds i found → ∀ sent ∈ w.sent,
    w.lookBefore i < sent ∧ ∀ j, sent ≤ w.pollAt j → i ≤ j
  /-- If the task is polled when the cancellation is sent, that excludes every later look. -/
  excludes_at_once : ∀ sent ∈ w.sent, (∃ j, w.pollAt j = sent) →
    ∀ i found, w.Finds i found → w.pollAt i ≤ sent
  /-- The time that is reported is at least an interval, and at most the time since the start and
  since every move. -/
  idle : ∀ i found, w.Finds i found →
    ∃ idle, found.idle = .ofNanos idle ∧ w.interval.totalNanos ≤ idle ∧
      idle ≤ w.pollAt i - w.start ∧
      ∀ time, w.MovesAt time → time ≤ w.pollAt i → idle ≤ w.pollAt i - time
  /-- The count and the seconds are kept in 64 bits, and are right if they fit. -/
  fits : ∀ i found, w.Finds i found →
    (w.count (w.pollAt i) < UInt64.size → found.steps.toNat = w.count (w.pollAt i)) ∧
      (w.pollAt i - w.lookBefore i < 18_446_744_073_709_551_616 * 1_000_000_000 →
        found.idle.totalNanos = w.pollAt i - w.lookBefore i)
  /-- A target that moves in every interval is spared. -/
  spared : (∀ t, w.start ≤ t → w.count t < w.count (t + w.interval.totalNanos)) →
    ∀ n found, w.task n ≠ .hung found
  /-- A punctual watchdog finds a stall, which begins at the start or at the last move, between one
  and two intervals after its begin. -/
  bounded : w.IsPunctual → ∀ i found, w.Finds i found →
    ∀ time, time = w.start ∨ w.MovesAt time → time ≤ w.pollAt i →
      time + w.interval.totalNanos ≤ w.pollAt i ∧
        ((∀ u, time ≤ u → u ≤ w.pollAt i → w.count u = w.count time) →
          w.pollAt i ≤ time + 2 * w.interval.totalNanos)
  /-- A punctual watchdog that is not cancelled does find every stall that does not end: within two
  intervals, and no earlier than one interval after its begin unless it found another before. -/
  stall : w.IsPunctual → w.sent = none →
    ∀ time, time = w.start ∨ w.MovesAt time →
      (∀ u, time ≤ u → w.count u = w.count time) →
        ∃ i found, w.Finds i found ∧ w.pollAt i ≤ time + 2 * w.interval.totalNanos ∧
          (w.pollAt i < time ∨ time + w.interval.totalNanos ≤ w.pollAt i)

/-- The first look that is still is found, unless the cancellation comes in between. -/
theorem finds_iff_first :
    w.Finds i found ↔
      w.IsStill i ∧ (∀ j < i, ¬ w.IsStill j) ∧
        (∀ sent ∈ w.sent, (∀ j < i, w.pollAt j < sent) ∧
          (sent ≤ w.pollAt i → w.cancelFirst i = false)) ∧ found = w.report i := by
  rw [finds_iff]
  constructor
  · rintro ⟨hquiet, ⟨hstill, hasked⟩, rfl⟩
    refine ⟨hstill, fun j hj => (hquiet j hj).2, fun sent hsent => ⟨fun j hj => ?_, ?_⟩, rfl⟩
    · exact (hquiet j hj).1 sent hsent
    · intro hready
      rcases hasked with hunsent | hsecond
      · exact absurd hready (Nat.not_le_of_lt (hunsent sent hsent))
      · exact hsecond
  · rintro ⟨hstill, hfirst, hcancelled, rfl⟩
    refine ⟨fun j hj => ⟨fun sent hsent => (hcancelled sent hsent).1 j hj, hfirst j hj⟩,
      ⟨hstill, ?_⟩, rfl⟩
    by_cases hunsent : w.Uncancelled i
    · exact .inl hunsent
    · simp only [Uncancelled, not_forall, Nat.not_lt] at hunsent
      obtain ⟨sent, hsent, hready⟩ := hunsent
      exact .inr ((hcancelled sent hsent).2 hready)

/-- No hang is found at a poll that comes after one to which the cancellation was ready. -/
theorem Finds.le_of_sent (h : w.Finds i found) {sent j : Nat} (hsent : sent ∈ w.sent)
    (hready : sent ≤ w.pollAt j) : i ≤ j := by
  by_contra hlate
  obtain ⟨-, -, hcancelled, -⟩ := finds_iff_first.mp h
  have hbefore := (hcancelled sent hsent).1 j (Nat.lt_of_not_le hlate)
  omega

/-- The cancellation is sent after the look before one at which a hang is found. -/
theorem Finds.lookBefore_lt (h : w.Finds i found) {sent : Nat} (hsent : sent ∈ w.sent) :
    w.lookBefore i < sent := by
  have hpos := w.interval_pos
  obtain ⟨⟨hlook, -⟩, -⟩ := finds_iff_first.mp h
  obtain ⟨j, hji, hj⟩ := w.exists_pollAt_eq_lookBefore i
  by_contra hready
  have hij := h.le_of_sent hsent (show sent ≤ w.pollAt j by omega)
  obtain rfl : j = i := by omega
  rw [IsLook] at hlook
  omega

/-- For every interval, every count that only grows, every lateness of timers and polls, whenever
the cancellation is sent, and in whichever order each poll asks. -/
theorem judged (w : Watch) : w.Judged where
  finds i found := by
    rw [finds_iff_first]
    simp only [IsStill, not_and, report, and_assoc, ne_eq]
  once n found := by
    simp only [finds_iff]
    exact task_eq_hung_iff
  ends := by
    refine ⟨fun n hcancelled => ?_, fun sent hsent j n hready hjn => ?_⟩
    · obtain ⟨i, hin, -, hnot, -⟩ := task_eq_cancelled_iff.mp hcancelled
      simp only [Uncancelled, not_forall, Nat.not_lt] at hnot
      obtain ⟨sent, hsent, hready⟩ := hnot
      exact ⟨i, hin, sent, hsent, hready⟩
    · rcases w.task_cases n with ⟨hquiet, -⟩ | ⟨i, -, -, -, hended⟩
      · exact absurd hready (Nat.not_le_of_lt ((hquiet j hjn).1 sent hsent))
      · rw [hended, ending]
        split
        · exact .inr ⟨_, rfl⟩
        · exact .inl rfl
  excludes i found h sent hsent := by
    exact ⟨h.lookBefore_lt hsent, fun j hready => h.le_of_sent hsent hready⟩
  excludes_at_once sent hsent hpolled i found h := by
    obtain ⟨j, hj⟩ := hpolled
    rw [← hj]
    exact w.pollAt_mono (h.le_of_sent hsent hj.ge)
  idle i found h := by
    obtain ⟨hstill, -, -, rfl⟩ := finds_iff_first.mp h
    have hlook := hstill.1
    have hstart := w.start_le_lookBefore i
    rw [IsLook] at hlook
    refine ⟨w.pollAt i - w.lookBefore i, rfl, by omega, by omega, fun time hmove htime => ?_⟩
    have hbefore := hstill.le_lookBefore hmove htime
    omega
  fits i found h := by
    obtain ⟨-, -, -, rfl⟩ := finds_iff_first.mp h
    exact ⟨fun hlt => Nat.mod_eq_of_lt hlt, Duration.totalNanos_ofNanos⟩
  spared hmoving n found hhung := by
    obtain ⟨i, -, -, htaken, -⟩ := task_eq_hung_iff.mp hhung
    exact not_isStill_of_moving hmoving i htaken.1
  bounded hpunctual i found h time hmove htime := by
    obtain ⟨hstill, hfirst, -, -⟩ := finds_iff_first.mp h
    exact ⟨hstill.add_le hmove htime,
      hpunctual.pollAt_le (start_le_of_move hmove) hstill.1 hfirst⟩
  stall hpunctual hunsent time hmove hstands := by
    have hstart := start_le_of_move hmove
    obtain ⟨j, hstill, hsoon⟩ := hpunctual.exists_isStill hstart hstands
    -- the first still look comes no later than that one
    have hsome : ∃ i, w.IsStill i := ⟨j, hstill⟩
    obtain ⟨hfirst, hbefore⟩ := And.intro (Nat.find_spec hsome) fun i => Nat.find_min hsome (m := i)
    have hle := w.pollAt_mono (Nat.find_min' hsome hstill)
    refine ⟨Nat.find hsome, w.report _,
      finds_iff_first.mpr ⟨hfirst, hbefore, by simp [hunsent], rfl⟩, hle.trans hsoon, ?_⟩
    rcases Nat.lt_or_ge (w.pollAt (Nat.find hsome)) time with hearlier | hlater
    · exact .inl hearlier
    · exact .inr (hfirst.add_le hmove hlater)

/-- A step that falls on a look is seen by it, so the stall it begins is found at the next look. -/
theorem judged_step_on_look :
    let w := StepTimes.toWatch ⟨1, [10_000_000]⟩ (.ofMillis 10) (by decide +kernel) none
    w.Finds 2 ⟨2, .ofMillis 10, .ofMillis 10⟩ ∧ w.pollAt 2 = 20_000_000 ∧
      10_000_000 + w.interval.totalNanos ≤ w.pollAt 2 := by
  intro w
  have hfinds : w.Finds 2 ⟨2, .ofMillis 10, .ofMillis 10⟩ :=
    ((judged w).finds 2 _).mpr ⟨by decide +kernel, by decide +kernel, by decide +kernel, nofun,
      by decide +kernel⟩
  refine ⟨hfinds, by decide +kernel, ?_⟩
  exact ((judged w).bounded (StepTimes.isPunctual_toWatch _ _) 2 _ hfinds 10_000_000
    (.inr ⟨by decide +kernel, by decide +kernel⟩) (by decide +kernel)).1

/-- No step is ever counted.  The cancellation is sent 200 ms after the timer of 20 s was due, but
the task is not polled until 300 ms later, and then it asks for the timer first. -/
def overtaken : Watch where
  interval := .ofMillis 20_000
  interval_pos := by decide +kernel
  count _ := 0
  count_mono _ _ _ := Nat.le_refl 0
  pollAt i := if i = 0 then 0 else 20_500_000_000
  pollAt_mono i j hij := by
    simp only
    split <;> split <;> omega
  sent := some 20_200_000_000
  cancelFirst _ := false

/-- A watchdog that was cancelled before a look may find a hang there all the same. -/
theorem cancellation_overtaken :
    ¬ ∀ (w : Watch) (i : Nat) (found : HangReport), w.Finds i found →
      ∀ sent ∈ w.sent, ¬ sent < w.pollAt i := by
  intro hnever
  have hfinds : overtaken.Finds 1 ⟨0, .ofMillis 20_500, .ofMillis 20_000⟩ :=
    ⟨nofun, by decide +kernel⟩
  exact hnever overtaken 1 _ hfinds 20_200_000_000 rfl (by decide +kernel)

end Watch

end InterruptStress
