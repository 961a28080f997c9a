import InterruptStress.Proofs.Supervision.Answers
import InterruptStress.Proofs.Supervision.Verdict

/-!
# What a verdict leads to

A controller starts its watchdog with the first step that it counts, and only then
(`Linked.Watched`), so what a watchdog reports are steps that were counted.  Steps may still be
counted until the verdict is taken.  From then on the controller sends one exit and nothing else,
counts nothing, and learns of deaths only (`Linked.Forced`), until the target has disconnected or
gone, or the grace period is over; its report does not pass the run, however the target ends
(`Linked.hangPath_of_launch`).
-/

namespace InterruptStress

/-- The steps that a report tells of were counted, and there was one at least. -/
def HangReport.Within (report : HangReport) (steps : Nat) : Prop :=
  ∃ n, report.steps = .ofNat n ∧ 1 ≤ n ∧ n ≤ steps

theorem HangReport.Within.mono {report : HangReport} {steps more : Nat} (h : report.Within steps)
    (hle : steps ≤ more) : report.Within more := by
  obtain ⟨n, hsteps, hpos, hn⟩ := h
  exact ⟨n, hsteps, hpos, hn.trans hle⟩

/-- So does its count, as long as the counts do not wrap around. -/
theorem HangReport.Within.bounds {report : HangReport} {steps : Nat} (h : report.Within steps)
    (hsize : steps < UInt64.size) : 1 ≤ report.steps ∧ report.steps ≤ .ofNat steps := by
  obtain ⟨n, hsteps, hpos, hn⟩ := h
  rw [hsteps]
  exact ⟨(UInt64.ofNat_le_iff_le (by decide) (hn.trans_lt hsize)).mpr hpos,
    (UInt64.ofNat_le_iff_le (hn.trans_lt hsize) hsize).mpr hn⟩

namespace WatchPhase

/-- What a watchdog knows of the steps that were counted. -/
def Knows (steps : Nat) : WatchPhase → Prop
  | .off => steps = 0
  | .spawned => 1 ≤ steps
  | .watching w => 1 ≤ w.last ∧ w.last ≤ steps
  | .hung report => report.Within steps
  | .over => True

/-- What a step makes of the watchdog. -/
def afterStep : WatchPhase → WatchPhase
  | .off => .spawned
  | watch => watch

/-- A watchdog is started. -/
def starts (before after : WatchPhase) : Bool :=
  match before, after with
  | .off, .spawned => true
  | _, _ => false

theorem starts_self (watch : WatchPhase) : watch.starts watch = false := by
  cases watch <;> rfl

variable {watch : WatchPhase} {steps : Nat}

theorem starts_of_ne {after : WatchPhase} (h : after ≠ .spawned) : watch.starts after = false := by
  unfold starts
  split
  · exact absurd rfl h
  · rfl

theorem Knows.step (h : watch.Knows steps) : watch.afterStep.Knows (steps + 1) := by
  cases watch with
  | off => exact Nat.le_add_left 1 steps
  | spawned => exact Nat.le_succ_of_le h
  | watching w => exact ⟨h.1, Nat.le_succ_of_le h.2⟩
  | hung report => exact HangReport.Within.mono h (Nat.le_succ steps)
  | _ => trivial

/-- A watchdog that is there has been started by a step. -/
theorem Knows.pos (h : watch.Knows steps) (hoff : watch ≠ .off) (hover : watch ≠ .over) :
    1 ≤ steps := by
  cases watch with
  | off => exact absurd rfl hoff
  | spawned => exact h
  | watching w => exact h.1.trans h.2
  | hung report =>
    obtain ⟨n, -, hpos, hle⟩ := h
    exact hpos.trans hle
  | _ => exact absurd rfl hover

/-- The first step starts one, and no other does. -/
theorem Knows.starts_afterStep (h : watch.Knows steps) (hover : watch ≠ .over) :
    min 1 steps + (watch.starts watch.afterStep).toNat = min 1 (steps + 1) := by
  by_cases hoff : watch = .off
  · subst hoff
    obtain rfl : steps = 0 := h
    rfl
  · have hpos := h.pos hoff hover
    have hsame : watch.afterStep = watch := by
      cases watch <;> first | rfl | exact absurd rfl hoff
    rw [hsame, starts_self, Bool.toNat_false]
    omega

end WatchPhase

theorem Controller.watch_step (c : Controller) (thread : ThreadId) (location : Location)
    (suspended : Bool) :
    (c.handle (.step thread location suspended)).watch = c.watch.afterStep := by
  simp only [handle]
  cases c.watch <;> rfl

namespace Linked

variable {s s' : Linked} {m : LinkedMove} {history : List (Linked × LinkedMove)}

/-! ## The watchdog -/

/-- How many watchdogs the controller has started. -/
def watchdogs (history : List (Linked × LinkedMove)) : Nat :=
  history.countP fun e => (e.1.step e.2).any fun after =>
    e.1.controller.watch.starts after.controller.watch

theorem watchdogs_cons (hs : s.step m = some s') :
    watchdogs ((s, m) :: history) =
      watchdogs history + (s.controller.watch.starts s'.controller.watch).toNat := by
  simp only [watchdogs, List.countP_cons, hs, Option.any_some]
  cases s.controller.watch.starts s'.controller.watch <;> rfl

/-- What every state has of the watchdog, given how many steps were received. -/
structure Watched (count : Nat) (c : Controller) : Prop where
  knows : c.watch.Knows c.steps
  hang : ∀ report, c.hang = some report → report.Within c.steps
  /-- Until the verdict is taken. -/
  awake : c.phase.isOpen = true → c.watch ≠ .over ∧ c.hang = none
  counted : c.steps ≤ count

theorem watched_start (settings : ControllerSettings) : Watched 0 (.start settings) where
  knows := rfl
  hang := nofun
  awake _ := ⟨nofun, rfl⟩
  counted := Nat.le_refl 0

variable {c c' : Controller} {link link' : Link} {count more : Nat}

/-- A move by which the watchdog is left as it is. -/
theorem Watched.frame (h : Watched count c) (hwatch : c'.watch = c.watch)
    (hsteps : c'.steps = c.steps) (hhang : c'.hang = c.hang)
    (hopen : c'.phase.isOpen = true → c.phase.isOpen = true) : Watched (count + more) c' where
  knows := by
    rw [hwatch, hsteps]
    exact h.knows
  hang := by
    rw [hhang, hsteps]
    exact h.hang
  awake hopen' := by
    rw [hwatch, hhang]
    exact h.awake (hopen hopen')
  counted := by
    rw [hsteps]
    exact h.counted.trans (Nat.le_add_right _ _)

/-- A move of the watchdog, or one that takes its verdict or ends it. -/
theorem Watched.watch (h : Watched count c) (hsteps : c'.steps = c.steps)
    (hknows : c'.watch.Knows c.steps)
    (hhang : ∀ report, c'.hang = some report → report.Within c.steps)
    (hopen : c'.phase.isOpen = true → c'.watch ≠ .over ∧ c'.hang = none) : Watched count c' where
  knows := hsteps ▸ hknows
  hang := hsteps ▸ hhang
  awake := hopen
  counted := hsteps ▸ h.counted

/-- A step is counted. -/
theorem Watched.step (h : Watched count c) (hphase : c.phase = .listening)
    (thread : ThreadId) (location : Location) (suspended : Bool) :
    Watched (count + 1) (c.handle (.step thread location suspended)) := by
  obtain ⟨hover, hhang⟩ := h.awake (by rw [hphase]; rfl)
  refine ⟨?_, fun report hreport => ?_, fun _ => ⟨?_, hhang⟩, Nat.succ_le_succ h.counted⟩
  · rw [Controller.watch_step]
    exact h.knows.step
  · exact (h.hang report hreport).mono (Nat.le_succ _)
  · rw [Controller.watch_step]
    cases hwatch : c.watch <;> first | exact absurd hwatch hover | nofun

theorem watched_handle (h : Watched count c) (hphase : c.phase = .listening)
    (event : TargetEvent) :
    Watched (count + [event].countP TargetEvent.isStep) (c.handle event) := by
  have hlistening (phase : ControllerPhase) : phase.isOpen = true → c.phase.isOpen = true := by
    rw [hphase]
    exact fun _ => rfl
  cases event with
  | step thread location suspended => exact h.step hphase thread location suspended
  | threadDeath thread =>
    simp only [Controller.handle]
    split <;> exact h.frame rfl rfl rfl (hlistening _)
  | _ => exact h.frame rfl rfl rfl (hlistening _)

theorem watched_transition {m : ControllerMove} (h : Watched count s.controller)
    (ht : s.controller.Transition s.link m c link) :
    Watched (count + (s.eventReceived (.controller m)).countP TargetEvent.isStep) c := by
  cases ht with
  | take writing event rest hphase hq =>
    have hreceived : s.eventReceived (.controller (.receive writing)) = [event] := by
      simp [eventReceived, hq]
    have hlogged : Watched count { s.controller with
      log := s.controller.log.record event writing } := ⟨h.1, h.2, h.3, h.4⟩
    rw [hreceived]
    exact watched_handle hlogged hphase event
  | takeLast writing event rest hphase hq =>
    cases event with
    | disconnected => exact h.frame rfl rfl rfl (fun hopen => by cases hopen)
    | _ => exact h.frame rfl rfl rfl id
  | takeNone | force | leave | giveUp => exact h.frame rfl rfl rfl (fun hopen => by cases hopen)
  | send command rest hphase | startGenerator rest hphase =>
    exact h.frame rfl rfl rfl (fun _ => by rw [hphase]; rfl)
  | finish => exact h.watch rfl trivial h.hang fun hopen => by cases hopen
  | beginWatch now hwatch =>
    have hknows := h.knows
    rw [hwatch] at hknows
    exact h.watch rfl ⟨hknows, Nat.le_refl _⟩ h.hang fun hopen => ⟨by simp, (h.awake hopen).2⟩
  | look now w w' hwatch hmoved =>
    have hpos := h.knows.pos (by simp [hwatch]) (by simp [hwatch])
    have hlast : w'.last = s.controller.steps := by
      unfold Watchdog.look at hmoved
      split at hmoved
      · cases hmoved
      · rw [← Except.ok.inj hmoved]
    exact h.watch rfl ⟨hlast ▸ hpos, hlast.le⟩ h.hang fun hopen => ⟨by simp, (h.awake hopen).2⟩
  | bark now w report hwatch hstill =>
    have hpos := h.knows.pos (by simp [hwatch]) (by simp [hwatch])
    have hsteps : report.steps = .ofNat s.controller.steps := by
      unfold Watchdog.look at hstill
      split at hstill
      · rw [← Except.error.inj hstill]
      · cases hstill
    exact h.watch rfl ⟨_, hsteps, hpos, Nat.le_refl _⟩ h.hang
      fun hopen => ⟨by simp, (h.awake hopen).2⟩
  | takeVerdict report hphase hwatch =>
    have hknows := h.knows
    rw [hwatch] at hknows
    refine h.watch rfl trivial (fun report' hreport => ?_) fun hopen => by cases hopen
    obtain rfl := Option.some.inj hreport
    exact hknows
  | signal | missSignal | pause => exact h.frame rfl rfl rfl id

theorem watched_of_launch {settings : ControllerSettings}
    (hrun : Execution step (launch settings) history s) :
    Watched ((received history).countP TargetEvent.isStep) s.controller := by
  induction hrun with
  | nil => exact watched_start settings
  | cons _ hs ih =>
    rw [received_cons, List.countP_append]
    cases transition_of_step hs with
    | controller m c link ht => exact watched_transition ih ht
    | _ => exact ih.frame rfl rfl rfl id

/-- A watchdog is started by the first step that is counted, and by nothing else. -/
theorem watchdogs_transition {m : ControllerMove} (h : Watched count c)
    (ht : c.Transition link m c' link') :
    min 1 c.steps + (c.watch.starts c'.watch).toNat = min 1 c'.steps := by
  have hsame (hwatch : c'.watch = c.watch ∨ c'.watch ≠ .spawned) (hsteps : c'.steps = c.steps) :
      min 1 c.steps + (c.watch.starts c'.watch).toNat = min 1 c'.steps := by
    have hnone : c.watch.starts c'.watch = false := by
      rcases hwatch with hwatch | hspawned
      · rw [hwatch, WatchPhase.starts_self]
      · exact WatchPhase.starts_of_ne hspawned
    rw [hnone, hsteps]
    rfl
  cases ht with
  | take writing event rest hphase =>
    cases event with
    | step thread location suspended =>
      obtain ⟨hover, -⟩ := h.awake (by rw [hphase]; rfl)
      rw [Controller.watch_step]
      exact h.knows.starts_afterStep hover
    | threadDeath thread =>
      refine hsame (.inl ?_) ?_ <;> simp only [Controller.handle] <;> split <;> rfl
    | _ => exact hsame (.inl rfl) rfl
  | takeLast writing event => cases event <;> exact hsame (.inl rfl) rfl
  | beginWatch | look | bark | takeVerdict | finish => exact hsame (.inr (by simp)) rfl
  | _ => exact hsame (.inl rfl) rfl

theorem watchdogs_of_launch {settings : ControllerSettings}
    (hrun : Execution step (launch settings) history s) :
    watchdogs history = min 1 s.controller.steps := by
  induction hrun with
  | nil => rfl
  | @cons history s s' m hrun hs ih =>
    rw [watchdogs_cons hs, ih]
    cases transition_of_step hs with
    | controller m c link ht => exact watchdogs_transition (watched_of_launch hrun) ht
    | _ => rw [WatchPhase.starts_self]; rfl

/-! ## After the verdict -/

/-- What has become of a controller since it has taken a verdict. -/
structure Forced (before : Controller) (later : List (Linked × LinkedMove)) (c : Controller) :
    Prop where
  bound : c.phase.isForcing = true ∨ c.phase.isLeaving = true
  hang : c.hang = before.hang
  steps : c.steps = before.steps
  exit : c.exit = (lastExit (received later)).or before.exit
  told : offered later = if c.phase = .forcing then [] else [.exit TargetExit.forcedCode]

variable {before : Controller} {later : List (Linked × LinkedMove)}

theorem forced_start (hphase : before.phase = .forcing) : Forced before [] before where
  bound := .inl (by rw [hphase]; rfl)
  hang := rfl
  steps := rfl
  exit := rfl
  told := by rw [if_pos hphase]; rfl

/-- A move by which nothing is received and no exit is sent. -/
theorem Forced.frame (h : Forced before later s.controller)
    (hreceived : s.eventReceived m = []) (hoffered : s.commandOffered m = [])
    (hphase : c.phase = s.controller.phase ∨
      s.controller.phase ≠ .forcing ∧ c.phase.isLeaving = true)
    (hhang : c.hang = s.controller.hang) (hsteps : c.steps = s.controller.steps)
    (hexit : c.exit = s.controller.exit) : Forced before ((s, m) :: later) c where
  bound := by
    rcases hphase with hsame | ⟨-, hleaving⟩
    · rw [hsame]
      exact h.bound
    · exact .inr hleaving
  hang := hhang.trans h.hang
  steps := hsteps.trans h.steps
  exit := by rw [received_cons_of_nil hreceived, hexit, h.exit]
  told := by
    rw [offered_cons_of_nil hoffered, h.told]
    rcases hphase with hsame | ⟨hother, hleaving⟩
    · rw [hsame]
    · rw [if_neg hother, if_neg (by rintro hforcing; rw [hforcing] at hleaving; cases hleaving)]

theorem forced_transition {m : ControllerMove} (h : Forced before later s.controller)
    (ht : s.controller.Transition s.link m c link) :
    Forced before ((s, .controller m) :: later) c := by
  have hclosed {phase : ControllerPhase} (hphase : s.controller.phase = phase)
      (hopen : phase.isOpen = true) : False := by
    have hbound := h.bound
    rw [hphase, ControllerPhase.isForcing_of_isOpen hopen,
      ControllerPhase.isLeaving_of_isOpen hopen] at hbound
    simp at hbound
  cases ht with
  | take writing event rest hphase => exact (hclosed hphase rfl).elim
  | send command rest hphase | startGenerator rest hphase => exact (hclosed hphase rfl).elim
  | takeVerdict report hphase => exact (hclosed hphase rfl).elim
  | takeLast writing event rest hphase hq =>
    have hreceived : s.eventReceived (.controller (.receive writing)) = [event] := by
      simp [eventReceived, hq]
    have hnext := Controller.phase_drain (c := { s.controller with
      log := s.controller.log.record event writing }) event hphase
    have htold := h.told
    rw [hphase, if_neg (by simp)] at htold
    refine ⟨?_, (Controller.hang_drain event).trans h.hang, ?_, ?_, ?_⟩
    · rcases hnext with ⟨-, hnext⟩ | ⟨-, hnext⟩ <;> rw [hnext]
      · exact .inr rfl
      · exact .inl rfl
    · cases event <;> exact h.steps
    · have hexit := h.exit
      rw [received_cons, hreceived, lastExit_concat, Option.or_assoc, ← hexit]
      cases event <;> rfl
    · rw [offered_cons_of_nil rfl, htold]
      rcases hnext with ⟨-, hnext⟩ | ⟨-, hnext⟩ <;> rw [hnext, if_neg (by simp)]
  | takeNone writing hphase hq =>
    have hother : s.controller.phase ≠ .forcing := by
      rcases hphase with hphase | hphase <;> simp [hphase]
    exact h.frame (by simp [eventReceived, hq]) rfl (.inr ⟨hother, rfl⟩) rfl rfl rfl
  | force hphase =>
    have htold := h.told
    rw [if_pos hphase] at htold
    refine ⟨.inl rfl, h.hang, h.steps, ?_, ?_⟩
    · rw [received_cons_of_nil rfl]
      exact h.exit
    · rw [offered_cons, htold, commandOffered, hphase]
      rfl
  | leave hphase | finish hphase =>
    exact h.frame rfl (by simp [commandOffered, hphase]) (.inr ⟨by simp [hphase], rfl⟩) rfl rfl rfl
  | giveUp hphase => exact h.frame rfl rfl (.inr ⟨by simp [hphase], rfl⟩) rfl rfl rfl
  | beginWatch | look | bark | signal | missSignal => exact h.frame rfl rfl (.inl rfl) rfl rfl rfl
  | pause _ _ _ _ _ _ hm =>
    rcases hm with ⟨rfl, -⟩ | ⟨rfl, -⟩ <;> exact h.frame rfl rfl (.inl rfl) rfl rfl rfl

theorem forced_of_run {v : Linked} (hphase : v.controller.phase = .forcing)
    (hrun : Execution step v later s) : Forced v.controller later s.controller := by
  induction hrun with
  | nil => exact forced_start hphase
  | cons _ hs ih =>
    cases transition_of_step hs with
    | controller m c link ht => exact forced_transition ih ht
    | _ => exact ih.frame rfl rfl (.inl rfl) rfl rfl rfl

/-- What a verdict leads to that was taken in a state `v`, on the way to a state `s`. -/
structure Condemned (settings : ControllerSettings) (earlier later : List (Linked × LinkedMove))
    (v s : Linked) : Prop where
  /-- What was received before it has been answered; one exit is sent after it, and nothing else. -/
  sent : offered (later ++ (v, .controller .takeVerdict) :: earlier) =
    (received earlier).flatMap (TargetEvent.answers settings.suspend) ++
      if s.controller.phase = .forcing then [] else [.exit TargetExit.forcedCode]
  /-- What is received after it: the events that waited and that are said, up to the first
  disconnect, to the last event of a target that has gone, or to the end of the grace period. -/
  heard : Stream v.link.events.queue later s
  /-- The steps before it are counted, and the last death is told of, be it before or after. -/
  reported : ∃ report, v.controller.watch = .hung report ∧
    report.Within ((received earlier).countP TargetEvent.isStep) ∧
    ∀ runId, s.controller.report runId =
        ⟨runId, settings.mode, .ofNat ((received earlier).countP TargetEvent.isStep), some report,
          (lastExit (received later)).or (lastExit (received earlier)), s.controller.remoteResult⟩ ∧
      (s.controller.report runId).passed = false
  bounded : (received earlier).countP TargetEvent.isStep < UInt64.size →
    ∀ runId, ∃ report, (s.controller.report runId).hang = some report ∧ 1 ≤ report.steps ∧
      report.steps ≤ (s.controller.report runId).steps
  /-- Nothing is waited for any more but the end of the grace period. -/
  turn : s.controller.phase = .finished ∨
    ∃ m, s.isTurn (.controller m) = true ∧ (s.step (.controller m)).isSome = true

variable {settings : ControllerSettings} {earlier : List (Linked × LinkedMove)}

theorem verdict_of_step {v v' : Linked} (h : v.step (.controller .takeVerdict) = some v') :
    ∃ report, v.controller.phase = .listening ∧ v.controller.watch = .hung report ∧
      v' = ⟨{ v.controller with phase := .forcing, watch := .over, hang := some report },
        v.link⟩ := by
  cases transition_of_step h with
  | controller m c link ht =>
    cases ht with
    | takeVerdict report hphase hwatch => exact ⟨report, hphase, hwatch, rfl⟩
    | pause _ _ _ _ _ _ hm => rcases hm with ⟨hm, -⟩ | ⟨hm, -⟩ <;> cases hm

/-- A controller that has taken a verdict does not listen any more. -/
theorem Forced.turn (h : Forced before later s.controller)
    (hrun : Execution step (launch settings) history s) :
    s.controller.phase = .finished ∨
      ∃ m, s.isTurn (.controller m) = true ∧ (s.step (.controller m)).isSome = true := by
  by_cases hend : s.controller.phase = .finished
  · exact .inl hend
  · rcases turn_of_launch hrun hend with ⟨hphase, -⟩ | hturn
    · have hbound := h.bound
      rw [hphase] at hbound
      rcases hbound with hforcing | hleaving <;> contradiction
    · exact .inr hturn

theorem condemned_of_launch {v : Linked}
    (hrun : Execution step (launch settings)
      (later ++ (v, .controller .takeVerdict) :: earlier) s) :
    Condemned settings earlier later v s := by
  obtain ⟨v', hearlier, hverdict, hlater⟩ := hrun.split
  obtain ⟨report, hphase, hwatch, hv'⟩ := verdict_of_step hverdict
  have hwatched := watched_of_launch hearlier
  have hcalm : verdictTaken earlier = false := by
    rw [← hang_isSome_of_launch hearlier, (hwatched.awake (by rw [hphase]; rfl)).2]
    rfl
  have hcourse := course_of_launch hearlier hcalm
  have hforced := forced_of_run (by rw [hv']) hlater
  have hwithin : report.Within ((received earlier).countP TargetEvent.isStep) := by
    have hknows := hwatched.knows
    rwa [hwatch, hcourse.steps] at hknows
  have hreport (runId : String) : s.controller.report runId =
      ⟨runId, settings.mode, .ofNat ((received earlier).countP TargetEvent.isStep), some report,
        (lastExit (received later)).or (lastExit (received earlier)),
        s.controller.remoteResult⟩ := by
    rw [Controller.report, settings_of_launch hrun, hforced.steps, hforced.hang, hforced.exit, hv']
    simp only [hcourse.steps, hcourse.exit]
  refine ⟨?_, ?_, ⟨report, hwatch, hwithin, fun runId => ⟨hreport runId, ?_⟩⟩, ?_,
    hforced.turn hrun⟩
  · have hanswered := hcourse.answered
    rw [hphase, settings_of_launch hearlier] at hanswered
    rw [offered_append, offered_cons_of_nil rfl, hforced.told, ← hanswered]
    simp [ControllerPhase.acts]
  · obtain ⟨-, -, hreceiving⟩ := (stream_of_launch hearlier).listening (by rw [hphase]; rfl)
    have hheard := stream_of_run (by rw [hv']; rfl) (by rw [hv']; exact hreceiving)
      (by simp [hv']) hlater
    rwa [hv'] at hheard
  · refine eq_false_of_ne_true fun hpassed => ?_
    have hnone := ((RunReport.passed_iff _).mp hpassed).1
    rw [hreport] at hnone
    cases hnone
  · intro hsize runId
    rw [hreport]
    exact ⟨report, rfl, hwithin.bounds hsize⟩

/-- What a watchdog does to a run. -/
structure HangPath (settings : ControllerSettings) (history : List (Linked × LinkedMove))
    (s : Linked) : Prop where
  /-- One is started with the first step that is counted, and no other. -/
  watchdogs : watchdogs history = min 1 s.controller.steps
  counted : s.controller.steps ≤ (received history).countP TargetEvent.isStep
  stepless : (received history).countP TargetEvent.isStep = 0 →
    Linked.watchdogs history = 0 ∧ s.controller.hang = none
  spared : verdictTaken history = false →
    s.controller.hang = none ∧ ∀ code, .exit code ∉ offered history
  condemned : ∀ later v earlier, history = later ++ (v, .controller .takeVerdict) :: earlier →
    Condemned settings earlier later v s
  /-- What is sent is what the target is given, unless it closes its end. -/
  given : (taken history ++ s.link.commands.queue).filter (!·.isInterrupt) <+: offered history
  whole : closed history = false →
    (taken history ++ s.link.commands.queue).filter (!·.isInterrupt) = offered history
  turns : turns history ≤ 4 * (said history).length + 8

/-- No event is answered with an exit. -/
theorem exit_not_mem_answers (policy : SuspendPolicy) (event : TargetEvent) (code : Int32) :
    .exit code ∉ event.answers policy := by
  cases event with
  | step thread location suspended => cases suspended <;> simp [TargetEvent.answers]
  | _ => simp [TargetEvent.answers]

/-- Whatever the settings, the events and their order, whenever the watchdog looks and its verdict
is taken, and whatever the generators and the target do. -/
theorem hangPath_of_launch (hrun : Execution step (launch settings) history s) :
    HangPath settings history s := by
  have hwatched := watched_of_launch hrun
  obtain ⟨hgiven, hwhole⟩ := delivery_of_launch hrun
  refine ⟨watchdogs_of_launch hrun, hwatched.counted, fun hnone => ⟨?_, ?_⟩, fun hcalm => ⟨?_, ?_⟩,
    ?_, hgiven, hwhole, ?_⟩
  · have hcounted := hwatched.counted
    rw [watchdogs_of_launch hrun]
    omega
  · refine Option.eq_none_iff_forall_not_mem.mpr fun report hreport => ?_
    obtain ⟨n, -, hpos, hle⟩ := hwatched.hang report hreport
    have hcounted := hwatched.counted
    omega
  · exact (course_of_launch hrun hcalm).hang
  · intro code hmem
    have hmem := List.mem_append_left
      (s.controller.phase.acts.filterMap ControllerAct.command?) hmem
    rw [(course_of_launch hrun hcalm).answered, List.mem_flatMap] at hmem
    obtain ⟨event, -, hanswer⟩ := hmem
    exact exit_not_mem_answers _ event code hanswer
  · rintro later v earlier rfl
    exact condemned_of_launch hrun
  · exact turns_le_of_launch hrun

/-- A step is counted after the watchdog has found a hang and before the controller takes the
verdict; another comes after it and is not counted; the target then ends well. -/
theorem hangPath_of_launch_race :
    ∃ earlier v later s, Execution step
        (launch ⟨.precise, .ofMillis 100, .thread, .ofMillis 1, .ofMillis 5000⟩)
        (later ++ (v, .controller .takeVerdict) :: earlier) s ∧
      s.controller.phase = .finished ∧
      (received earlier).countP TargetEvent.isStep = 2 ∧
      received later = [.step ⟨7⟩ ⟨"run", 1⟩ true, .death ⟨0, none, none⟩, .disconnected] ∧
      offered (later ++ (v, .controller .takeVerdict) :: earlier) =
        [.createStepRequest ⟨7⟩ .thread, .resume, .resume, .resume,
          .exit TargetExit.forcedCode] ∧
      ∃ hang, hang.steps = 1 ∧
        s.controller.report "one" =
          ⟨"one", .precise, 2, some hang, some ⟨0, none, none⟩, none⟩ ∧
        (s.controller.report "one").passed = false := by
  let line : TargetEvent := .step ⟨7⟩ ⟨"run", 1⟩ true
  let take : LinkedMove := .controller (.receive default)
  let act : LinkedMove := .controller .act
  have hearlier := Execution.of_replay (.nil : Execution step
      (launch ⟨.precise, .ofMillis 100, .thread, .ofMillis 1, .ofMillis 5000⟩) [] _)
    [.say (.started ⟨7⟩), take, act, act, .say line, take, act, .controller (.beginWatch 5),
      .controller (.look 100000005), .say line, take, act] rfl
  have hrun := hearlier.join (m := .controller .takeVerdict) rfl (Execution.of_replay .nil
    [.say line, act, take, .say (.death ⟨0, none, none⟩), take, .say .disconnected, take, act, act]
    rfl)
  have hcondemned := (hangPath_of_launch hrun).condemned _ _ _ rfl
  obtain ⟨hang, hwatch, -, hreport⟩ := hcondemned.reported
  obtain rfl := WatchPhase.hung.inj hwatch
  exact ⟨_, _, _, _, hrun, rfl, rfl, rfl, hcondemned.sent, _, rfl, hreport "one"⟩

end Linked

end InterruptStress
