import InterruptStress.Proofs.Target.Served

/-!
# What passes through a target's pipes

`Serves` says what can have gone through the pipes of a served target, whatever pieces its input
comes in, whenever the input is closed, and whatever the target does meanwhile, so that any events
may wait and any commands be taken at any time.  Commands that are given to the target are those of
its input, in order, and none is forgotten while commands are taken (`Serves.heard`); what is
written are the events before the first disconnect, and the code is the last death's among them
(`Serves.told`).  With the reader at the other end this is all that two processes hear of each
other (`Pipe.delivers`).  A dialogue that is carried out is served (`Serves.take`).
-/

namespace InterruptStress

open Text (LineEnds)

/-! ## Events before the disconnect -/

namespace Pipe

variable {taken : List TargetEvent}

theorem written_append (h : .disconnected ∉ taken) (events : List TargetEvent) :
    written (taken ++ events) = taken ++ written events := by
  refine List.takeWhile_append_of_pos fun event hmem => ?_
  simp only [bne_iff_ne]
  rintro rfl
  exact h hmem

theorem written_eq_self (h : .disconnected ∉ taken) : written taken = taken := by
  have hall := written_append h []
  have hnil : written [] = [] := rfl
  rwa [hnil, List.append_nil] at hall

/-- Nothing behind the disconnect is written. -/
theorem written_append_of_mem (h : .disconnected ∈ taken) (events : List TargetEvent) :
    written (taken ++ events) = written taken := by
  obtain ⟨before, after, rfl, hbefore⟩ := List.eq_append_cons_of_mem h
  rw [List.append_assoc, written_append hbefore, written_append hbefore]
  rfl

theorem written_append_disconnected (h : .disconnected ∉ taken) :
    written (taken ++ [.disconnected]) = taken := by
  rw [written_append h]
  exact List.append_nil taken

theorem written_prefix_append (taken events : List TargetEvent) :
    written taken <+: written (taken ++ events) := by
  by_cases h : .disconnected ∈ taken
  · rw [written_append_of_mem h]
  · rw [written_append h, written_eq_self h]
    exact List.prefix_append _ _

/-- The exit that an event tells of. -/
def exit? : TargetEvent → Option TargetExit
  | .death exit => some exit
  | _ => none

/-- The exit code is that of the last death that is written. -/
theorem exitCode_eq (events : List TargetEvent) :
    exitCode events =
      (((written events).filterMap exit?).getLast?.map TargetExit.code).getD
        TargetExit.forcedCode := by
  have hfold (told : List TargetEvent) (code : Int32) :
      told.foldl ServedTarget.codeAfter code =
        ((told.filterMap exit?).getLast?.map TargetExit.code).getD code := by
    induction told generalizing code with
    | nil => rfl
    | cons event told ih =>
      rw [List.foldl_cons, ih]
      cases event with
      | death exit =>
        have hcons : (TargetEvent.death exit :: told).filterMap exit? =
            exit :: told.filterMap exit? :=
          rfl
        rw [hcons, List.getLast?_cons]
        cases (told.filterMap exit?).getLast? <;> rfl
      | started | step | threadDeath | disconnected => rfl
  rw [← hfold]
  rfl

end Pipe

/-! ## Traffic -/

/-- What has gone through the pipes of a target. -/
structure Traffic where
  input : List UInt8
  /-- No more input comes. -/
  closed : Bool
  /-- The commands that the target was given. -/
  commands : List ControlCommand
  /-- The events that were taken from the target. -/
  taken : List TargetEvent
  output : List UInt8

def Traffic.none : Traffic := ⟨[], false, [], [], []⟩

/-- The commands that reading has queued. -/
def LineDialogue.queuedSince (d d' : LineDialogue) : List ControlCommand :=
  d'.served.commands.queue.drop d.served.commands.queue.length

theorem LineDialogue.write_eq (d : LineDialogue) (piece : List UInt8) :
    d.write piece =
      { d with
        served := (d.served.feed (d.rest ++ piece)).1
        rest := (d.served.feed (d.rest ++ piece)).2 } :=
  rfl

/-- The end of the input is the end of its last line. -/
theorem LineDialogue.close_eq (d : LineDialogue) :
    d.close =
      { d with
        served := d.served.withCommands (Pipe.afterLine d.served.commands d.rest).hangUp
        rest := [] } := by
  cases hrest : d.rest with
  | nil =>
    simp only [close, hrest, Pipe.afterLine_nil]
    rfl
  | cons b rest =>
    simp only [close, hrest, ServedTarget.read_eq]
    rfl

theorem LineDialogue.receiving_write (d : LineDialogue) (piece : List UInt8) :
    (d.write piece).served.commands.receiving = d.served.commands.receiving := by
  obtain ⟨c', passed, hserved, hfeed⟩ := d.served.feed_spec (d.rest ++ piece)
  rw [write_eq, hserved]
  exact hfeed.receiving

theorem LineDialogue.receiving_close (d : LineDialogue) :
    d.close.served.commands.receiving = d.served.commands.receiving := by
  rw [close_eq]
  exact Pipe.receiving_afterLine

/-- What can have gone through the pipes of a target, and what has become of it. -/
inductive Serves : Traffic → LineDialogue → Prop where
  | start (now : Nat) (clocked : ClockedTarget)
      (hopen : clocked.target.link.commands.sending = true) :
      Serves .none ⟨⟨clocked, TargetExit.forcedCode, false⟩, now, []⟩
  | meanwhile (t : Traffic) (d : LineDialogue) (now : Nat) (clocked : ClockedTarget)
      (h : Serves t d) (hclocked : d.served.clocked.Follows clocked) :
      Serves t { d with now, served := { d.served with clocked } }
  | input (t : Traffic) (d : LineDialogue) (piece : List UInt8) (h : Serves t d)
      (hopen : t.closed = false) :
      Serves
        { t with
          input := t.input ++ piece
          commands := t.commands ++ d.queuedSince (d.write piece) }
        (d.write piece)
  | closeInput (t : Traffic) (d : LineDialogue) (h : Serves t d)
      (hopen : t.closed = false) :
      Serves
        { t with closed := true, commands := t.commands ++ d.queuedSince d.close } d.close
  | write (t : Traffic) (d : LineDialogue) (event : Option TargetEvent) (served : ServedTarget)
      (h : Serves t d) (hwrite : d.served.write = some (event, served)) :
      Serves
        { t with
          taken := t.taken ++ d.served.events.queue.take 1
          output := t.output ++ event.toList.flatMap Pipe.line }
        { d with served }

namespace Serves

/-- A target that has just been launched is served from the start. -/
theorem launch (settings : WorkerSettings) : Serves .none (.start settings) :=
  .start 0 (.launch settings) rfl

variable {t : Traffic} {d d' : LineDialogue}

/-- The next move of a served target is one that it may make meanwhile. -/
theorem moveNow (h : Serves t d) (hmove : d.moveNow = some d') : Serves t d' := by
  obtain ⟨clocked, hclocked, rfl⟩ := Option.map_eq_some_iff.mp hmove
  refine .meanwhile t d d.now clocked h ?_
  cases hturn : d.served.clocked.turn d.now with
  | some turned =>
    rw [hturn] at hclocked
    obtain rfl := Option.some.inj hclocked
    exact ClockedTarget.follows_of_turn hturn
  | none =>
    rw [hturn] at hclocked
    exact ClockedTarget.follows_of_expire hclocked

/-- Time may pass meanwhile, up to when something is due. -/
theorem moveOrWait (h : Serves t d) (hmove : d.moveOrWait = some d') : Serves t d' := by
  cases hnow : d.moveNow with
  | some moved =>
    rw [LineDialogue.moveOrWait, hnow] at hmove
    exact Option.some.inj hmove ▸ h.moveNow hnow
  | none =>
    rw [LineDialogue.moveOrWait, hnow] at hmove
    obtain ⟨due, -, rfl⟩ := Option.map_eq_some_iff.mp hmove
    exact .meanwhile t d (max d.now due) d.served.clocked h (.refl _)

/-- The schedule by which a dialogue waits for an event is one of those that there may be. -/
theorem receive (h : Serves t d) :
    ∃ taken, Serves
      { t with taken, output := t.output ++ d.receive.1.toList.flatMap Pipe.line } d.receive.2 := by
  let found (d : LineDialogue) : Bool := d.served.ended || d.served.write.isSome
  have hwaited : Serves t (exhaustUntil found LineDialogue.moveOrWait patience d) := by
    refine exhaust_induction (fun d d' hd hmove => ?_) patience h
    split at hmove
    · cases hmove
    · exact hd.moveOrWait hmove
  rw [LineDialogue.receive]
  split
  · next event served hwrite => exact ⟨_, .write t _ event served hwaited hwrite⟩
  · exact ⟨t.taken, by simpa using hwaited⟩

/-- So what is received in a dialogue is what its target has written. -/
theorem take (h : Serves t d) (n : Nat) :
    ∃ taken, Serves
      { t with taken, output := t.output ++ (d.take n).1.flatMap Pipe.line } (d.take n).2 := by
  induction n generalizing t d with
  | zero => exact ⟨t.taken, by simpa [LineDialogue.take] using h⟩
  | succ n ih =>
    obtain ⟨taken, hreceived⟩ := h.receive
    cases hreceive : d.receive with
    | mk event received =>
      rw [hreceive] at hreceived
      cases event with
      | none => exact ⟨taken, by simpa [LineDialogue.take, hreceive] using hreceived⟩
      | some event =>
        obtain ⟨taken', htaken⟩ := ih hreceived
        exact ⟨taken', by simpa [LineDialogue.take, hreceive] using htaken⟩

/-! ### Input -/

/-- The commands that a target was given are those of its input so far, and those that it still
will be given are still to come of its input.  A target that takes no more commands has missed
some. -/
structure Heard (t : Traffic) (d : LineDialogue) : Prop where
  whole : LineEnds.bytes.lineFeed ∉ d.rest
  closed : t.closed = true → d.served.commands.sending = false
  upTo : ∀ more, (t.closed = true → more = []) → t.commands <+: Pipe.commands (t.input ++ more)
  all : d.served.commands.receiving = true → ∀ more, (t.closed = true → more = []) →
    Pipe.commands (t.input ++ more) = t.commands ++ Pipe.pending d.served.commands (d.rest ++ more)

/-- A piece of input is read together with the unfinished line in front of it. -/
theorem Heard.input (h : Heard t d) (hopen : t.closed = false) (piece : List UInt8) :
    Heard
      { t with
        input := t.input ++ piece
        commands := t.commands ++ d.queuedSince (d.write piece) }
      (d.write piece) := by
  obtain ⟨c', passed, hserved, hfeed⟩ := d.served.feed_spec (d.rest ++ piece)
  have hqueued : d.queuedSince (d.write piece) = passed := by
    rw [LineDialogue.queuedSince, LineDialogue.write_eq, hserved]
    exact (congrArg (List.drop _) hfeed.queue).trans List.drop_left
  have hnot : ¬ t.closed = true := by simp [hopen]
  have hall (hreceiving : d.served.commands.receiving = true) (more : List UInt8) :
      Pipe.commands (t.input ++ piece ++ more) =
        t.commands ++ passed ++ Pipe.pending c' ((d.write piece).rest ++ more) := by
    rw [List.append_assoc, h.all hreceiving _ (absurd · hnot), ← List.append_assoc d.rest,
      hfeed.all hreceiving, List.append_assoc]
    rfl
  rw [hqueued]
  refine ⟨hfeed.whole, fun hclosed => absurd hclosed hnot, fun more _ => ?_, ?_⟩
  · cases hreceiving : d.served.commands.receiving with
    | true => exact hall hreceiving more ▸ List.prefix_append _ _
    | false =>
      rw [hfeed.deaf hreceiving, List.append_nil, List.append_assoc]
      exact h.upTo _ (absurd · hnot)
  · intro hreceiving more _
    rw [LineDialogue.write_eq, hserved] at hreceiving ⊢
    exact hall (hfeed.receiving.symm.trans hreceiving) more

/-- Nothing is to come once the unfinished line has been read. -/
theorem Heard.closeInput (h : Heard t d) :
    Heard { t with closed := true, commands := t.commands ++ d.queuedSince d.close } d.close := by
  have hqueued : d.queuedSince d.close = Pipe.passedBy d.served.commands d.rest := by
    rw [LineDialogue.queuedSince, LineDialogue.close_eq]
    exact (congrArg (List.drop _) Pipe.queue_afterLine).trans List.drop_left
  have hall (hreceiving : d.served.commands.receiving = true) :
      Pipe.commands t.input = t.commands ++ Pipe.passedBy d.served.commands d.rest := by
    have hrest := h.all hreceiving [] fun _ => rfl
    rwa [List.append_nil, List.append_nil, Pipe.pending_unfinished hreceiving h.whole] at hrest
  rw [hqueued, LineDialogue.close_eq]
  refine ⟨List.not_mem_nil, fun _ => rfl, fun more hmore => ?_, fun hreceiving more hmore => ?_⟩
  · obtain rfl := hmore rfl
    rw [List.append_nil]
    cases hreceiving : d.served.commands.receiving with
    | true => exact hall hreceiving ▸ List.prefix_rfl
    | false =>
      rw [Pipe.passedBy_of_deaf hreceiving, List.append_nil]
      exact List.append_nil t.input ▸ h.upTo [] fun _ => rfl
  · obtain rfl := hmore rfl
    rw [List.append_nil, hall (Pipe.receiving_afterLine.symm.trans hreceiving)]
    exact (List.append_nil _).symm

/-- Commands that nobody missed are the first of those that come of the input. -/
theorem heard (h : Serves t d) : Heard t d := by
  induction h with
  | start now clocked hopen =>
    refine ⟨List.not_mem_nil, nofun, fun _ _ => List.nil_prefix, fun _ more _ => ?_⟩
    have hpending : Pipe.pending clocked.target.link.commands more = Pipe.commands more :=
      if_pos hopen
    exact hpending.symm
  | meanwhile t d now clocked _ hclocked ih =>
    refine ⟨ih.whole, fun hclosed => hclocked.sending.trans (ih.closed hclosed), ih.upTo, ?_⟩
    intro hreceiving more hmore
    rw [ih.all (hclocked.receiving hreceiving) more hmore]
    exact congrArg _ (Pipe.pending_congr hclocked.sending _).symm
  | input t d piece _ hopen ih => exact ih.input hopen piece
  | closeInput t d _ _ ih => exact ih.closeInput
  | write t d event served _ hwrite ih =>
    have hcommands := ServedTarget.commands_of_write hwrite
    refine ⟨ih.whole, ?_, ih.upTo, ?_⟩
    · rw [hcommands]
      exact ih.closed
    · rw [hcommands]
      exact ih.all

/-! ### Output -/

/-- What was written is what was taken from the target, up to its disconnect. -/
structure Told (t : Traffic) (d : LineDialogue) : Prop where
  output : t.output = Pipe.output t.taken
  code : d.served.code = Pipe.exitCode t.taken
  going : d.served.ended = false → .disconnected ∉ t.taken
  /-- The end comes with the disconnect, or when nobody is left who could say anything. -/
  ended : d.served.ended = true → .disconnected ∈ t.taken ∨
    d.served.clocked.target.isSilent = true ∧ d.served.events.queue = []

/-- Reading is no part of the output. -/
theorem Told.of_read {t' : Traffic} {commands : Channel ControlCommand} (h : Told t d)
    (hserved : d'.served = d.served.withCommands commands) (htaken : t'.taken = t.taken)
    (houtput : t'.output = t.output) : Told t' d' := by
  constructor
  · rw [houtput, htaken, h.output]
  · rw [hserved, htaken]
    exact h.code
  · rw [hserved, htaken]
    exact h.going
  · rw [hserved, htaken]
    exact h.ended

/-- What is taken next is written, unless it is the disconnect. -/
theorem Told.write (h : Told t d) {event : Option TargetEvent} {served : ServedTarget}
    (hwrite : d.served.write = some (event, served)) :
    Told
      { t with
        taken := t.taken ++ d.served.events.queue.take 1
        output := t.output ++ event.toList.flatMap Pipe.line }
      { d with served } := by
  obtain ⟨hgoing, hcases⟩ := ServedTarget.write_cases hwrite
  have hopen := h.going hgoing
  have hself := Pipe.written_eq_self hopen
  obtain ⟨event, rest, hq, hevent, rfl, rfl⟩ | ⟨rest, hq, rfl, rfl⟩ | ⟨hq, hsilent, rfl, rfl⟩ :=
    hcases
  · have hmore : .disconnected ∉ t.taken ++ [event] := by simp [hopen, hevent.symm]
    have hwritten := Pipe.written_eq_self hmore
    rw [hq]
    refine ⟨?_, ?_, fun _ => hmore, fun hended => ?_⟩
    · simp only [h.output, Pipe.output, hself, hwritten, List.take_succ_cons, List.take_zero,
        List.flatMap_append]
      rfl
    · simp only [List.take_succ_cons, List.take_zero, Pipe.exitCode, hwritten,
        List.foldl_append, h.code, hself]
      cases event <;> rfl
    · exact absurd hended (by simp [ServedTarget.dropEvent, hgoing])
  · have hwritten := Pipe.written_append_disconnected hopen
    rw [hq]
    refine ⟨?_, ?_, nofun, fun _ => .inl (by simp)⟩
    · simp [h.output, Pipe.output, hself, hwritten]
    · simp only [List.take_succ_cons, List.take_zero, Pipe.exitCode, hwritten]
      exact h.code.trans (by rw [Pipe.exitCode, hself])
  · rw [hq]
    refine ⟨?_, ?_, nofun, fun _ => .inr ⟨hsilent, hq⟩⟩
    · simp [h.output]
    · rw [List.take_nil, List.append_nil]
      exact h.code

/-- What the target has said up to its disconnect is what it was heard to say. -/
theorem told (h : Serves t d) : Told t d := by
  induction h with
  | start => exact ⟨rfl, rfl, fun _ => List.not_mem_nil, nofun⟩
  | meanwhile t d now clocked _ hclocked ih =>
    refine ⟨ih.output, ih.code, ih.going, fun hended => ?_⟩
    rcases ih.ended hended with hmem | ⟨hsilent, hq⟩
    · exact .inl hmem
    · obtain ⟨hsilent', hq'⟩ := hclocked.silent hsilent
      exact .inr ⟨hsilent', hq'.trans hq⟩
  | input t d piece _ _ ih =>
    obtain ⟨c', passed, hserved, -⟩ := d.served.feed_spec (d.rest ++ piece)
    exact ih.of_read hserved rfl rfl
  | closeInput t d _ _ ih => exact ih.of_read (by rw [LineDialogue.close_eq]) rfl rfl
  | write t d event served _ hwrite ih => exact ih.write hwrite

/-! ### Both ways -/

end Serves

namespace Pipe

/-- A target that is served through pipes and its controller hear of each other what they would
hear directly: the events before the first disconnect and then one disconnect, and the commands,
each in their order, whatever other lines stand between them.  The process ends with the code of
the last death that was told. -/
theorem delivers :
    (∀ (es : List TargetEvent) (stream : List UInt8), Interspersed EventNoise es stream →
      (∀ e ∈ es, e ≠ .disconnected ∧ (body e).length ≤ maxLineLength) →
      events stream = es ++ [.disconnected]) ∧
    (∀ (cs : List ControlCommand) (t : Traffic) (d : LineDialogue), Serves t d →
      t.closed = true → Interspersed CommandNoise cs t.input →
      t.commands <+: cs ∧ (d.served.commands.receiving = true → t.commands = cs)) ∧
    ∀ (t : Traffic) (d : LineDialogue), Serves t d →
      (d.served.ended = false → .disconnected ∉ t.taken ∧ t.output = t.taken.flatMap line ∧
        (d.served.events.queue ≠ [] → d.served.write.isSome = true)) ∧
      (d.served.ended = true → ∃ told,
        told = (t.taken ++ d.served.events.queue).takeWhile (· != .disconnected) ∧
          t.output = told.flatMap line ∧
          d.served.code =
            ((told.filterMap exit?).getLast?.map TargetExit.code).getD TargetExit.forcedCode) := by
  refine ⟨fun es stream h hes => events_of_interspersed h hes, ?_, fun t d h => ⟨?_, ?_⟩⟩
  · intro cs t d h hclosed hinput
    have hheard := h.heard
    have hcommands : commands (t.input ++ []) = cs := by
      rw [List.append_nil, commands_of_interspersed hinput]
    have hsending := hheard.closed hclosed
    refine ⟨hcommands ▸ hheard.upTo [] fun _ => rfl, fun hreceiving => ?_⟩
    have hall := hheard.all hreceiving [] fun _ => rfl
    rw [hcommands, pending, hsending] at hall
    simpa using hall.symm
  · intro hgoing
    have hopen := h.told.going hgoing
    refine ⟨hopen, ?_, ServedTarget.write_isSome hgoing⟩
    rw [h.told.output, output, written_eq_self hopen]
  · intro hended
    have hwritten : written (t.taken ++ d.served.events.queue) = written t.taken := by
      rcases h.told.ended hended with hmem | ⟨-, hq⟩
      · exact written_append_of_mem hmem _
      · rw [hq, List.append_nil]
    refine ⟨written t.taken, hwritten.symm, h.told.output, ?_⟩
    rw [h.told.code, exitCode_eq]

/-- A target that says nothing but its death and that nothing follows. -/
def dyingTarget : ClockedTarget :=
  (ClockedTarget.launch ⟨.precise, 1, .ofMillis 10, .ofMillis 1⟩).mapLink fun l =>
    { l with events := { l.events with queue := [.death ⟨7, none, none⟩, .disconnected] } }

/-- An event is read from before a line of noise, a command is given to a target that has been
launched, and a target that has died is served to its end. -/
theorem delivers_each_way :
    events (line (TargetEvent.started .main) ++ [0x7b, 0x0a]) = [.started .main, .disconnected] ∧
    (∃ t d, Serves t d ∧ t.input = line ControlCommand.resume ∧ t.commands = [.resume]) ∧
    ∃ t d, Serves t d ∧ d.served.ended = true ∧
      t.output = line (TargetEvent.death ⟨7, none, none⟩) ∧ d.served.code = 7 := by
  have hnoise : EventNoise [0x7b] := ⟨['{'], ⟨by decide, rfl⟩, .inr (.inl rfl)⟩
  refine ⟨?_, ?_, ?_⟩
  · refine delivers.1 [.started .main] _ (.message _ _ _ (.noise [0x7b] hnoise _ _ .nil)) ?_
    have hshort := length_body_started
    simp only [List.forall_mem_singleton]
    exact ⟨nofun, by omega⟩
  · have hserves := Serves.closeInput _ _
      (.input _ _ (line ControlCommand.resume) (.launch ⟨.precise, 1, .ofMillis 10, .ofMillis 1⟩)
        rfl) rfl
    have hcommands := delivers.2.1 _ _ _ hserves rfl (interspersed_line ControlCommand.resume)
    refine ⟨_, _, hserves, rfl, hcommands.2 ?_⟩
    rw [LineDialogue.receiving_close, LineDialogue.receiving_write]
    rfl
  · have hserves := Serves.write _ _ _ _ (.write _ _ _ _ (.start 0 dyingTarget rfl) rfl) rfl
    obtain ⟨told, htold, houtput, hcode⟩ := (delivers.2.2 _ _ hserves).2 rfl
    subst htold
    exact ⟨_, _, hserves, rfl, houtput, hcode⟩

end Pipe

end InterruptStress
