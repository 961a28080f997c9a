import InterruptStress.Proofs.Target.Pipe
import InterruptStress.Proofs.Target.Transition
import InterruptStress.Schedule.LineDialogue

/-!
# Targets that are served through pipes

A served target reads its input line by line and writes its events one after the other, while the
target goes on by itself.  Each of the three is described by what it does to the rest: reading
changes nothing but the commands (`ServedTarget.feed_spec`), writing takes an event
(`ServedTarget.write_cases`), and of what the target does meanwhile it matters only that events
follow those that wait and that the input is not its own (`ClockedTarget.Follows`).
-/

namespace InterruptStress

open Text (LineEnds)

/-! ## A line of input -/

namespace Pipe

variable {c : Channel ControlCommand} {line : List UInt8}

/-- What a line does to the commands.  It closes the input if it is not UTF-8 or nobody takes its
command. -/
def afterLine (c : Channel ControlCommand) (line : List UInt8) : Channel ControlCommand :=
  match Text.ofBytes? line with
  | none => c.hangUp
  | some _ =>
    match (messageOfLine? line : Option ControlCommand) with
    | none => c
    | some command =>
      if c.sending then
        if c.receiving then { c with queue := c.queue ++ [command] } else c.hangUp
      else c

/-- The command that a line passes on: none once the input is closed or nobody takes commands. -/
def passedBy (c : Channel ControlCommand) (line : List UInt8) : List ControlCommand :=
  if c.sending && c.receiving then (messageOfLine? line).toList else []

/-- The commands that are still to come of some input: none once the input is closed. -/
def pending (c : Channel ControlCommand) (input : List UInt8) : List ControlCommand :=
  if c.sending then commands input else []

theorem messageOfLine?_of_invalid {α : Type} [Wire α] (h : Text.ofBytes? line = none) :
    (messageOfLine? line : Option α) = none := by
  rw [messageOfLine?, h, Option.bind_none]

theorem queue_afterLine : (afterLine c line).queue = c.queue ++ passedBy c line := by
  unfold afterLine passedBy
  split
  · next h => simp [messageOfLine?_of_invalid h, Channel.hangUp]
  split
  · next h => simp [h]
  · next h => cases hs : c.sending <;> cases hr : c.receiving <;> simp [h, Channel.hangUp]

theorem receiving_afterLine : (afterLine c line).receiving = c.receiving := by
  unfold afterLine
  split
  · rfl
  split
  · rfl
  · cases c.sending <;> cases hr : c.receiving <;> simp [hr, Channel.hangUp]

/-- While commands are taken, only a line that is not UTF-8 closes the input. -/
theorem sending_afterLine (hreceiving : c.receiving = true) :
    (afterLine c line).sending = (c.sending && (Text.ofBytes? line).isSome) := by
  unfold afterLine
  split
  · next h => simp [h, Channel.hangUp]
  · next text h =>
    split
    · simp [h]
    · cases hs : c.sending <;> simp [h, hreceiving, hs]

theorem pending_cons (hreceiving : c.receiving = true)
    (hwhole : LineEnds.bytes.lineFeed ∉ line) (rest : List UInt8) :
    pending c (line ++ LineEnds.bytes.lineFeed :: rest) =
      passedBy c line ++ pending (afterLine c line) rest := by
  rw [pending, pending, passedBy, sending_afterLine hreceiving, hreceiving, Bool.and_true]
  cases c.sending with
  | false => rfl
  | true =>
    cases htext : Text.ofBytes? line with
    | none => simp [commands_invalid hwhole htext, messageOfLine?_of_invalid htext]
    | some text => simp [commands_cons ⟨hwhole, htext⟩]

theorem pending_unfinished (hreceiving : c.receiving = true)
    (hwhole : LineEnds.bytes.lineFeed ∉ line) : pending c line = passedBy c line := by
  rw [pending, passedBy, hreceiving, Bool.and_true, commands_unfinished hwhole]

theorem pending_congr {c' : Channel ControlCommand} (h : c'.sending = c.sending)
    (input : List UInt8) : pending c' input = pending c input := by
  rw [pending, pending, h]

theorem passedBy_of_deaf (hdeaf : c.receiving = false) : passedBy c line = [] := by
  rw [passedBy, hdeaf, Bool.and_false]
  rfl

theorem afterLine_nil : afterLine c [] = c := rfl

end Pipe

/-! ## A stream of input -/

namespace ServedTarget

variable {s : ServedTarget} {line : List UInt8}

/-- The commands that the target is given. -/
def commands (s : ServedTarget) : Channel ControlCommand := s.clocked.target.link.commands

/-- The events that come from the target. -/
def events (s : ServedTarget) : Channel TargetEvent := s.clocked.target.link.events

def withCommands (s : ServedTarget) (commands : Channel ControlCommand) : ServedTarget :=
  { s with clocked := s.clocked.mapLink fun l => { l with commands } }

theorem commands_withCommands (s : ServedTarget) (c : Channel ControlCommand) :
    (s.withCommands c).commands = c :=
  rfl

/-- A line is read for what it does to the commands. -/
theorem read_eq (s : ServedTarget) (line : List UInt8) :
    s.read line = s.withCommands (Pipe.afterLine s.commands line) := by
  change s.read line = s.withCommands (Pipe.afterLine s.clocked.target.link.commands line)
  cases htext : Text.ofBytes? line with
  | none =>
    simp only [read, Pipe.afterLine, htext]
    rfl
  | some text =>
    cases hmessage : (Pipe.messageOfLine? line : Option ControlCommand) with
    | none =>
      simp only [read, Pipe.afterLine, htext, hmessage]
      rfl
    | some command =>
      simp only [read, Pipe.afterLine, htext, hmessage, Channel.send]
      by_cases hsending : s.clocked.target.link.commands.sending = true
      · rw [if_pos hsending, if_pos hsending]
        by_cases hreceiving : s.clocked.target.link.commands.receiving = true
        · rw [if_pos hreceiving, if_pos hreceiving]
          rfl
        · rw [if_neg hreceiving, if_neg hreceiving]
          rfl
      · rw [if_neg hsending, if_neg hsending]
        rfl

/-- Reads what has line feeds, and keeps what follows the last of them. -/
def feed (s : ServedTarget) (stream : List UInt8) : ServedTarget × List UInt8 :=
  let pieces := stream.splitOn LineEnds.bytes.lineFeed
  (pieces.dropLast.foldl read s, pieces.getLast?.getD [])

theorem feed_unfinished (h : LineEnds.bytes.lineFeed ∉ line) : s.feed line = (s, line) := by
  rw [feed, List.splitOn_eq_singleton h]
  rfl

theorem feed_cons (h : LineEnds.bytes.lineFeed ∉ line) (rest : List UInt8) :
    s.feed (line ++ LineEnds.bytes.lineFeed :: rest) = (s.read line).feed rest := by
  obtain ⟨piece, pieces, hpieces⟩ :=
    List.exists_cons_of_ne_nil (List.splitOn_ne_nil LineEnds.bytes.lineFeed rest)
  rw [feed, feed, List.splitOn_append_cons_self_of_not_mem h, hpieces]
  rfl

/-- What a stream does to the commands `c`, up to the unfinished line behind it. -/
structure Feeds (c c' : Channel ControlCommand) (stream rest : List UInt8)
    (passed : List ControlCommand) : Prop where
  queue : c'.queue = c.queue ++ passed
  receiving : c'.receiving = c.receiving
  whole : LineEnds.bytes.lineFeed ∉ rest
  /-- Commands are passed on in their order, and none is forgotten. -/
  all : c.receiving = true → ∀ more,
    Pipe.pending c (stream ++ more) = passed ++ Pipe.pending c' (rest ++ more)
  deaf : c.receiving = false → passed = []

/-- Feeding a stream changes the commands only. -/
theorem feed_spec (s : ServedTarget) (stream : List UInt8) :
    ∃ c' passed, (s.feed stream).1 = s.withCommands c' ∧
      Feeds s.commands c' stream (s.feed stream).2 passed := by
  induction stream using LineEnds.stream_induction LineEnds.bytes generalizing s with
  | unfinished line hline =>
    rw [feed_unfinished hline]
    exact ⟨s.commands, [], rfl, (List.append_nil _).symm, rfl, hline, fun _ _ => rfl, fun _ => rfl⟩
  | line line rest hline ih =>
    rw [feed_cons hline, read_eq]
    obtain ⟨c', passed, hfeed, h⟩ := ih (s.withCommands (Pipe.afterLine s.commands line))
    refine ⟨c', Pipe.passedBy s.commands line ++ passed, hfeed, ?_, ?_, h.whole, ?_, ?_⟩
    · rw [h.queue, commands_withCommands, Pipe.queue_afterLine, List.append_assoc]
    · rw [h.receiving]
      exact Pipe.receiving_afterLine
    · intro hreceiving more
      have hrest := h.all (Pipe.receiving_afterLine.trans hreceiving) more
      rw [List.append_assoc, List.cons_append, Pipe.pending_cons hreceiving hline,
        List.append_assoc, ← hrest]
      rfl
    · intro hdeaf
      rw [h.deaf (Pipe.receiving_afterLine.trans hdeaf), List.append_nil,
        Pipe.passedBy_of_deaf hdeaf]

/-! ## An event of output -/

/-- The code of the last death, once an event was written. -/
def codeAfter (code : Int32) : TargetEvent → Int32
  | .death exit => exit.code
  | _ => code

/-- The target without the first event that waits. -/
def dropEvent (s : ServedTarget) (rest : List TargetEvent) : ServedTarget :=
  { s with clocked := s.clocked.mapLink fun l =>
      { l with events := { s.events with queue := rest } } }

theorem write_nil (hgoing : s.ended = false) (hq : s.events.queue = []) :
    s.write =
      if s.clocked.target.isSilent then some (none, { s with ended := true }) else none := by
  have hreceive : s.clocked.receive =
      (if s.clocked.target.isSilent then .ended else .nothing, s.clocked) := by
    have hchannel : s.clocked.target.link.events.queue = [] := hq
    rw [ClockedTarget.receive, Channel.receive, hchannel]
    cases s.clocked.target.link.events.sending <;> rfl
  rw [write, hgoing, hreceive]
  cases s.clocked.target.isSilent <;> rfl

theorem write_cons {event : TargetEvent} {rest : List TargetEvent} (hgoing : s.ended = false)
    (hq : s.events.queue = event :: rest) :
    s.write = some
      (if event = .disconnected then (none, { s.dropEvent rest with ended := true })
        else (some event, { s.dropEvent rest with code := codeAfter s.code event })) := by
  have hreceive : s.clocked.receive = (.item event, (s.dropEvent rest).clocked) := by
    have hchannel : s.clocked.target.link.events.queue = event :: rest := hq
    rw [ClockedTarget.receive, Channel.receive, hchannel]
    rfl
  rw [write, if_neg (by simp [hgoing]), hreceive]
  cases event <;> rfl

/-- An event that waits can be written. -/
theorem write_isSome (hgoing : s.ended = false) (hq : s.events.queue ≠ []) :
    s.write.isSome = true := by
  obtain ⟨event, rest, hcons⟩ := List.exists_cons_of_ne_nil hq
  rw [write_cons hgoing hcons]
  rfl

/-- What writing can be: of an event, of the disconnect, or of the end of a target that has nothing
more to say. -/
theorem write_cases {written : Option TargetEvent} (h : s.write = some (written, s')) :
    s.ended = false ∧
      ((∃ event rest, s.events.queue = event :: rest ∧ event ≠ .disconnected ∧
          written = some event ∧
          s' = { s.dropEvent rest with code := codeAfter s.code event }) ∨
        (∃ rest, s.events.queue = .disconnected :: rest ∧ written = none ∧
          s' = { s.dropEvent rest with ended := true }) ∨
        (s.events.queue = [] ∧ s.clocked.target.isSilent = true ∧ written = none ∧
          s' = { s with ended := true })) := by
  cases hgoing : s.ended with
  | true => simp [write, hgoing] at h
  | false =>
    refine ⟨rfl, ?_⟩
    cases hq : s.events.queue with
    | nil =>
      rw [write_nil hgoing hq] at h
      split at h
      · next hsilent =>
        obtain ⟨rfl, rfl⟩ := Prod.mk.inj (Option.some.inj h)
        exact .inr (.inr ⟨rfl, hsilent, rfl, rfl⟩)
      · cases h
    | cons event rest =>
      rw [write_cons hgoing hq] at h
      have hpair := Option.some.inj h
      split at hpair
      · next hevent =>
        obtain ⟨rfl, rfl⟩ := Prod.mk.inj hpair
        exact .inr (.inl ⟨rest, by rw [hevent], rfl, rfl⟩)
      · next hevent =>
        obtain ⟨rfl, rfl⟩ := Prod.mk.inj hpair
        exact .inl ⟨event, rest, rfl, hevent, rfl, rfl⟩

theorem commands_of_write {written : Option TargetEvent} (h : s.write = some (written, s')) :
    s'.commands = s.commands := by
  obtain ⟨-, ⟨_, _, -, -, -, rfl⟩ | ⟨_, -, -, rfl⟩ | ⟨-, -, -, rfl⟩⟩ := write_cases h <;> rfl

end ServedTarget

/-! ## What a target does meanwhile -/

/-- What a target may have become in the meantime: it has said more events, unless it had nothing
more to say, and may take no more commands; but it has no part in its input. -/
structure ClockedTarget.Follows (c c' : ClockedTarget) : Prop where
  said : c.target.link.events.queue <+: c'.target.link.events.queue
  silent : c.target.isSilent = true →
    c'.target.isSilent = true ∧ c'.target.link.events.queue = c.target.link.events.queue
  sending : c'.target.link.commands.sending = c.target.link.commands.sending
  receiving : c'.target.link.commands.receiving = true → c.target.link.commands.receiving = true

theorem ClockedTarget.Follows.refl (c : ClockedTarget) : c.Follows c :=
  ⟨List.prefix_rfl, fun h => ⟨h, rfl⟩, rfl, id⟩

theorem Channel.prefix_offer {α : Type} {c : Channel α} (value : α) :
    c.queue <+: (c.offer value).queue := by
  unfold offer send
  cases c.receiving
  · exact List.prefix_rfl
  · exact List.prefix_append _ _

namespace Target

variable {t t' : Target} {m : TargetMove} {move : Option LocalMove}

theorem of_isSilent (h : t.isSilent = true) :
    ∃ exit, t.agent = .ending [] ∧ t.main = .ended exit := by
  unfold isSilent at h
  split at h
  · next exit hagent hmain => exact ⟨exit, hagent, hmain⟩
  · cases h

theorem said_of_transition (h : t.Transition m move t') :
    t.link.events.queue <+: t'.link.events.queue := by
  cases h with
  | suspend | step | announce => exact Channel.prefix_offer _
  | _ => exact List.prefix_rfl

theorem silent_of_transition (hsilent : t.isSilent = true) (h : t.Transition m move t') :
    t'.isSilent = true ∧ t'.link.events.queue = t.link.events.queue := by
  obtain ⟨exit, hagent, hmain⟩ := of_isSilent hsilent
  have hkept (hagent' : t'.agent = t.agent) (hmain' : t'.main = t.main) : t'.isSilent = true := by
    rw [isSilent, hagent', hmain', hagent, hmain]
  cases h with
  | goLocal | stir => exact ⟨hkept rfl rfl, rfl⟩
  | waitForStart hmain' | begin hmain' | refuseStart hmain' =>
    exact absurd hmain (not_ended_of_isEntering hmain' exit)
  | refuse _ _ hmain' => rcases hmain' with ⟨hmain', -⟩ | ⟨hmain', -⟩ <;> simp [hmain] at hmain'
  | _ => simp_all

theorem commands_of_transition (h : t.Transition m move t') :
    t'.link.commands.sending = t.link.commands.sending ∧
      (t'.link.commands.receiving = true → t.link.commands.receiving = true) := by
  cases h <;> first | exact ⟨rfl, id⟩ | exact ⟨rfl, nofun⟩

end Target

namespace ClockedTarget

variable {c c' : ClockedTarget} {now : Nat}

theorem follows_of_move {m : TargetMove} (h : c.move now m = some c') : c.Follows c' := by
  obtain ⟨target, hstep, rfl⟩ := Option.map_eq_some_iff.mp h
  have ht := Target.transition_of_step hstep
  obtain ⟨hsending, hreceiving⟩ := Target.commands_of_transition ht
  exact ⟨Target.said_of_transition ht, fun hsilent => Target.silent_of_transition hsilent ht,
    hsending, hreceiving⟩

theorem follows_of_turn (h : c.turn now = some c') : c.Follows c' := by
  obtain ⟨m, -, hmove⟩ := List.exists_of_findSome?_eq_some h
  exact follows_of_move hmove

theorem follows_of_expire (h : c.expire now = some c') : c.Follows c' := by
  obtain ⟨thread, -, hmove⟩ := List.exists_of_findSome?_eq_some h
  split at hmove
  · exact follows_of_move hmove
  · cases hmove

end ClockedTarget

end InterruptStress
