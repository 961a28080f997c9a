import InterruptStress.Protocol.Channel

/-!
# Scripted targets

A script is what a target would say, beat by beat: each beat waits for its delay after the one
before it and then tells an event, or that nothing follows.  Commands are read once the beats
are done, and the first exit command starts a second list of beats.  Times are nanoseconds.
-/

namespace InterruptStress

/-- An event after a delay; without an event the channel of events ends. -/
structure Beat where
  delay : Nat
  event : Option TargetEvent

structure ScriptedTarget where
  beats : List Beat
  /-- What follows the first exit command. -/
  onExit : List Beat
  /-- When the next beat is due. -/
  due : Nat
  exited : Bool
  /-- The commands read so far. -/
  told : List ControlCommand
  link : Link

namespace ScriptedTarget

/-- When the first of some beats is due that begin now. -/
def firstDue (now : Nat) (beats : List Beat) : Nat := now + (beats.head?.map Beat.delay).getD 0

/-- A script that begins now.  A deaf one takes no commands. -/
def start (beats onExit : List Beat) (deaf : Bool) : ScriptedTarget where
  beats
  onExit
  due := firstDue 0 beats
  exited := false
  told := []
  link := { Link.new with commands := if deaf then Channel.new.close else .new }

/-- Tells what a beat tells; once the events have ended no beat tells anything. -/
def tell (events : Channel TargetEvent) : Option TargetEvent → Channel TargetEvent
  | some event => if events.sending then events.offer event else events
  | none => events.hangUp

/-- Plays the next beat if it is due. -/
def play (s : ScriptedTarget) (now : Nat) : Option ScriptedTarget :=
  match s.beats with
  | [] => none
  | beat :: beats =>
    if s.due ≤ now then
      some { s with
        beats
        due := firstDue now beats
        link := { s.link with events := tell s.link.events beat.event } }
    else none

/-- Reads a command when no beat is left. -/
def listen (s : ScriptedTarget) (now : Nat) : Option ScriptedTarget :=
  match s.beats, s.link.commands.receive with
  | [], (.item command, commands) =>
    let s := { s with told := s.told ++ [command], link := { s.link with commands } }
    match command, s.exited with
    | .exit _, false =>
      some { s with beats := s.onExit, due := firstDue now s.onExit, exited := true }
    | _, _ => some s
  | _, _ => none

/-- The next move that takes no time. -/
def turn (s : ScriptedTarget) (now : Nat) : Option ScriptedTarget := s.play now <|> s.listen now

/-- When something is due. -/
def dues (s : ScriptedTarget) : List Nat := if s.beats.isEmpty then [] else [s.due]

/-- The commands sent so far, read or not. -/
def commands (s : ScriptedTarget) : List ControlCommand := s.told ++ s.link.commands.queue

end ScriptedTarget

end InterruptStress
