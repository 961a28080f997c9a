import InterruptStress.Schedule.Endpoint
import InterruptStress.Schedule.Exhaust

/-!
# Dialogues

Somebody who talks to a target in a controller's place, one thing after the other.  Time passes
only while he waits for the target.
-/

namespace InterruptStress

/-- The next move of an endpoint, or the passage of time to the next that something is due. -/
def Endpoint.moveOrWait (e : Endpoint) (now : Nat) : Option (Endpoint × Nat) :=
  match e.turn now <|> e.expire now with
  | some e => some (e, now)
  | none => e.dues.min?.map fun due => (e, max now due)

structure Dialogue where
  endpoint : Endpoint
  now : Nat
  /-- The sender of commands has not been dropped. -/
  sending : Bool

namespace Dialogue

def start (endpoint : Endpoint) : Dialogue := ⟨endpoint, 0, true⟩

/-- Sends a command; nothing can be sent once the sender has been dropped. -/
def send (d : Dialogue) (command : ControlCommand) : Option (Except SignalError Dialogue) :=
  if d.sending then
    some <| (d.endpoint.link.commands.send command).map fun commands =>
      { d with endpoint := d.endpoint.mapLink fun l => { l with commands } }
  else none

/-- Sends a command if it can be sent. -/
def offer (d : Dialogue) (command : ControlCommand) : Dialogue :=
  match d.send command with
  | some (.ok d) => d
  | _ => d

/-- Drops the sender of commands. -/
def drop (d : Dialogue) : Dialogue :=
  { d with
    sending := false
    endpoint := d.endpoint.mapLink fun l => { l with commands := l.commands.hangUp } }

/-- Whether the target has closed its end of the commands, as the sender sees it. -/
def isClosed (d : Dialogue) : Option Bool :=
  if d.sending then some (!d.endpoint.link.commands.receiving) else none

/-- Whether waiting longer is of no use: something can be received, or nothing will come. -/
def isAnswered (d : Dialogue) : Bool :=
  match d.endpoint.receive.1 with
  | .nothing => false
  | _ => true

/-- Waits for an event. -/
def receive (d : Dialogue) : Option TargetEvent × Dialogue :=
  let d := exhaustUntil isAnswered
    (fun d => (d.endpoint.moveOrWait d.now).map fun (endpoint, now) => { d with endpoint, now })
    patience d
  match d.endpoint.receive with
  | (.item event, endpoint) => (some event, { d with endpoint })
  | (_, endpoint) => (none, { d with endpoint })

/-- What came of letting a target run to its end. -/
structure Drained where
  dialogue : Dialogue
  lines : List UInt32
  events : List TargetEvent

/-- Receives events up to the disconnect and resumes what they suspend; what is sent before the
resume may depend on the line. -/
def drain (d : Dialogue) (prelude : UInt32 → List ControlCommand) : Drained :=
  go patience d [] []
where
  go : Nat → Dialogue → List UInt32 → List TargetEvent → Drained
    | 0, d, lines, events => ⟨d, lines.reverse, events.reverse⟩
    | bound + 1, d, lines, events =>
      match d.receive with
      | (some (.step _ location suspended), d) =>
        let answers := if suspended then prelude location.line ++ [.resume] else []
        go bound (answers.foldl offer d) (location.line :: lines) events
      | (some .disconnected, d) => ⟨d, lines.reverse, (.disconnected :: events).reverse⟩
      | (some event, d) => go bound d lines (event :: events)
      | (none, d) => ⟨d, lines.reverse, events.reverse⟩

end Dialogue

end InterruptStress
