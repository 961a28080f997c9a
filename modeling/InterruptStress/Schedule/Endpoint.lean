import InterruptStress.Schedule.Script
import InterruptStress.Schedule.TargetClock

/-!
# Endpoints

What a controller may find at the other end of its link: a script, a target in its own process,
or one in a process apart.
-/

namespace InterruptStress

inductive Endpoint where
  | scripted (target : ScriptedTarget)
  | inProcess (target : ClockedTarget)
  | piped (target : PipedTarget)

namespace Endpoint

/-- A target that is launched the way a transport says. -/
def launch (transport : Transport) (settings : WorkerSettings) : Endpoint :=
  match transport with
  | .process => .piped (.launch settings)
  | .inProcess => .inProcess (.launch settings)

def link : Endpoint → Link
  | scripted s => s.link
  | inProcess c => c.target.link
  | piped p => p.link

def mapLink (e : Endpoint) (f : Link → Link) : Endpoint :=
  match e with
  | scripted s => .scripted { s with link := f s.link }
  | inProcess c => .inProcess (c.mapLink f)
  | piped p => .piped { p with link := f p.link }

/-- The next move that takes no time. -/
def turn (e : Endpoint) (now : Nat) : Option Endpoint :=
  match e with
  | scripted s => (s.turn now).map .scripted
  | inProcess c => (c.turn now).map .inProcess
  | piped p => (p.turn now).map .piped

/-- When something is due. -/
def dues : Endpoint → List Nat
  | scripted s => s.dues
  | inProcess c => c.dues
  | piped p => if p.isOver then [] else p.served.clocked.dues

/-- Ends a sleep that has run out. -/
def expire (e : Endpoint) (now : Nat) : Option Endpoint :=
  match e with
  | scripted _ => none
  | inProcess c => (c.expire now).map .inProcess
  | piped p =>
    if p.isOver then none
    else (p.served.clocked.expire now).map fun clocked =>
      .piped { p with served := { p.served with clocked } }

/-- Takes an event, once there is one. -/
def receive (e : Endpoint) : Received TargetEvent × Endpoint :=
  match e with
  | inProcess c => let (r, c) := c.receive; (r, .inProcess c)
  | e =>
    let (r, events) := e.link.events.receive
    (r, e.mapLink fun l => { l with events })

/-- Whether its sleeps are timed by the clock that its controller's own pauses are timed by; a
script is played faster than that. -/
def isLive : Endpoint → Bool
  | scripted _ => false
  | _ => true

end Endpoint

end InterruptStress
