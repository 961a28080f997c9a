import InterruptStress.Schedule.Exhaust
import InterruptStress.Schedule.TargetClock

/-!
# Dialogues over a pipe

Somebody who talks to a target's process through its input and output.  Input comes in pieces
that need not be whole lines.
-/

namespace InterruptStress

structure LineDialogue where
  served : ServedTarget
  now : Nat
  /-- Input after the last line feed. -/
  rest : List UInt8

namespace LineDialogue

def start (settings : WorkerSettings) : LineDialogue := ⟨.launch settings, 0, []⟩

/-- Writes a piece of input; what ends with a line feed is read. -/
def write (d : LineDialogue) (piece : List UInt8) : LineDialogue :=
  let pieces := (d.rest ++ piece).splitOn 0x0a
  { d with
    served := pieces.dropLast.foldl ServedTarget.read d.served
    rest := pieces.getLast?.getD [] }

/-- Closes the input; what is left of it counts as a line. -/
def close (d : LineDialogue) : LineDialogue :=
  let served := if d.rest.isEmpty then d.served else d.served.read d.rest
  { d with served := served.closeInput, rest := [] }

/-- The next move at this moment. -/
def moveNow (d : LineDialogue) : Option LineDialogue :=
  let clocked := d.served.clocked
  (clocked.turn d.now <|> clocked.expire d.now).map fun clocked =>
    { d with served := { d.served with clocked } }

/-- The next move, or the passage of time to the next that something is due. -/
def moveOrWait (d : LineDialogue) : Option LineDialogue :=
  d.moveNow <|> d.served.clocked.dues.min?.map fun due => { d with now := max d.now due }

/-- Waits for the next event that is written. -/
def receive (d : LineDialogue) : Option TargetEvent × LineDialogue :=
  let d := exhaustUntil (fun d => d.served.ended || d.served.write.isSome) moveOrWait patience d
  match d.served.write with
  | some (event, served) => (event, { d with served })
  | none => (none, d)

/-- Waits for so many events, or for the end of the output. -/
def take : Nat → LineDialogue → List TargetEvent × LineDialogue
  | 0, d => ([], d)
  | n + 1, d =>
    match d.receive with
    | (some event, d) =>
      let (events, d) := take n d
      (event :: events, d)
    | (none, d) => ([], d)

/-- Waits for the end of the output and resumes what suspends. -/
def drain (d : LineDialogue) : List TargetEvent × LineDialogue := go patience d []
where
  go : Nat → LineDialogue → List TargetEvent → List TargetEvent × LineDialogue
    | 0, d, events => (events.reverse, d)
    | bound + 1, d, events =>
      match d.receive with
      | (none, d) => (events.reverse, d)
      | (some event, d) =>
        let d := match event with
          | .step _ _ true => d.write (Pipe.line ControlCommand.resume)
          | _ => d
        go bound d (event :: events)

/-- The exit code as the system shows it. -/
def exitCode (d : LineDialogue) : Nat := (d.served.code.toInt % 256).toNat

end LineDialogue

end InterruptStress
