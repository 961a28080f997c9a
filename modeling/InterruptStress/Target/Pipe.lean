import InterruptStress.ErrorReport
import InterruptStress.Protocol.Message
import InterruptStress.Settings
import InterruptStress.Text.Lines
import InterruptStress.Text.Utf8

/-!
# Targets behind pipes

A target in a process of its own writes its events to its output and reads commands from its
input, one JSON object a line.  Whatever is no message is passed over; input that is not UTF-8
ends a stream.  The last event, that nothing follows, is not written: the end of the output says
it.
-/

namespace InterruptStress

namespace Pipe

/-- The longest line of events that is read, in bytes. -/
def maxLineLength : Nat := 16384

/-- The lines of a stream up to the first that is not UTF-8. -/
def validLines (stream : List UInt8) : List (List UInt8) :=
  (Text.LineEnds.bytes.lines stream).takeWhile fun line => (Text.ofBytes? line).isSome

/-- The message on a line with blanks around it. -/
def messageOfLine? {α : Type} [Wire α] (line : List UInt8) : Option α :=
  (Text.ofBytes? line).bind fun text => Wire.decode? (String.ofList (Text.trim text))

/-- The event on a line.  That nothing follows is not for a target's output to say. -/
def eventOfLine? (line : List UInt8) : Option TargetEvent :=
  if line.length > maxLineLength then none
  else
    match (messageOfLine? line : Option TargetEvent) with
    | some .disconnected => none
    | event => event

/-- The events that a target's output amounts to. -/
def events (output : List UInt8) : List TargetEvent :=
  (validLines output).filterMap eventOfLine? ++ [.disconnected]

/-- The commands that a target's input amounts to. -/
def commands (input : List UInt8) : List ControlCommand :=
  (validLines input).filterMap messageOfLine?

/-- A message as a line. -/
def line {α : Type} [Wire α] (message : α) : List UInt8 :=
  Text.toBytes ((Wire.encode message).toList ++ ['\n'])

/-- The events that are written, those before the disconnect. -/
def written (events : List TargetEvent) : List TargetEvent := events.takeWhile (· != .disconnected)

/-- The output of a target. -/
def output (events : List TargetEvent) : List UInt8 := (written events).flatMap line

/-- The exit code after some events. -/
def exitCode (events : List TargetEvent) : Int32 :=
  (written events).foldl (fun code event =>
    match event with
    | .death exit => exit.code
    | _ => code) TargetExit.forcedCode

/-- The arguments that a target's process is started with. -/
def arguments (settings : WorkerSettings) : List String :=
  ["target", "--mode", settings.mode.name,
    "--iterations", toString settings.iterations.toNat,
    "--sleep-ms", toString settings.sleep.toMillis,
    "--pause-ms", toString settings.pause.toMillis]

/-- The program could not be started. -/
def spawnError (program : String) : ErrorReport := .of s!"Failed to spawn target process {program}"

end Pipe

end InterruptStress
