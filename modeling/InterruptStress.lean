import InterruptStress.Binary64.Basic
import InterruptStress.Binary64.Numeral
import InterruptStress.Binary64.Rounding
import InterruptStress.Binary64.Shortest
import InterruptStress.CommandLine.Arguments
import InterruptStress.CommandLine.Harness
import InterruptStress.Config
import InterruptStress.Duration
import InterruptStress.ErrorReport
import InterruptStress.Failure
import InterruptStress.Files
import InterruptStress.Interruption.Generator
import InterruptStress.Interruption.Rendezvous
import InterruptStress.Interruption.Token
import InterruptStress.Interval
import InterruptStress.Journal
import InterruptStress.JournalFile
import InterruptStress.Json.Basic
import InterruptStress.Json.Numeral
import InterruptStress.Json.Reader
import InterruptStress.Json.Wire
import InterruptStress.Json.Writer
import InterruptStress.LineTable.Check
import InterruptStress.LineTable.Program
import InterruptStress.LineTable.Registry
import InterruptStress.Main
import InterruptStress.Mode
import InterruptStress.Program.Execution
import InterruptStress.Program.Plan
import InterruptStress.Protocol.Basic
import InterruptStress.Protocol.Channel
import InterruptStress.Protocol.Message
import InterruptStress.Report
import InterruptStress.RunId
import InterruptStress.Schedule.Dialogue
import InterruptStress.Schedule.Endpoint
import InterruptStress.Schedule.Exhaust
import InterruptStress.Schedule.LineDialogue
import InterruptStress.Schedule.Rehearsal
import InterruptStress.Schedule.Script
import InterruptStress.Schedule.StepTimes
import InterruptStress.Schedule.SupervisedRun
import InterruptStress.Schedule.TargetClock
import InterruptStress.Schedule.Trial
import InterruptStress.Settings
import InterruptStress.Supervision.Controller
import InterruptStress.Supervision.EventLog
import InterruptStress.Supervision.Watchdog
import InterruptStress.Target.Basic
import InterruptStress.Target.Pipe
import InterruptStress.Target.Tracer
import InterruptStress.Text.Blank
import InterruptStress.Text.Digits
import InterruptStress.Text.Lines
import InterruptStress.Text.Utf8
import InterruptStress.Timestamp
import InterruptStress.Worker.LocalRun
import InterruptStress.Worker.Loop
import InterruptStress.Yaml.Basic
import InterruptStress.Yaml.Config
import InterruptStress.Yaml.Reader
import InterruptStress.Yaml.Text
import InterruptStress.Proofs.Execution
import InterruptStress.Proofs.Worker.Transition
import InterruptStress.Proofs.Worker.Coordination
import InterruptStress.Proofs.Worker.Course
import InterruptStress.Proofs.Worker.Fault
import InterruptStress.Proofs.Worker.Accounting
import InterruptStress.Proofs.Worker.Outcome
import InterruptStress.Proofs.Worker.Progress
import InterruptStress.Proofs.Worker.Stopping
import InterruptStress.Proofs.Worker.Tally
import InterruptStress.Proofs.Worker.Escape
import InterruptStress.Proofs.Target.Transition
import InterruptStress.Proofs.Target.Lifecycle
import InterruptStress.Proofs.Target.ForcedExit
import InterruptStress.Proofs.Target.Success
import InterruptStress.Proofs.Supervision.Transition
import InterruptStress.Proofs.Supervision.Supervised
import InterruptStress.Proofs.Supervision.InStep
import InterruptStress.Proofs.Supervision.LockStep
import InterruptStress.Proofs.Supervision.Signalling
import InterruptStress.Proofs.Supervision.Verdict
import InterruptStress.Proofs.Supervision.Injection
import InterruptStress.Proofs.Supervision.Injected
import InterruptStress.Proofs.Supervision.LastInterrupt
import InterruptStress.Proofs.Supervision.Watch
import InterruptStress.Proofs.Schedule.SupervisedRun
import InterruptStress.Proofs.Text.Digits
import InterruptStress.Proofs.Text.LineEnds
import InterruptStress.Proofs.Binary64.Size
import InterruptStress.Proofs.Binary64.Value
import InterruptStress.Proofs.Binary64.Order
import InterruptStress.Proofs.Duration
import InterruptStress.Proofs.Scaling
import InterruptStress.Proofs.Interval
import InterruptStress.Proofs.Json.Scanners
import InterruptStress.Proofs.Json.Written
import InterruptStress.Proofs.Json.OneLine
import InterruptStress.Proofs.Json.Range
import InterruptStress.Proofs.Timestamp
import InterruptStress.Proofs.Wire.Lawful
import InterruptStress.Proofs.Wire.RoundTrip
import InterruptStress.Proofs.Target.Pipe
import InterruptStress.Proofs.Target.Served
import InterruptStress.Proofs.Target.Traffic
import InterruptStress.Proofs.Supervision.Linked
import InterruptStress.Proofs.Supervision.Ending
import InterruptStress.Proofs.Supervision.Answers
import InterruptStress.Proofs.Supervision.HangPath
import InterruptStress.Proofs.LineTable.Registry
import InterruptStress.Proofs.LineTable.Store
import InterruptStress.Proofs.LineTable.Query
import InterruptStress.Proofs.LineTable.Check
import InterruptStress.Proofs.Json.Behind
import InterruptStress.Proofs.Files
import InterruptStress.Proofs.Journal.Entries
import InterruptStress.Proofs.Journal.Shared
import InterruptStress.Proofs.Json.CutOff
import InterruptStress.Proofs.Journal.Writing
import InterruptStress.Proofs.Supervision.Journaling
import InterruptStress.Proofs.Supervision.Leftovers
import InterruptStress.Proofs.Worker.LineTrace
import InterruptStress.Proofs.Interruption.SharedToken
import InterruptStress.Proofs.Target.TracedThread
import InterruptStress.Proofs.Json.Spelling
import InterruptStress.Proofs.Wire.Arranged
import InterruptStress.Proofs.Wire.Tolerance
import InterruptStress.Proofs.Supervision.Traced
import InterruptStress.Proofs.CommandLine.Options
import InterruptStress.Proofs.Program.Sources
import InterruptStress.Proofs.Target.Arguments
import InterruptStress.Proofs.Program.Preparation
