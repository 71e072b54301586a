import SdHost.Action
import SdHost.Bench.Basic
import SdHost.Bench.RegisterFile
import SdHost.Bench.Session
import SdHost.Bench.Trace
import SdHost.Bench.Window
import SdHost.Clock
import SdHost.Command.Basic
import SdHost.Command.Issue
import SdHost.Config
import SdHost.Controller.Basic
import SdHost.Controller.Dispatch
import SdHost.Controller.Interrupt
import SdHost.Controller.Memory
import SdHost.Controller.Reset
import SdHost.Controller.Submission
import SdHost.Dialogue
import SdHost.Dma
import SdHost.Error
import SdHost.Interrupt.Classify
import SdHost.Interrupt.Status
import SdHost.Log.Logger
import SdHost.Log.Message
import SdHost.Log.Record
import SdHost.Platform.Basic
import SdHost.Platform.BringUp
import SdHost.Platform.ClockChange
import SdHost.Proofs.Bank
import SdHost.Proofs.Clock.Divider
import SdHost.Proofs.Command.Attempt
import SdHost.Proofs.Command.Encoding
import SdHost.Proofs.Command.Issue
import SdHost.Proofs.Command.Label
import SdHost.Proofs.Command.Progress
import SdHost.Proofs.Command.Sent
import SdHost.Proofs.Command.Start
import SdHost.Proofs.Command.TransferMode
import SdHost.Proofs.Command.Words
import SdHost.Proofs.Controller.Acceptance
import SdHost.Proofs.Controller.Asks
import SdHost.Proofs.Controller.Bearing
import SdHost.Proofs.Controller.Blocking
import SdHost.Proofs.Controller.Bounds
import SdHost.Proofs.Controller.Coupling
import SdHost.Proofs.Controller.Desk
import SdHost.Proofs.Controller.Dispatch
import SdHost.Proofs.Controller.Drain
import SdHost.Proofs.Controller.Equations
import SdHost.Proofs.Controller.Interrupt
import SdHost.Proofs.Controller.Ledger
import SdHost.Proofs.Controller.Memory
import SdHost.Proofs.Controller.Queueing
import SdHost.Proofs.Controller.Reset
import SdHost.Proofs.Controller.ResetSteps
import SdHost.Proofs.Controller.Submission
import SdHost.Proofs.Dialogue.Asks
import SdHost.Proofs.Dialogue.Bounds
import SdHost.Proofs.Dialogue.Commuting
import SdHost.Proofs.Dialogue.Coupling
import SdHost.Proofs.Dialogue.Path
import SdHost.Proofs.Dialogue.Steps
import SdHost.Proofs.Event
import SdHost.Proofs.Flight
import SdHost.Proofs.Interrupt.Severity
import SdHost.Proofs.Operation
import SdHost.Proofs.Operation.Blocking
import SdHost.Proofs.Operation.Bounds
import SdHost.Proofs.Operation.Call
import SdHost.Proofs.Operation.Coherence
import SdHost.Proofs.Operation.Delivery
import SdHost.Proofs.Operation.Guarded
import SdHost.Proofs.Operation.Logging
import SdHost.Proofs.Operation.Mixer
import SdHost.Proofs.Operation.Order
import SdHost.Proofs.Operation.Parking
import SdHost.Proofs.Operation.Queueing
import SdHost.Proofs.Operation.Refusal
import SdHost.Proofs.Operation.Sound
import SdHost.Proofs.Operation.Tickets
import SdHost.Proofs.Operation.Trace
import SdHost.Proofs.Operation.Turns
import SdHost.Proofs.Operation.Wire
import SdHost.Proofs.Platform.Asks
import SdHost.Proofs.Platform.ClockChange
import SdHost.Proofs.Platform.ClockFailure
import SdHost.Proofs.Platform.Glitchless
import SdHost.Proofs.Platform.SystemControl
import SdHost.Proofs.Platform.UsdhcClock
import SdHost.Proofs.Query
import SdHost.Proofs.Queue.Tickets
import SdHost.Proofs.Register.Reading
import SdHost.Proofs.Shared.Arrivals
import SdHost.Proofs.Shared.Harmless
import SdHost.Proofs.Turn
import SdHost.Proofs.Turn.Bounds
import SdHost.Proofs.Turn.Coherence
import SdHost.Proofs.Turn.Data
import SdHost.Proofs.Turn.Direction
import SdHost.Proofs.Turn.Drain
import SdHost.Proofs.Turn.Flight
import SdHost.Proofs.Turn.Leftover
import SdHost.Proofs.Turn.Outcome
import SdHost.Proofs.Turn.Wire
import SdHost.Queue
import SdHost.Register.Field
import SdHost.Register.Map
import SdHost.SharedController
import SdHost.Text.Hex
