import Outbox.Text.Utf8
import Outbox.Text.Base64
import Outbox.Json.Value
import Outbox.Json.Read
import Outbox.Json.Write
import Outbox.Decimal.Shortest
import Outbox.Time.Span
import Outbox.Time.Calendar
import Outbox.Time.Instant
import Outbox.Time.Stamp
import Outbox.Time.Wheel
import Outbox.Task.Id
import Outbox.Task.Entry
import Outbox.Json.Decode
import Outbox.Task.Codec
import Outbox.Text.Classes
import Outbox.Text.Extending
import Outbox.Text.Escape
import Outbox.Failure
import Outbox.Http.Retry
import Outbox.Config
import Outbox.Store.Memory
import Outbox.Store.Files
import Outbox.Queue.Selection
import Outbox.Queue.Flight
import Outbox.Queue.Shelf
import Outbox.Queue.Pass
import Outbox.Http.Client
import Outbox.Sdk.Task
import Outbox.Sdk.Registry
import Outbox.Scenario.Exchange
import Outbox.Scenario.World
import Outbox.Scenario.Agenda
import Outbox.Scenario.Surroundings
import Outbox.Scenario.Storage
import Outbox.Queue.Build
import Outbox.Scenario.Queue
import Outbox.Scenario.Script
import Outbox.Scenario.Report
import Outbox.Scenario.Answer
import Outbox.Demo
import Outbox.Main
import Outbox.Proofs.PassOrder
import Outbox.Proofs.Encodings
import Outbox.Proofs.Calendar
import Outbox.Proofs.Stamp
import Outbox.Proofs.JsonText
import Outbox.Proofs.Codec
import Outbox.Proofs.InventoryCache
import Outbox.Proofs.StoredTasks
import Outbox.Proofs.InventoryWrites
import Outbox.Proofs.PassOutcomes
import Outbox.Proofs.SingleFlight
import Outbox.Proofs.FlightSteps
import Outbox.Proofs.Events
import Outbox.Proofs.Callbacks
import Outbox.Proofs.ScenarioRuns
import Outbox.Proofs.FlightRelease
import Outbox.Proofs.ClientRounds
import Outbox.Proofs.PauseWindow
import Outbox.Proofs.WheelDue
import Outbox.Proofs.ProbeTimer
import Outbox.Proofs.WheelOnTime
import Outbox.Proofs.WheelWork
import Outbox.Proofs.AgendaOnTime
import Outbox.Proofs.ProbeOnTime
import Outbox.Proofs.SleepRuns
import Outbox.Proofs.RecordKeys
import Outbox.Proofs.RequestPaths
import Outbox.Proofs.JsonMaps
import Outbox.Proofs.SdkPayloads
import Outbox.Proofs.DelayTimer
import Outbox.Proofs.AddThreshold
import Outbox.Proofs.DelayDeadline
import Outbox.Proofs.SelectionCalls
import Outbox.Proofs.ConfigRead
