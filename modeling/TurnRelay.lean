import TurnRelay.Text.Utf8
import TurnRelay.Text.Printable
import TurnRelay.Text.Quote
import TurnRelay.Text.Space
import TurnRelay.Decimal.Integer
import TurnRelay.Decimal.Shortest
import TurnRelay.Json.Syntax
import TurnRelay.Json.Write
import TurnRelay.Json.Value
import TurnRelay.Json.Decode
import TurnRelay.Assistant.Options
import TurnRelay.Assistant.Event
import TurnRelay.Assistant.Message
import TurnRelay.Assistant.Provider
import TurnRelay.Api.Response
import TurnRelay.Api.Request
import TurnRelay.Api.Transcript
import TurnRelay.Stream.Remap
import TurnRelay.Stream.Aggregate
import TurnRelay.Stream.Session
import TurnRelay.Admission.Queue
import TurnRelay.Admission.Slots
import TurnRelay.Admission.Callers
import TurnRelay.Admission.Gate
import TurnRelay.Assistant.Process
import TurnRelay.Text.Case
import TurnRelay.Logging.Level
import TurnRelay.Telemetry.Metrics
import TurnRelay.Http.Exchange
import TurnRelay.Http.Address
import TurnRelay.Http.EventStream
import TurnRelay.Http.Route
import TurnRelay.Http.Reply
import TurnRelay.Http.Gateway
import TurnRelay.Http.Concurrent
import TurnRelay.Text.Base64
import TurnRelay.Decimal.Duration
import TurnRelay.Yaml.Token
import TurnRelay.Yaml.Token.Cursor
import TurnRelay.Yaml.Input
import TurnRelay.Yaml.Token.Scalar
import TurnRelay.Yaml.Token.Property
import TurnRelay.Yaml.Token.Stream
import TurnRelay.Yaml.Event
import TurnRelay.Yaml.Event.Parse
import TurnRelay.Yaml.Node
import TurnRelay.Yaml.Timestamp
import TurnRelay.Yaml.Resolve
import TurnRelay.Yaml.Node.Compose
import TurnRelay.Yaml.Dynamic
import TurnRelay.Yaml.Decode
import TurnRelay.Config.Settings
import TurnRelay.Config.Template
import TurnRelay.Config.Document
import TurnRelay.Config.Environment
import TurnRelay.Config.Load
import TurnRelay.Text.Path
import TurnRelay.Command
import TurnRelay.Main
import TurnRelay.Proofs.Stream.Steps
import TurnRelay.Proofs.Stream.CallLog
import TurnRelay.Proofs.Stream.Folding
import TurnRelay.Proofs.Http.StreamReading
import TurnRelay.Proofs.Http.Wire
import TurnRelay.Proofs.Stream.Bracket
import TurnRelay.Proofs.Stream.Fates
import TurnRelay.Proofs.Stream.Ledger
import TurnRelay.Proofs.Stream.Trace
import TurnRelay.Proofs.Stream.Outcome
import TurnRelay.Proofs.Stream.Sorting
import TurnRelay.Proofs.Http.Counters
import TurnRelay.Proofs.Admission.SingleFlight
import TurnRelay.Proofs.Http.SingleSession
import TurnRelay.Proofs.Admission.Gauges
import TurnRelay.Proofs.Admission.SlotCounts
import TurnRelay.Proofs.Http.Answer
import TurnRelay.Proofs.Decimal.Reading
import TurnRelay.Proofs.Decimal.Grid
import TurnRelay.Proofs.Json.Number
import TurnRelay.Proofs.Text.Utf8
import TurnRelay.Proofs.Text.Space
import TurnRelay.Proofs.Assistant.Output
import TurnRelay.Proofs.Json.Tree
import TurnRelay.Proofs.Json.Slice
import TurnRelay.Proofs.Json.Decoding
import TurnRelay.Proofs.Api.PromptText
import TurnRelay.Proofs.Json.Lexemes
import TurnRelay.Proofs.Json.Reparse
import TurnRelay.Proofs.Api.RequestBody
import TurnRelay.Proofs.Json.StringLiteral
import TurnRelay.Proofs.Api.PlainText
import TurnRelay.Proofs.Stream.Reply
import TurnRelay.Proofs.Json.Readers
import TurnRelay.Proofs.Assistant.EventReading
import TurnRelay.Proofs.Assistant.LineReading
import TurnRelay.Proofs.Assistant.MessageText
import TurnRelay.Proofs.Json.Canonical
import TurnRelay.Proofs.Json.Tokens
import TurnRelay.Proofs.Json.Written
import TurnRelay.Proofs.Json.Nesting
import TurnRelay.Proofs.Assistant.DeltaReading
import TurnRelay.Proofs.Stream.Usage
import TurnRelay.Proofs.Stream.Closing
import TurnRelay.Proofs.Assistant.ErrorTail
import TurnRelay.Proofs.Config.Layers
import TurnRelay.Proofs.Config.WholeSeconds
import TurnRelay.Proofs.Text.ValidUtf8
import TurnRelay.Proofs.Config.References
import TurnRelay.Proofs.Json.Writable
import TurnRelay.Proofs.Stream.Remapping
