import LogIntake.Batcher
import LogIntake.Collector
import LogIntake.Delivery
import LogIntake.Entry
import LogIntake.Failure
import LogIntake.Files
import LogIntake.Http.Address
import LogIntake.Http.Auth
import LogIntake.Http.Handler
import LogIntake.Http.Input
import LogIntake.Http.Label
import LogIntake.Http.Request
import LogIntake.Json.Basic
import LogIntake.Json.Reader
import LogIntake.Json.Writer
import LogIntake.Logs
import LogIntake.Number.Binary64
import LogIntake.Number.Shortest
import LogIntake.Operator.Basic
import LogIntake.Operator.Builtin
import LogIntake.Operator.Location
import LogIntake.Operator.Registry
import LogIntake.Pipeline.Build
import LogIntake.Pipeline.Chain
import LogIntake.Pipeline.Job
import LogIntake.Pipeline.Lifecycle
import LogIntake.Pipeline.Running
import LogIntake.Proofs.Batching.Conservation
import LogIntake.Proofs.Batching.Cut
import LogIntake.Proofs.Batching.Grouping
import LogIntake.Proofs.Batching.Stopping
import LogIntake.Proofs.Batching.Timer
import LogIntake.Proofs.Chain.Composing
import LogIntake.Proofs.Chain.Passing
import LogIntake.Proofs.Delivery.Attempts
import LogIntake.Proofs.Delivery.Collecting
import LogIntake.Proofs.Delivery.Offers
import LogIntake.Proofs.Delivery.Retrying
import LogIntake.Proofs.Delivery.Timing
import LogIntake.Proofs.Expansion.Building
import LogIntake.Proofs.Expansion.Inlining
import LogIntake.Proofs.Expansion.Lookups
import LogIntake.Proofs.Expansion.Nesting
import LogIntake.Proofs.Expansion.Outcome
import LogIntake.Proofs.Expansion.Parameters
import LogIntake.Proofs.Expansion.Resolve
import LogIntake.Proofs.Http.Addresses
import LogIntake.Proofs.Http.Authentication
import LogIntake.Proofs.Http.BodyLimit
import LogIntake.Proofs.Http.Ingest
import LogIntake.Proofs.Http.Labelling
import LogIntake.Proofs.Http.ServerLife
import LogIntake.Proofs.Operator.Builtins
import LogIntake.Proofs.Operator.Parsing
import LogIntake.Proofs.Operator.Registering
import LogIntake.Proofs.Pipeline.Balance
import LogIntake.Proofs.Pipeline.Calls
import LogIntake.Proofs.Pipeline.Life
import LogIntake.Proofs.Pipeline.Steps
import LogIntake.Proofs.Pipeline.Timing
import LogIntake.Proofs.Pipeline.Work
import LogIntake.Proofs.Receiver.EndToEnd
import LogIntake.Proofs.Receiver.History
import LogIntake.Proofs.Receiver.Lifecycle
import LogIntake.Proofs.Receiver.Shutdown
import LogIntake.Proofs.Receiver.Surfacing
import LogIntake.Proofs.Settings.Durations
import LogIntake.Proofs.Settings.Keeping
import LogIntake.Proofs.Settings.Merging
import LogIntake.Proofs.Settings.Paths
import LogIntake.Proofs.Settings.Reading
import LogIntake.Proofs.Settings.Substituting
import LogIntake.Proofs.Settings.Writing
import LogIntake.Proofs.Template.Filling
import LogIntake.Proofs.Template.Loading
import LogIntake.Proofs.Template.Placeholders
import LogIntake.Proofs.Template.Scanning
import LogIntake.Receiver
import LogIntake.Settings.Basic
import LogIntake.Settings.Load
import LogIntake.Settings.Merge
import LogIntake.Settings.Substitution
import LogIntake.Severity
import LogIntake.Span
import LogIntake.Template.Basic
import LogIntake.Template.Pattern
import LogIntake.Template.Set
import LogIntake.Text.Base64
import LogIntake.Text.Blank
import LogIntake.Text.Cut
import LogIntake.Text.Numeral
import LogIntake.Text.Printable
import LogIntake.Text.Shown
import LogIntake.Text.Utf8
import LogIntake.TextMap
import LogIntake.Timestamp
import LogIntake.Toml.Basic
import LogIntake.Toml.Datetime
import LogIntake.Toml.Decode
import LogIntake.Toml.Inline
import LogIntake.Toml.Literal
import LogIntake.Toml.Reader
