import CallGuard.CircuitName
import CallGuard.Duration
import CallGuard.Execution.Call
import CallGuard.Execution.Context
import CallGuard.Execution.Engine
import CallGuard.Execution.Error
import CallGuard.Execution.Group
import CallGuard.Execution.Limiter
import CallGuard.Execution.Signal
import CallGuard.Execution.Work
import CallGuard.Outcome
import CallGuard.Proofs.Execution.Accounting
import CallGuard.Proofs.Execution.Acts
import CallGuard.Proofs.Execution.Fuel
import CallGuard.Proofs.Execution.Ledger
import CallGuard.Proofs.Execution.Polls
import CallGuard.Proofs.Execution.Signals
import CallGuard.Proofs.Execution.Stages
import CallGuard.Proofs.Rolling.History
import CallGuard.Proofs.Rolling.Rotation
import CallGuard.Registry
import CallGuard.Rolling.Counter
import CallGuard.Rolling.Ring
import CallGuard.Settings
import CallGuard.Settings.Decode
import CallGuard.Settings.Problem
import CallGuard.Settings.Reload
import CallGuard.Stats
import CallGuard.Table
import CallGuard.Telemetry.Directive
import CallGuard.Telemetry.Event
import CallGuard.Telemetry.Export
import CallGuard.Telemetry.Filter
import CallGuard.Text.Alphanumeric
import CallGuard.Text.Excerpt
import CallGuard.Text.Pattern
import CallGuard.Text.Pattern.Set
import CallGuard.Text.Pattern.Sign
import CallGuard.Toml.Document
import CallGuard.Toml.Moment
import CallGuard.Toml.Number
import CallGuard.Toml.Scan
import CallGuard.Toml.Text
import CallGuard.Toml.Tree
import CallGuard.Toml.Value
import CallGuard.Window
import CallGuard.Proofs.Execution.Race
import CallGuard.Proofs.Execution.Rounds
import CallGuard.Proofs.Execution.Timeline
import CallGuard.Proofs.Registry.Operations
import CallGuard.Proofs.Registry.Validity
import CallGuard.Proofs.Registry.Names
import CallGuard.Proofs.Registry.Permanence
import CallGuard.Proofs.Registry.Places
import CallGuard.Proofs.Registry.Histories
import CallGuard.Proofs.Stats.Independence
import CallGuard.Proofs.Text.Bytes
import CallGuard.Proofs.Registry.Isolation
import CallGuard.Proofs.Settings.Reloads
import CallGuard.Proofs.Rows
import CallGuard.Proofs.Rolling.Interleaving
import CallGuard.Proofs.Rolling.Orderly
import CallGuard.Proofs.Rolling.Spans
import CallGuard.Proofs.Stats.Snapshots
import CallGuard.Proofs.Execution.Wakeup
import CallGuard.Proofs.Execution.Contention
import CallGuard.Proofs.Execution.Threads
import CallGuard.Proofs.Execution.Permits
import CallGuard.Proofs.Execution.Refusals
import CallGuard.Proofs.Execution.Pool
import CallGuard.Proofs.Execution.Pauses
import CallGuard.Proofs.Execution.Descendants
import CallGuard.Proofs.Execution.Groups
import CallGuard.Proofs.Execution.Reports
import CallGuard.Proofs.Registry.Deeds
import CallGuard.Proofs.Registry.Exports
import CallGuard.Proofs.Registry.Labels
import CallGuard.Proofs.Registry.Contest
import CallGuard.Proofs.Registry.Rush
import CallGuard.Proofs.Registry.Gauge
import CallGuard.Proofs.Execution.Chronicle
import CallGuard.Proofs.Execution.Twins
import CallGuard.Proofs.Registry.Parallel
import CallGuard.Proofs.Registry.Windows
import CallGuard.Proofs.Rolling.Contents
import CallGuard.Proofs.Rolling.RealTime
import CallGuard.Proofs.Rolling.Reordering
import CallGuard.Proofs.Rolling.Watching
import CallGuard.Proofs.Rolling.Widths
import CallGuard.Proofs.Settings.Rules
import CallGuard.Proofs.Execution.Deadlines
import CallGuard.Proofs.Settings.Schema
import CallGuard.Proofs.Settings.Documents
import CallGuard.Proofs.Rolling.Routes
import CallGuard.Proofs.Rolling.Words
import CallGuard.Proofs.Stats.Words
