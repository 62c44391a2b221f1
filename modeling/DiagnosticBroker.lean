import DiagnosticBroker.Main
import DiagnosticBroker.Simulation.Scenario
import DiagnosticBroker.Simulation.ScriptFormat
import DiagnosticBroker.Proofs.FileTree.Places
import DiagnosticBroker.Proofs.Sandbox.Chains
import DiagnosticBroker.Proofs.Instance.Announcements
import DiagnosticBroker.Proofs.Instance.Connection
import DiagnosticBroker.Proofs.Instance.Activity
import DiagnosticBroker.Proofs.Instance.Documents
import DiagnosticBroker.Proofs.Instance.Scene
import DiagnosticBroker.Proofs.Instance.Effect
import DiagnosticBroker.Proofs.Instance.DocumentProtocol
import DiagnosticBroker.Proofs.Collector.Accounts
import DiagnosticBroker.Proofs.Instance.Waiters
import DiagnosticBroker.Proofs.Instance.StreamLoss
import DiagnosticBroker.Proofs.Instance.Freshness
import DiagnosticBroker.Proofs.Instance.Termination
import DiagnosticBroker.Proofs.Instance.Events
import DiagnosticBroker.Proofs.Instance.Traffic
import DiagnosticBroker.Proofs.Instance.Turns
import DiagnosticBroker.Proofs.Instance.Correspondence
import DiagnosticBroker.Proofs.Instance.Lifecycle
import DiagnosticBroker.Proofs.Instance.Stranding
import DiagnosticBroker.Proofs.Instance.Settlement
import DiagnosticBroker.Proofs.Pool.Depot
import DiagnosticBroker.Proofs.Pool.Slots
import DiagnosticBroker.Proofs.Pool.Growth
import DiagnosticBroker.Proofs.Pool.Markers
import DiagnosticBroker.Proofs.Pool.Orderly
import DiagnosticBroker.Proofs.Pool.Instances
import DiagnosticBroker.Proofs.Pool.Progress
import DiagnosticBroker.Proofs.Pool.Sharing
import DiagnosticBroker.Proofs.Pool.Hands
import DiagnosticBroker.Proofs.Pool.Custody
import DiagnosticBroker.Proofs.Pool.Draining
import DiagnosticBroker.Proofs.Json.Records
import DiagnosticBroker.Proofs.Settings.Precedence
import DiagnosticBroker.Proofs.Collector.Desk
import DiagnosticBroker.Proofs.Pool.Attempts
import DiagnosticBroker.Proofs.Pool.LaunchBudget
import DiagnosticBroker.Proofs.Text.Utf8
import DiagnosticBroker.Proofs.Tool.Lines
import DiagnosticBroker.Proofs.Tool.Requests
import DiagnosticBroker.Proofs.Tool.Shift
import DiagnosticBroker.Proofs.Tool.Answers
import DiagnosticBroker.Proofs.Json.Tokens
import DiagnosticBroker.Proofs.Json.RoundTrip
import DiagnosticBroker.Proofs.Json.Canonical
import DiagnosticBroker.Proofs.Json.Soundness
import DiagnosticBroker.Proofs.Wire.Messages
import DiagnosticBroker.Proofs.Wire.Frames
import DiagnosticBroker.Proofs.Tool.Completion
import DiagnosticBroker.Proofs.Json.Repeats
import DiagnosticBroker.Proofs.Tool.Overdue
import DiagnosticBroker.Proofs.Tool.Endurance
import DiagnosticBroker.Proofs.Text.Escapes
import DiagnosticBroker.Proofs.Collector.Matching
import DiagnosticBroker.Proofs.Collector.Vigil
import DiagnosticBroker.Proofs.Validation.Outcome
import DiagnosticBroker.Proofs.Text.RawPercents
import DiagnosticBroker.Proofs.Pool.Dismissal
import DiagnosticBroker.Proofs.Pool.Restarts
import DiagnosticBroker.Proofs.Instance.Holdings
import DiagnosticBroker.Proofs.Session.Gathering
import DiagnosticBroker.Proofs.Session.References
import DiagnosticBroker.Proofs.Session.Release
import DiagnosticBroker.Proofs.Text.Normalization
import DiagnosticBroker.Proofs.Registry.Overrides
import DiagnosticBroker.Proofs.Backoff.Retries
import DiagnosticBroker.Proofs.Collector.Unreadable
import DiagnosticBroker.Proofs.Wire.CutStreams
import DiagnosticBroker.Proofs.Json.Values
import DiagnosticBroker.Proofs.Wire.LegalMessages
import DiagnosticBroker.Proofs.Tool.Calls
import DiagnosticBroker.Proofs.Tool.Commissions
import DiagnosticBroker.Proofs.Pool.Reaping
import DiagnosticBroker.Proofs.Instance.Replies
import DiagnosticBroker.Proofs.Instance.Residue
import DiagnosticBroker.Proofs.Instance.Dismissal
import DiagnosticBroker.Proofs.Collector.Shelf
import DiagnosticBroker.Proofs.Settings.Spans
import DiagnosticBroker.Proofs.Wire.Reencoding
