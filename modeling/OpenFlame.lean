import OpenFlame.Base.Guard
import OpenFlame.Base.Cuts
import OpenFlame.Base.Tape
import OpenFlame.Base.Table
import OpenFlame.Base.Runs
import OpenFlame.Base.Process
import OpenFlame.Base.Alone
import OpenFlame.Base.Append
import OpenFlame.Base.Log
import OpenFlame.Base.Chain
import OpenFlame.Base.Text
import OpenFlame.Base.Lines
import OpenFlame.Base.Decimal
import OpenFlame.Base.Json
import OpenFlame.Base.Points
import OpenFlame.Download.Store
import OpenFlame.Download.Aggregate
import OpenFlame.Download.Circuit
import OpenFlame.Download.CircuitInv
import OpenFlame.Download.AggregateInv
import OpenFlame.Download.Claim
import OpenFlame.Download.Recovery
import OpenFlame.Download.Control
import OpenFlame.Download.Graph
import OpenFlame.Download.Discovery
import OpenFlame.Download.Batch
import OpenFlame.Download.System
import OpenFlame.Download.Safety
import OpenFlame.Download.Assets
import OpenFlame.Download.Cancel
import OpenFlame.Download.Gate
import OpenFlame.Upload.Contracts
import OpenFlame.Upload.Metadata
import OpenFlame.Upload.Store
import OpenFlame.Upload.Identity
import OpenFlame.Upload.Target
import OpenFlame.Upload.Requests
import OpenFlame.Upload.Attempts
import OpenFlame.Upload.Jobs
import OpenFlame.Upload.Scheduler
import OpenFlame.Upload.Service
import OpenFlame.Upload.Ledger
import OpenFlame.Upload.Receipts
import OpenFlame.Upload.Moves
import OpenFlame.Upload.Invariants
import OpenFlame.Upload.Normalize
import OpenFlame.Upload.Creation
import OpenFlame.Upload.Calls
import OpenFlame.Upload.Dispatch
import OpenFlame.Upload.Runs
import OpenFlame.Upload.Safety
import OpenFlame.Upload.Fencing
import OpenFlame.Upload.Coherence
import OpenFlame.Upload.Lineages
import OpenFlame.Upload.Replay
import OpenFlame.Upload.Keys
import OpenFlame.Upload.Fixpoint
import OpenFlame.Editing.Authorization
import OpenFlame.Editing.Timeline
import OpenFlame.Editing.Pipeline
import OpenFlame.Editing.Subtitles
import OpenFlame.Editing.Encodings
import OpenFlame.Editing.Captions
import OpenFlame.Editing.Parsing
import OpenFlame.Editing.Hold
import OpenFlame.Editing.Windows
import OpenFlame.Editing.Track
import OpenFlame.Editing.Aligned
import OpenFlame.Editing.Recipe
import OpenFlame.Workflow.Profile
import OpenFlame.Escapes.Recipe
import OpenFlame.Escapes.Texts
import OpenFlame.Escapes.Profile
import OpenFlame.Escapes.Total
import OpenFlame.Workflow.Canonical
import OpenFlame.Workflow.Titles
import OpenFlame.Workflow.Accepted
import OpenFlame.Workflow.Store
import OpenFlame.Workflow.Snapshots
import OpenFlame.Workflow.Calls
import OpenFlame.Workflow.Advance
import OpenFlame.Workflow.Service
import OpenFlame.Workflow.Changes
import OpenFlame.Workflow.History
import OpenFlame.Workflow.Races
import OpenFlame.Workflow.Keys
import OpenFlame.Workflow.Progress
import OpenFlame.Workflow.Waits
import OpenFlame.Capability.Evidence
import OpenFlame.Capability.Governance
import OpenFlame.Capability.Audit
import OpenFlame.Capability.History
import OpenFlame.Capability.Safety
import OpenFlame.Base.Dialogue
import OpenFlame.Base.JsonAscii
import OpenFlame.Download.Url
import OpenFlame.Network.Egress
import OpenFlame.ShortLink.Resolver
import OpenFlame.ShortLink.Hops
import OpenFlame.ShortLink.Transport
import OpenFlame.Workflow.Presets
import OpenFlame.Base.Slices
import OpenFlame.Media.Response
import OpenFlame.Subprocess.Output
import OpenFlame.Base.Slots
import OpenFlame.Adapters.Progress
import OpenFlame.Network.Redirects
import OpenFlame.Base.PointsJson
import OpenFlame.Wire.Fields
import OpenFlame.Base.Pieces
import OpenFlame.Wire.Messages
import OpenFlame.Wire.Total
import OpenFlame.Base.StreamReader
import OpenFlame.ShortLink.Responses
import OpenFlame.Base.Trim
import OpenFlame.ShortLink.Reading
import OpenFlame.Base.Effect
import OpenFlame.Bridge.Invocation
import OpenFlame.Bridge.Run
import OpenFlame.Bridge.Closed
import OpenFlame.Adapters.Probe
import OpenFlame.Adapters.Keys
import OpenFlame.Upload.ShortTitles
import OpenFlame.Workflow.Schedules
import OpenFlame.Download.Finished
import OpenFlame.Download.Prepare
import OpenFlame.Base.Percent
import OpenFlame.Download.Segments
import OpenFlame.Download.Canonicalization
import OpenFlame.Editing.Display
import OpenFlame.Editing.Styled
import OpenFlame.Editing.Rewriting
import OpenFlame.Editing.Wrapping
import OpenFlame.Relay.Pump
import OpenFlame.Relay.Connections
import OpenFlame.Relay.Slots
import OpenFlame.Backup.Manifest
import OpenFlame.Backup.Restore
import OpenFlame.Backup.UploadManifest
import OpenFlame.Backup.UploadRestore
