import DesiredState.Codec.Error
import DesiredState.Codec.Event
import DesiredState.Codec.Manifest
import DesiredState.Codec.Plan
import DesiredState.Codec.Record
import DesiredState.Codec.Report
import DesiredState.Codec.Resource
import DesiredState.Codec.Schema
import DesiredState.Codec.Store
import DesiredState.Command.Arguments
import DesiredState.Command.Output
import DesiredState.Command.Run
import DesiredState.Diff
import DesiredState.Disk
import DesiredState.Duration
import DesiredState.Error
import DesiredState.Event
import DesiredState.Json.Reader
import DesiredState.Json.Shape
import DesiredState.Json.Writer
import DesiredState.LineDiff.Compaction
import DesiredState.LineDiff.MiddleSnake
import DesiredState.LineDiff.Script
import DesiredState.LineDiff.Unified
import DesiredState.Main
import DesiredState.Manifest
import DesiredState.Matching
import DesiredState.Number
import DesiredState.Number.Decimal
import DesiredState.Number.Double
import DesiredState.Pass.Apply
import DesiredState.Pass.Converge
import DesiredState.Pass.Plan
import DesiredState.Pass.Preview
import DesiredState.Pass.Report
import DesiredState.Pass.Request
import DesiredState.Proofs.SortedMap
import DesiredState.Proofs.Value
import DesiredState.Resource
import DesiredState.Schema
import DesiredState.Schema.Catalog
import DesiredState.Schema.Descriptor
import DesiredState.Settings
import DesiredState.Settings.Document
import DesiredState.SortedMap
import DesiredState.Store
import DesiredState.Store.Document
import DesiredState.Store.Faulty
import DesiredState.Store.Memory
import DesiredState.Store.State
import DesiredState.Text.Blank
import DesiredState.Text.Table
import DesiredState.Timestamp
import DesiredState.Value
import DesiredState.Wait.Budget
import DesiredState.Wait.Ledger
import DesiredState.Wait.Poll
import DesiredState.Wait.Waiter
import DesiredState.Yaml.Block
import DesiredState.Yaml.Content
import DesiredState.Yaml.Cursor
import DesiredState.Yaml.Document
import DesiredState.Yaml.Node
import DesiredState.Yaml.Plain
import DesiredState.Yaml.Property
import DesiredState.Yaml.Quoted
import DesiredState.Yaml.Scalar
import DesiredState.Yaml.Token
import DesiredState.Proofs.Diff.Attribute
import DesiredState.Proofs.Diff
import DesiredState.Proofs.Diff.Least
import DesiredState.Proofs.Descriptor
import DesiredState.Proofs.Matching
import DesiredState.Proofs.Diff.Validation
import DesiredState.Proofs.Resource
import DesiredState.Proofs.Store.Write
import DesiredState.Proofs.Store.State
import DesiredState.Proofs.Store.Agreement
import DesiredState.Proofs.Wait.Agreement
import DesiredState.Proofs.Identity
import DesiredState.Proofs.Matching.Strict
import DesiredState.Proofs.Pass.Agreement
import DesiredState.Proofs.Pass.ReadOnly
import DesiredState.Proofs.Pass.Plan
import DesiredState.Proofs.Pass.Accounting
import DesiredState.Proofs.Pass.Report
import DesiredState.Proofs.Store.Memory
import DesiredState.Proofs.Pass.Effect
import DesiredState.Proofs.Pass.Frame
import DesiredState.Proofs.Pass.Clean
import DesiredState.Proofs.Pass.Convergence
import DesiredState.Proofs.Pass.Fixpoint
import DesiredState.Proofs.Pass.Strict
import DesiredState.Proofs.Store.Call
import DesiredState.Proofs.Store.Creation
import DesiredState.Proofs.Store.Order
import DesiredState.Proofs.Store.History
import DesiredState.Proofs.Store.Allowed
import DesiredState.Proofs.Pass.Settled
import DesiredState.Proofs.Pass.Sent
import DesiredState.Proofs.Pass.Announcement
import DesiredState.Proofs.Pass.Unopposed
import DesiredState.Proofs.Pass.Possible
import DesiredState.Proofs.Pass.Retry
import DesiredState.Proofs.Store.EventLog
import DesiredState.Proofs.Wait.Timing
import DesiredState.Proofs.Pass.Aside
import DesiredState.Proofs.Pass.OwnEvent
import DesiredState.Proofs.Store.Growth
import DesiredState.Proofs.Store.Atomicity
import DesiredState.Proofs.Store.Page
import DesiredState.Proofs.Wait.Loop
import DesiredState.Proofs.Wait.Dated
import DesiredState.Proofs.Wait.Calls
import DesiredState.Proofs.Wait.Following
import DesiredState.Proofs.Wait.Deadline
import DesiredState.Proofs.Disk.Tree
import DesiredState.Proofs.Disk.Walk
import DesiredState.Proofs.Disk.File
import DesiredState.Proofs.Store.Saving
import DesiredState.Proofs.Store.RemoteCall
import DesiredState.Proofs.Json.Token
import DesiredState.Proofs.Json.Integer
import DesiredState.Proofs.Store.Document
import DesiredState.Proofs.Json.Numeral
import DesiredState.Proofs.Json.Double
import DesiredState.Proofs.Json.Written
import DesiredState.Proofs.Json.Shaped
import DesiredState.Proofs.Timestamp
import DesiredState.Proofs.Codec.Resource
import DesiredState.Proofs.Codec.Event
import DesiredState.Proofs.Store.Encoding
import DesiredState.Proofs.Number.Rounding
import DesiredState.Proofs.Number.Reread
import DesiredState.Proofs.Json.Nesting
import DesiredState.Proofs.Store.Rejection
import DesiredState.Proofs.Store.Wholeness
import DesiredState.Proofs.Json.Reading
import DesiredState.Proofs.Store.Loading
import DesiredState.Proofs.Store.Readback
import DesiredState.Proofs.Store.Reopen
import DesiredState.Proofs.Matching.Assignment
import DesiredState.Proofs.Matching.Order
import DesiredState.Proofs.Pass.Slot
import DesiredState.Proofs.Pass.Turn
import DesiredState.Proofs.Pass.Skipped
import DesiredState.Proofs.Number.Exact
import DesiredState.Proofs.Value.Tree
import DesiredState.Proofs.Label
import DesiredState.Proofs.Value.Place
import DesiredState.Proofs.Wait.Schedule
import DesiredState.Proofs.Store.Subtree
import DesiredState.Proofs.Descriptor.Division
import DesiredState.Proofs.Store.Progress
import DesiredState.Proofs.Pass.SingleUpdate
import DesiredState.Proofs.Store.Newest
import DesiredState.Proofs.LineDiff.Script
import DesiredState.Proofs.LineDiff.Unified
import DesiredState.Proofs.Number.Shortest
import DesiredState.Proofs.Json.Injective
import DesiredState.Proofs.Pass.Preview
import DesiredState.Proofs.Value.Arrangement
import DesiredState.Proofs.Json.Parsed
import DesiredState.Proofs.Codec.Persisted
import DesiredState.Proofs.Codec.Change
import DesiredState.Proofs.Resource.Path
import DesiredState.Proofs.Store.ReportedId
import DesiredState.Proofs.Store.Issuing
import DesiredState.Proofs.Store.Opened
