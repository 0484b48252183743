import ReactivePage.Checkpoint.Action
import ReactivePage.Checkpoint.Edit
import ReactivePage.Checkpoint.Evaluator
import ReactivePage.Checkpoint.Scheduler
import ReactivePage.Config.Document
import ReactivePage.Config.LogFilter
import ReactivePage.Config.Settings
import ReactivePage.Config.Toml.Basic
import ReactivePage.Config.Toml.Reader
import ReactivePage.Config.Toml.Scalar
import ReactivePage.Decimal.Binary64
import ReactivePage.Decimal.Digits
import ReactivePage.Decimal.Shortest
import ReactivePage.Describe
import ReactivePage.Dict
import ReactivePage.Json.Basic
import ReactivePage.Json.Printer
import ReactivePage.Json.Syntax
import ReactivePage.Model.Heap
import ReactivePage.Model.Path
import ReactivePage.Model.Write
import ReactivePage.Page
import ReactivePage.Replay.Cache
import ReactivePage.Replay.Digest
import ReactivePage.Replay.Matcher
import ReactivePage.Replay.Record
import ReactivePage.Replay.Request
import ReactivePage.Replay.ScriptBlock
import ReactivePage.Replay.Transport
import ReactivePage.Template.Attribute
import ReactivePage.Template.Descriptor
import ReactivePage.Template.Format
import ReactivePage.Template.MarkedText
import ReactivePage.Template.Mustache
import ReactivePage.Template.Part
import ReactivePage.Text.Alphanumeric
import ReactivePage.Text.Blank
import ReactivePage.Text.CaseFold
import ReactivePage.Text.Quoted
import ReactivePage.Text.WordChar
import ReactivePage.Watch.Change
import ReactivePage.Watch.Channel
import ReactivePage.Watch.Dispatch
import ReactivePage.Watch.ObserverList
import ReactivePage.Watch.Registry
import ReactivePage.Watch.Store
import ReactivePage.Proofs.DictLaws
import ReactivePage.Proofs.Trace
import ReactivePage.Proofs.Model.Frame
import ReactivePage.Proofs.Model.Closed
import ReactivePage.Proofs.Model.Spelling
import ReactivePage.Proofs.Watch.Subscriptions
import ReactivePage.Proofs.Watch.Wiring
import ReactivePage.Proofs.Json.Same
import ReactivePage.Proofs.Watch.Sending
import ReactivePage.Proofs.Watch.Follow
import ReactivePage.Proofs.Watch.Causes
import ReactivePage.Proofs.Watch.Writing
import ReactivePage.Proofs.Watch.Upkeep
import ReactivePage.Proofs.Checkpoint.Program
import ReactivePage.Proofs.Watch.Observing
import ReactivePage.Proofs.Watch.Tracking
import ReactivePage.Proofs.Watch.Accounting
import ReactivePage.Proofs.Checkpoint.Session
import ReactivePage.Proofs.Checkpoint.Order
import ReactivePage.Proofs.Checkpoint.Turns
import ReactivePage.Proofs.Watch.Holding
import ReactivePage.Proofs.Watch.History
import ReactivePage.Proofs.Watch.Racing
import ReactivePage.Proofs.Watch.Reentrancy
import ReactivePage.Proofs.Checkpoint.Bookkeeping
import ReactivePage.Proofs.Checkpoint.Outcomes
import ReactivePage.Proofs.Checkpoint.Freshness
import ReactivePage.Proofs.Checkpoint.Chronicle
import ReactivePage.Proofs.Checkpoint.Ownership
import ReactivePage.Proofs.Checkpoint.Deeds
import ReactivePage.Proofs.Checkpoint.Management
import ReactivePage.Proofs.Checkpoint.Threads
import ReactivePage.Proofs.Checkpoint.Sequential
import ReactivePage.Proofs.Checkpoint.Due
import ReactivePage.Proofs.Json.Tokens
import ReactivePage.Proofs.Json.Grammar
import ReactivePage.Proofs.Json.Reading
import ReactivePage.Proofs.Replay.Embedding
import ReactivePage.Proofs.Replay.Escaping
import ReactivePage.Proofs.Replay.Encoding
import ReactivePage.Proofs.Replay.Queues
import ReactivePage.Proofs.Replay.Serving
import ReactivePage.Proofs.Replay.Replaying
import ReactivePage.Proofs.Text.Trimming
import ReactivePage.Proofs.Template.Grammar
import ReactivePage.Proofs.Template.Cutting
import ReactivePage.Proofs.Template.Substitution
import ReactivePage.Proofs.Template.Agreement
import ReactivePage.Proofs.Template.Braces
import ReactivePage.Proofs.Template.Rebuilding
import ReactivePage.Proofs.Template.Retouching
import ReactivePage.Proofs.Model.Nesting
import ReactivePage.Proofs.Model.PathText
import ReactivePage.Proofs.Watch.Firing
import ReactivePage.Proofs.Watch.Exactness
import ReactivePage.Proofs.Watch.Reports
import ReactivePage.Proofs.Watch.Kinds
import ReactivePage.Proofs.Model.Splicing
import ReactivePage.Proofs.Watch.Slots
import ReactivePage.Proofs.Checkpoint.Editing
import ReactivePage.Proofs.Watch.Changes
import ReactivePage.Proofs.Watch.Feed
import ReactivePage.Proofs.Checkpoint.Rollback
import ReactivePage.Proofs.Checkpoint.Elements
import ReactivePage.Proofs.Watch.Naming
import ReactivePage.Proofs.Watch.FieldNames
import ReactivePage.Proofs.Model.Descent
import ReactivePage.Proofs.Model.Unfolding
import ReactivePage.Proofs.Text.Folding
import ReactivePage.Proofs.Text.Marks
import ReactivePage.Proofs.Replay.OpeningTags
import ReactivePage.Proofs.Replay.Finding
import ReactivePage.Proofs.Replay.Rendering
import ReactivePage.Proofs.Replay.Selecting
import ReactivePage.Proofs.Replay.Identity
