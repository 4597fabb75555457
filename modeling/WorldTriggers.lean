import WorldTriggers.Action.Builtin
import WorldTriggers.Action.Registry
import WorldTriggers.Catalog
import WorldTriggers.CommandPattern
import WorldTriggers.Condition.Builtin
import WorldTriggers.Condition.Comparison
import WorldTriggers.Condition.Error
import WorldTriggers.Condition.Guard
import WorldTriggers.Condition.Registry
import WorldTriggers.Config
import WorldTriggers.Console
import WorldTriggers.Content.Basic
import WorldTriggers.Content.Directory
import WorldTriggers.Content.Document
import WorldTriggers.Content.Validation
import WorldTriggers.Context
import WorldTriggers.Decimal.Binary
import WorldTriggers.Decimal.Reader
import WorldTriggers.Decimal.Shortest
import WorldTriggers.Direction
import WorldTriggers.Engine.Advance
import WorldTriggers.Engine.Basic
import WorldTriggers.Engine.Control
import WorldTriggers.Engine.Dispatch
import WorldTriggers.Engine.Lifecycle
import WorldTriggers.Event
import WorldTriggers.EventKind
import WorldTriggers.FileTree
import WorldTriggers.Identifier
import WorldTriggers.Json.Basic
import WorldTriggers.Json.Decode
import WorldTriggers.Json.Printer
import WorldTriggers.Json.Reader
import WorldTriggers.Main
import WorldTriggers.Params
import WorldTriggers.Proofs.Atomicity
import WorldTriggers.Proofs.Clock
import WorldTriggers.Proofs.CommandPattern
import WorldTriggers.Proofs.CommandPattern.NormalForm
import WorldTriggers.Proofs.Condition
import WorldTriggers.Proofs.Condition.Formula
import WorldTriggers.Proofs.Condition.Nesting
import WorldTriggers.Proofs.Console
import WorldTriggers.Proofs.Content
import WorldTriggers.Proofs.Dealings
import WorldTriggers.Proofs.Decimal.Exact
import WorldTriggers.Proofs.Decimal.Whole
import WorldTriggers.Proofs.Engine.Bookkeeping
import WorldTriggers.Proofs.Engine.Cascades
import WorldTriggers.Proofs.Engine.Commuting
import WorldTriggers.Proofs.Engine.Cooling
import WorldTriggers.Proofs.Engine.Counting
import WorldTriggers.Proofs.Engine.DefaultStates
import WorldTriggers.Proofs.Engine.Draining
import WorldTriggers.Proofs.Engine.DueOrder
import WorldTriggers.Proofs.Engine.EffectDurations
import WorldTriggers.Proofs.Engine.Endless
import WorldTriggers.Proofs.Engine.ImmediateJobs
import WorldTriggers.Proofs.Engine.Inertness
import WorldTriggers.Proofs.Engine.LoadAfterUnload
import WorldTriggers.Proofs.Engine.Permanence
import WorldTriggers.Proofs.Engine.Refusing
import WorldTriggers.Proofs.Engine.Reloading
import WorldTriggers.Proofs.Engine.Replaying
import WorldTriggers.Proofs.Engine.ReturnedNotices
import WorldTriggers.Proofs.Engine.Returning
import WorldTriggers.Proofs.Engine.Reversals
import WorldTriggers.Proofs.Engine.Routing
import WorldTriggers.Proofs.Engine.SelfSwitching
import WorldTriggers.Proofs.Engine.Sequencing
import WorldTriggers.Proofs.Engine.Storing
import WorldTriggers.Proofs.Engine.SwitchChanges
import WorldTriggers.Proofs.Engine.Switching
import WorldTriggers.Proofs.Engine.Timers
import WorldTriggers.Proofs.FlagTests
import WorldTriggers.Proofs.Json.Edits
import WorldTriggers.Proofs.Json.Readers
import WorldTriggers.Proofs.Json.Same
import WorldTriggers.Proofs.Lowercase
import WorldTriggers.Proofs.ReportedChanges
import WorldTriggers.Proofs.RoundTrips
import WorldTriggers.Proofs.Seconds
import WorldTriggers.Proofs.Store
import WorldTriggers.Proofs.Template
import WorldTriggers.Proofs.Template.Pieces
import WorldTriggers.Proofs.TimerCalls
import WorldTriggers.Proofs.TimestampText
import WorldTriggers.Proofs.Whereabouts
import WorldTriggers.Proofs.Words
import WorldTriggers.Proofs.World.Census
import WorldTriggers.Proofs.World.Consistency
import WorldTriggers.Proofs.World.Stock
import WorldTriggers.Record
import WorldTriggers.Rule
import WorldTriggers.RuleState
import WorldTriggers.Schedule
import WorldTriggers.Scope
import WorldTriggers.Service.Basic
import WorldTriggers.Service.Feed
import WorldTriggers.Session
import WorldTriggers.SortedMap
import WorldTriggers.Store
import WorldTriggers.StoreLocation
import WorldTriggers.Template
import WorldTriggers.Text.Blank
import WorldTriggers.Text.CaseTable
import WorldTriggers.Text.Lowercase
import WorldTriggers.Text.Parts
import WorldTriggers.Text.Path
import WorldTriggers.Text.Quoted
import WorldTriggers.Text.VisibleTable
import WorldTriggers.Time.Basic
import WorldTriggers.Time.Clock
import WorldTriggers.Time.Timestamp
import WorldTriggers.TimerQueue
import WorldTriggers.View.Engine
import WorldTriggers.View.Rule
import WorldTriggers.View.World
import WorldTriggers.Width
import WorldTriggers.World.Actor
import WorldTriggers.World.Basic
import WorldTriggers.World.Error
import WorldTriggers.World.Fixture
import WorldTriggers.World.Room
import WorldTriggers.Yaml.Cursor
import WorldTriggers.Yaml.Decode
import WorldTriggers.Yaml.Node
import WorldTriggers.Yaml.Reader
import WorldTriggers.Yaml.Token
import WorldTriggers.Yaml.Written
