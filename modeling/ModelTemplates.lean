import ModelTemplates.Channel
import ModelTemplates.CommandLine.Command
import ModelTemplates.CommandLine.Execution
import ModelTemplates.CommandLine.Help
import ModelTemplates.CommandLine.Invocation
import ModelTemplates.Condition
import ModelTemplates.Config
import ModelTemplates.Config.Load
import ModelTemplates.Config.Overview
import ModelTemplates.Config.Yaml
import ModelTemplates.Controller
import ModelTemplates.Controller.Trial
import ModelTemplates.Controller.Trial.Session
import ModelTemplates.Counter
import ModelTemplates.Data
import ModelTemplates.Data.Decode
import ModelTemplates.Decimal.Binary64
import ModelTemplates.Decimal.Shortest
import ModelTemplates.Disk
import ModelTemplates.Duration
import ModelTemplates.Event
import ModelTemplates.Event.Bus
import ModelTemplates.Faults
import ModelTemplates.Handler.Condition
import ModelTemplates.Handler.Template
import ModelTemplates.Handler.Version
import ModelTemplates.Json
import ModelTemplates.Key
import ModelTemplates.Leadership
import ModelTemplates.Leadership.Trial
import ModelTemplates.Lease
import ModelTemplates.Ledger
import ModelTemplates.Ledger.Locks
import ModelTemplates.Main
import ModelTemplates.Manager
import ModelTemplates.Manager.Session
import ModelTemplates.Manifests
import ModelTemplates.Meta
import ModelTemplates.Plan
import ModelTemplates.Proofs.Channel.Unread
import ModelTemplates.Proofs.Condition.History
import ModelTemplates.Proofs.Condition.Lookup
import ModelTemplates.Proofs.Config.Omission
import ModelTemplates.Proofs.Controller.Deliveries
import ModelTemplates.Proofs.Controller.Filing
import ModelTemplates.Proofs.Controller.Heed
import ModelTemplates.Proofs.Controller.Intact
import ModelTemplates.Proofs.Controller.Listing
import ModelTemplates.Proofs.Controller.Pending
import ModelTemplates.Proofs.Controller.Processing
import ModelTemplates.Proofs.Controller.Relists
import ModelTemplates.Proofs.Controller.Rest
import ModelTemplates.Proofs.Controller.Rules
import ModelTemplates.Proofs.Controller.Workers
import ModelTemplates.Proofs.Data.Decoded
import ModelTemplates.Proofs.Data.Members
import ModelTemplates.Proofs.Data.Paths
import ModelTemplates.Proofs.Data.Rearranged
import ModelTemplates.Proofs.Data.Survival
import ModelTemplates.Proofs.Data.Timestamp
import ModelTemplates.Proofs.Data.Uid
import ModelTemplates.Proofs.Disk.Writing
import ModelTemplates.Proofs.Event.Reading
import ModelTemplates.Proofs.Handler.Contract
import ModelTemplates.Proofs.Handler.Numbering
import ModelTemplates.Proofs.Handler.Recording
import ModelTemplates.Proofs.Handler.Steady
import ModelTemplates.Proofs.Leadership.Candidates
import ModelTemplates.Proofs.Leadership.Elector
import ModelTemplates.Proofs.Leadership.Shutdown
import ModelTemplates.Proofs.Lease.Answers
import ModelTemplates.Proofs.Lease.Exclusivity
import ModelTemplates.Proofs.Lease.Lasting
import ModelTemplates.Proofs.Ledger.Count
import ModelTemplates.Proofs.Ledger.Exclusion
import ModelTemplates.Proofs.Ledger.Exhaustion
import ModelTemplates.Proofs.Ledger.Rebuild
import ModelTemplates.Proofs.Ledger.Takeover
import ModelTemplates.Proofs.Manager.Chain
import ModelTemplates.Proofs.Manager.Convergence
import ModelTemplates.Proofs.Manager.CreateOnly
import ModelTemplates.Proofs.Manager.Default
import ModelTemplates.Proofs.Manager.Generators
import ModelTemplates.Proofs.Manager.Idle
import ModelTemplates.Proofs.Manager.Separation
import ModelTemplates.Proofs.Manager.Sequential
import ModelTemplates.Proofs.Manager.Settled
import ModelTemplates.Proofs.Manager.Turns
import ModelTemplates.Proofs.Manager.Workers
import ModelTemplates.Proofs.Manifests.Seeding
import ModelTemplates.Proofs.Numbering.Assignment
import ModelTemplates.Proofs.Numbering.Books
import ModelTemplates.Proofs.Numbering.Lifetimes
import ModelTemplates.Proofs.Numbering.Tally
import ModelTemplates.Proofs.Object.Reading
import ModelTemplates.Proofs.Plan.Failures
import ModelTemplates.Proofs.Plan.Handlers
import ModelTemplates.Proofs.Plan.Requests
import ModelTemplates.Proofs.Serving.Faithful
import ModelTemplates.Proofs.Serving.Source
import ModelTemplates.Proofs.Store.Client
import ModelTemplates.Proofs.Store.Creation
import ModelTemplates.Proofs.Store.Fence
import ModelTemplates.Proofs.Store.History
import ModelTemplates.Proofs.Store.Origin
import ModelTemplates.Proofs.Store.Parts
import ModelTemplates.Proofs.Store.Replay
import ModelTemplates.Proofs.Template.Delivery
import ModelTemplates.Proofs.Template.Prospect
import ModelTemplates.Proofs.Template.Reading
import ModelTemplates.Proofs.Template.Removal
import ModelTemplates.Proofs.Template.Resolved
import ModelTemplates.Proofs.Template.Rules
import ModelTemplates.Proofs.Template.Selection
import ModelTemplates.Proofs.Template.Upkeep
import ModelTemplates.Proofs.Version.Conduct
import ModelTemplates.Proofs.Version.Course
import ModelTemplates.Proofs.Version.Debt
import ModelTemplates.Proofs.Version.Delivery
import ModelTemplates.Proofs.Version.Linking
import ModelTemplates.Proofs.Version.Permanence
import ModelTemplates.Proofs.Version.Progress
import ModelTemplates.Proofs.Version.Reading
import ModelTemplates.Proofs.Version.Rules
import ModelTemplates.Proofs.WorkQueue.Backoff
import ModelTemplates.Proofs.WorkQueue.Delivery
import ModelTemplates.Proofs.WorkQueue.Orderly
import ModelTemplates.Proofs.Yaml.Library
import ModelTemplates.Proofs.Yaml.Spelling
import ModelTemplates.Schedule
import ModelTemplates.Serving
import ModelTemplates.Store
import ModelTemplates.Store.Error
import ModelTemplates.Stores
import ModelTemplates.Table
import ModelTemplates.Template
import ModelTemplates.Text
import ModelTemplates.Text.Lowercase
import ModelTemplates.Text.Unprintable
import ModelTemplates.Timestamp
import ModelTemplates.Uid
import ModelTemplates.Version
import ModelTemplates.WorkQueue
import ModelTemplates.WorkQueue.Timed
import ModelTemplates.World
import ModelTemplates.Yaml.Event
import ModelTemplates.Yaml.Node
import ModelTemplates.Yaml.Plain
import ModelTemplates.Yaml.Read
import ModelTemplates.Yaml.ScalarText
import ModelTemplates.Yaml.Token
import ModelTemplates.Yaml.TokenStream
import ModelTemplates.Yaml.Typed
import ModelTemplates.Yaml.Writer
