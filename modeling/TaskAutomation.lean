import TaskAutomation.Text.Bounds
import TaskAutomation.Text.Word
import TaskAutomation.Text.Printable
import TaskAutomation.Text.Digit
import TaskAutomation.Text.Case
import TaskAutomation.Text.Blank
import TaskAutomation.Decimal.Layout
import TaskAutomation.Decimal.Numeral
import TaskAutomation.Value.Text
import TaskAutomation.Value.Writer
import TaskAutomation.Value.Reader
import TaskAutomation.Scope
import TaskAutomation.Condition
import TaskAutomation.Template
import TaskAutomation.Calendar.Date
import TaskAutomation.Calendar.Iso
import TaskAutomation.Calendar.Stamp
import TaskAutomation.DueDate
import TaskAutomation.Check.Leaf
import TaskAutomation.Check.Report
import TaskAutomation.Task
import TaskAutomation.Trigger
import TaskAutomation.Rule
import TaskAutomation.Event
import TaskAutomation.Execution
import TaskAutomation.Notice
import TaskAutomation.Failure
import TaskAutomation.Action.Parameters
import TaskAutomation.Review
import TaskAutomation.Catalog
import TaskAutomation.Suggestion
import TaskAutomation.Api.Request
import TaskAutomation.Message
import TaskAutomation.Settings
import TaskAutomation.Trace
import TaskAutomation.Log
import TaskAutomation.Store.Command
import TaskAutomation.World
import TaskAutomation.Store.Tasks
import TaskAutomation.Store.Rules
import TaskAutomation.Store.Inbox
import TaskAutomation.Store.Timeline
import TaskAutomation.Store.Claims
import TaskAutomation.Link.Basic
import TaskAutomation.Action.Creation
import TaskAutomation.Action.Change
import TaskAutomation.Action.Relation
import TaskAutomation.Action.Telling
import TaskAutomation.Engine.Scan
import TaskAutomation.Engine.Delivery
import TaskAutomation.Engine.Worker
import TaskAutomation.Api.Service
import TaskAutomation.Main
import TaskAutomation.Proofs.Calendar.Date
import TaskAutomation.Proofs.Calendar.Iso
import TaskAutomation.Proofs.Calendar.Month
import TaskAutomation.Proofs.Calendar.Stamp
import TaskAutomation.Proofs.Action.Effects
import TaskAutomation.Proofs.Api.Agreement
import TaskAutomation.Proofs.Api.Change
import TaskAutomation.Proofs.Api.Refusal
import TaskAutomation.Proofs.Check.Fields
import TaskAutomation.Proofs.Condition
import TaskAutomation.Proofs.Condition.Change
import TaskAutomation.Proofs.Condition.Matching
import TaskAutomation.Proofs.Condition.Membership
import TaskAutomation.Proofs.Delivery.Change
import TaskAutomation.Proofs.Delivery.Once
import TaskAutomation.Proofs.Engine.Accounting
import TaskAutomation.Proofs.Engine.Conservation
import TaskAutomation.Proofs.Engine.Review
import TaskAutomation.Proofs.Engine.Trial
import TaskAutomation.Proofs.History.Newest
import TaskAutomation.Proofs.Inbox.Limit
import TaskAutomation.Proofs.Message
import TaskAutomation.Proofs.Program.Session
import TaskAutomation.Proofs.Review
import TaskAutomation.Proofs.Rules.Counting
import TaskAutomation.Proofs.Rules.Edits
import TaskAutomation.Proofs.Rules.RoundTrip
import TaskAutomation.Proofs.Scan.DayKey
import TaskAutomation.Proofs.Scan.Lateness
import TaskAutomation.Proofs.Scan.Once
import TaskAutomation.Proofs.Scan.Report
import TaskAutomation.Proofs.Scan.Suppression
import TaskAutomation.Proofs.Tasks.Bulk
import TaskAutomation.Proofs.Template.Dependence
import TaskAutomation.Proofs.DueDate
import TaskAutomation.Proofs.DueDate.Absolute
import TaskAutomation.Proofs.DueDate.Range
import TaskAutomation.Proofs.DueDate.Relative
import TaskAutomation.Proofs.Engine.Dates
import TaskAutomation.Proofs.Engine.Dependents
import TaskAutomation.Proofs.Engine.Recipients
import TaskAutomation.Proofs.Engine.Snapshot
import TaskAutomation.Proofs.Api.Pages
import TaskAutomation.Proofs.Path.Composition
import TaskAutomation.Proofs.Store.Separation
import TaskAutomation.Proofs.Trace
