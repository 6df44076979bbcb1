import Outreach.Engine.Schedule
import Outreach.Json.Transform
import Outreach.Main
import Outreach.Simulation.Transcript
import Outreach.Web.Answer
import Outreach.Proofs.Attempts
import Outreach.Proofs.Text.Decimal
import Outreach.Proofs.Time.Calendar
import Outreach.Proofs.Time.Text
import Outreach.Proofs.Time.Reading
import Outreach.Proofs.Json.Numeral
import Outreach.Proofs.Number.Shortest
import Outreach.Proofs.Json.Tokens
import Outreach.Proofs.Json.Shape
import Outreach.Proofs.Engine.Program
import Outreach.Proofs.Engine.Run
import Outreach.Proofs.Json.Reading
import Outreach.Proofs.Uuid
import Outreach.Proofs.Tasks.Queue
import Outreach.Proofs.Sweep.Phase
import Outreach.Proofs.Tasks.Table
import Outreach.Proofs.Sweep.Log
import Outreach.Proofs.Sweep.Race
import Outreach.Proofs.Sweep.Exclusion
import Outreach.Proofs.Sweep.AtMostOnce
import Outreach.Proofs.Sweep.Finished
import Outreach.Proofs.Tasks.Due
import Outreach.Proofs.Engine.Contexts
import Outreach.Proofs.Tasks.Suspension
import Outreach.Proofs.Service.Site
import Outreach.Proofs.Sweep.Blocked
import Outreach.Proofs.Engine.Accounts
import Outreach.Proofs.Engine.Suspending
import Outreach.Proofs.Engine.Continuation
import Outreach.Proofs.Service.Lineage
import Outreach.Proofs.Engine.Termination
import Outreach.Proofs.Service.Rejection
import Outreach.Proofs.Engine.Counting
import Outreach.Proofs.Service.Counters
import Outreach.Proofs.Json.Nesting
import Outreach.Proofs.Json.Records
import Outreach.Proofs.Automation.Graph
import Outreach.Proofs.Database.Automations
import Outreach.Proofs.Service.Samples
import Outreach.Proofs.Engine.Firing
import Outreach.Proofs.Engine.Intake
import Outreach.Proofs.Service.Dispatch
import Outreach.Proofs.Database.Graphs
import Outreach.Proofs.Database.Contacts
import Outreach.Proofs.Database.Boards
import Outreach.Proofs.Service.Boards
import Outreach.Proofs.Service.Reception
import Outreach.Proofs.Service.Interleaving
import Outreach.Proofs.Service.Holders
import Outreach.Proofs.Service.Newcomers
import Outreach.Proofs.Database.Settings
import Outreach.Proofs.Service.Captures
import Outreach.Proofs.Engine.Starting
import Outreach.Proofs.Service.Scene
import Outreach.Proofs.Database.Frames
import Outreach.Proofs.Service.Reach
import Outreach.Proofs.Database.Beside
import Outreach.Proofs.Service.Tenants
import Outreach.Proofs.Database.Profiles
import Outreach.Proofs.Service.Contacts
import Outreach.Proofs.Automation.Written
import Outreach.Proofs.Automation.Validity
import Outreach.Proofs.Database.Sound
import Outreach.Proofs.Service.Upkeep
import Outreach.Proofs.Time.Loose
import Outreach.Proofs.Json.Verbatim
import Outreach.Proofs.Automation.Document
import Outreach.Proofs.Service.Settling
import Outreach.Proofs.Service.Swept
import Outreach.Proofs.Engine.Templates
import Outreach.Proofs.Service.Inbox
import Outreach.Proofs.Engine.Notifications
import Outreach.Proofs.Automation.Offered
import Outreach.Proofs.Service.Exports
import Outreach.Proofs.Security.Signature
import Outreach.Proofs.Web.Access
import Outreach.Proofs.Service.Stages
import Outreach.Proofs.Engine.Mapping
import Outreach.Proofs.Keyed.Merging
import Outreach.Proofs.Text.Lowering
import Outreach.Proofs.Engine.Fields
import Outreach.Proofs.Service.Updates
import Outreach.Proofs.Service.Tagging
import Outreach.Proofs.Engine.Groups
import Outreach.Proofs.Engine.Lookups
import Outreach.Proofs.Time.Hours
import Outreach.Proofs.Text.Words
import Outreach.Proofs.Text.Plain
import Outreach.Proofs.Engine.Schedules
