import Gatehouse.Arguments
import Gatehouse.Decision
import Gatehouse.Document
import Gatehouse.Engine
import Gatehouse.Environment
import Gatehouse.Fault
import Gatehouse.Field
import Gatehouse.Handler
import Gatehouse.Ids
import Gatehouse.Issue
import Gatehouse.Loading
import Gatehouse.Name
import Gatehouse.Number.Binary64
import Gatehouse.Number.Calendar
import Gatehouse.Number.Decimal
import Gatehouse.Number.Numeral
import Gatehouse.Principal
import Gatehouse.Proofs.Deciding.Grounds
import Gatehouse.Proofs.Deciding.Meaning
import Gatehouse.Proofs.Deciding.Pairs
import Gatehouse.Proofs.Deciding.Parts
import Gatehouse.Proofs.Deciding.Stages
import Gatehouse.Proofs.Deciding.Unlogged
import Gatehouse.Proofs.Deciding.Walk
import Gatehouse.Proofs.Fields
import Gatehouse.Proofs.Handlers.Definition
import Gatehouse.Proofs.Handlers.Engines
import Gatehouse.Proofs.Handlers.Entries
import Gatehouse.Proofs.Loading.Completion
import Gatehouse.Proofs.Loading.Failure
import Gatehouse.Proofs.Loading.Growth
import Gatehouse.Proofs.Loading.Imports
import Gatehouse.Proofs.Loading.Later
import Gatehouse.Proofs.Loading.Names
import Gatehouse.Proofs.Loading.Quiet
import Gatehouse.Proofs.Loading.Transparency
import Gatehouse.Proofs.Registry.Atomic
import Gatehouse.Proofs.Registry.Changes
import Gatehouse.Proofs.Registry.Contents
import Gatehouse.Proofs.Registry.Frozen
import Gatehouse.Proofs.Registry.History
import Gatehouse.Proofs.Registry.Making
import Gatehouse.Proofs.Registry.Refusal
import Gatehouse.Proofs.Runs
import Gatehouse.Proofs.Tracing.Coupled
import Gatehouse.Proofs.Tracing.Destinations
import Gatehouse.Proofs.Tracing.Muted
import Gatehouse.Proofs.Tracing.Processes
import Gatehouse.Proofs.Tracing.Sessions
import Gatehouse.Proofs.Web.Checks
import Gatehouse.Proofs.Web.Parameters
import Gatehouse.Proofs.Web.Readings
import Gatehouse.Proofs.Web.Segments
import Gatehouse.Registry
import Gatehouse.Request
import Gatehouse.Route.Table
import Gatehouse.Route.Template
import Gatehouse.Rule
import Gatehouse.Rule.Unchecked
import Gatehouse.Settings
import Gatehouse.Settings.Reading
import Gatehouse.Shared
import Gatehouse.Target
import Gatehouse.Text.Blank
import Gatehouse.Text.Digit
import Gatehouse.Text.Hex
import Gatehouse.Text.Lower
import Gatehouse.Text.Percent
import Gatehouse.Text.Pieces
import Gatehouse.Text.Placeholder
import Gatehouse.Text.Printable
import Gatehouse.Text.Quoted
import Gatehouse.Text.Span
import Gatehouse.Text.Utf8
import Gatehouse.Trace.Files
import Gatehouse.Trace.Level
import Gatehouse.Trace.Log
import Gatehouse.Url.Basic
import Gatehouse.Url.Host
import Gatehouse.Url.Query
import Gatehouse.Value.Basic
import Gatehouse.Value.Display
import Gatehouse.Value.Equality
import Gatehouse.Value.Member
import Gatehouse.Value.Search
import Gatehouse.Web
import Gatehouse.World
import Gatehouse.Proofs.Naming.Requests
import Gatehouse.Proofs.Naming.Declarations
import Gatehouse.Proofs.Naming.Indifference
import Gatehouse.Proofs.Loading.Records
import Gatehouse.Proofs.Loading.Once
import Gatehouse.Proofs.Registry.Spending
import Gatehouse.Proofs.Loading.Account
import Gatehouse.Proofs.Deciding.Course
import Gatehouse.Proofs.Deciding.Plan
import Gatehouse.Proofs.Deciding.Snapshots
import Gatehouse.Proofs.Loading.Precedence
import Gatehouse.Proofs.Naming.Identifiers
import Gatehouse.Proofs.Deciding.Malformed
import Gatehouse.Proofs.Texts
import Gatehouse.Proofs.Routing.Outcomes
import Gatehouse.Proofs.Routing.Templates
import Gatehouse.Proofs.Routing.Building
import Gatehouse.Proofs.Routing.Literals
import Gatehouse.Proofs.Routing.Mounts
import Gatehouse.Proofs.Deciding.Targets
import Gatehouse.Proofs.Routing.Standard
import Gatehouse.Proofs.Merging.Options
import Gatehouse.Proofs.Merging.Keys
import Gatehouse.Proofs.Merging.Paths
import Gatehouse.Proofs.Registry.Requirement
import Gatehouse.Proofs.Tracing.Lines
import Gatehouse.Proofs.Tracing.Transcript
import Gatehouse.Proofs.Shared
import Gatehouse.Proofs.Tracing.Files
import Gatehouse.Proofs.Tracing.Attached
import Gatehouse.Proofs.Tracing.Setups
import Gatehouse.Proofs.Handlers.Agreement
import Gatehouse.Proofs.Handlers.Grants
import Gatehouse.Proofs.Handlers.ClassNames
import Gatehouse.Proofs.Naming.Actions
