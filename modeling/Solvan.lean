import Solvan.Base.Machine
import Solvan.Base.Ledger
import Solvan.Domain.Approval
import Solvan.Queues.EventClaims
import Solvan.Cases.Machine
import Solvan.Detection.Rules
import Solvan.Detection.Streaks
import Solvan.Cases.Continuity
import Solvan.Cases.Coordinator
import Solvan.Cases.Quarantine
import Solvan.Base.Json.Equal
import Solvan.Mitigation.Store
import Solvan.Mitigation.Policy
import Solvan.Mitigation.Planner
import Solvan.Mitigation.Guards
import Solvan.Mitigation.Refinement
import Solvan.Mitigation.Rollback
import Solvan.Actuator.Store
import Solvan.Base.Fencing
import Solvan.Actuator.Dispatch
import Solvan.Actuator.Execute
import Solvan.Actuator.File
import Solvan.Actuator.Refinement
import Solvan.Actuator.Protocol
import Solvan.Actuator.Safety
import Solvan.Actuator.Finality
import Solvan.Actuator.Failures
import Solvan.Actuator.Recovery
import Solvan.Base.Versioned
import Solvan.Cases.Ledger
import Solvan.Cases.Integrity
import Solvan.Investigation.Plans
import Solvan.Investigation.Results
import Solvan.Base.Attempts
import Solvan.Investigation.Steps
import Solvan.Investigation.Coherence
import Solvan.Investigation.Operations
import Solvan.Investigation.Reservation
import Solvan.Investigation.Acceptance
import Solvan.Investigation.Completion
import Solvan.Investigation.Runs
import Solvan.Investigation.Agreement
import Solvan.Investigation.Deferral
import Solvan.Investigation.History
import Solvan.Base.Paging
import Solvan.Liaison.Replay
import Solvan.Liaison.Events
import Solvan.Liaison.Sequence
import Solvan.Liaison.CatchUp
import Solvan.Liaison.Exactness
import Solvan.Liaison.Decisions
import Solvan.Liaison.Steer
import Solvan.Liaison.Submission
import Solvan.Scale.Lanes
import Solvan.Scale.Lifecycle
import Solvan.Base.RoundRobin
import Solvan.Scale.Fairness
import Solvan.Base.Keyed
import Solvan.Repair.Paths
import Solvan.Repair.Candidate
import Solvan.Base.Base64
import Solvan.Repair.Transform
import Solvan.Repair.Replay
import Solvan.Base.Lines
import Solvan.Repair.PatchDiff
import Solvan.Repair.DiffFormat
import Solvan.Repair.Review
import Solvan.Repair.UnifiedDiff
import Solvan.Repair.PatchRules
import Solvan.Repair.Faithful
import Solvan.Liaison.Records
import Solvan.Liaison.Predicates
import Solvan.Liaison.Templates
import Solvan.Liaison.Claims
import Solvan.Liaison.TruthGate
import Solvan.Liaison.BothSides
import Solvan.Scale.Events
import Solvan.Scale.Sequencing
import Solvan.Base.Feed
import Solvan.Scale.Fanout
import Solvan.Scale.Delivery
import Solvan.Scale.Quota
import Solvan.Domain.Recovery
import Solvan.Base.Graph
import Solvan.Base.Kahn
import Solvan.Domain.Investigation
import Solvan.Domain.PlanOrder
import Solvan.Base.Search
import Solvan.Base.Unfold
import Solvan.Base.Kleene
import Solvan.Triage.Evaluate
import Solvan.Triage.Semantics
import Solvan.Triage.Evidence
import Solvan.Base.Checks
import Solvan.Catalog.Tools
import Solvan.Catalog.Binding
import Solvan.Base.Newest
import Solvan.Context.Compiler
import Solvan.Context.Selection
import Solvan.Context.Manifest
import Solvan.Alerts.Cursor
import Solvan.Base.Joins
import Solvan.Base.Pages
import Solvan.Alerts.Listing
import Solvan.Alerts.Paging
import Solvan.Base.Split
import Solvan.Repair.Boundary
import Solvan.Repair.Grounded
import Solvan.Repair.Realisable
import Solvan.Scale.Isolation
import Solvan.Base.Drain
import Solvan.Scale.Draining
import Solvan.Base.Program
import Solvan.Liaison.GrantedReader
import Solvan.Liaison.Gate
import Solvan.Liaison.Parts
import Solvan.Liaison.Composer
import Solvan.Liaison.Turn
import Solvan.Liaison.Containment
import Solvan.Liaison.Planner
import Solvan.Liaison.Loops
import Solvan.Liaison.Envelope
import Solvan.Liaison.Delivered
import Solvan.Liaison.Degraded
import Solvan.Liaison.Kept
import Solvan.Base.Cut
import Solvan.Skills.Package
import Solvan.Skills.Interchange
import Solvan.Base.Json.Rigid
import Solvan.Domain.Arrival
import Solvan.Liaison.Narrowing
import Solvan.Repair.Document
import Solvan.Base.Regex
import Solvan.Liaison.Redaction
import Solvan.Base.Picks
import Solvan.Compute.LogSample
import Solvan.Compute.ChangePoint
import Solvan.Compute.ChangePoint
import Solvan.Alerts.Ingress
import Solvan.Skills.Receipts
import Solvan.Context.TurnManifest
import Solvan.Liaison.Waiting
import Solvan.Skills.Accepted
import Solvan.Skills.Order
import Solvan.Relay.Digests
import Solvan.Relay.Redaction
import Solvan.Base.Failing
import Solvan.Relay.Ledger
import Solvan.Relay.Runtime
import Solvan.Relay.Accounts
import Solvan.Alerts.Requests
import Solvan.Alerts.Documents
import Solvan.Alerts.Canonical
import Solvan.Relay.Retention
import Solvan.Relay.Reconciliation
import Solvan.Scale.Order
import Solvan.Scale.Settling
import Solvan.Skills.Selection
import Solvan.Skills.Invocation
import Solvan.Skills.Governance
import Solvan.Skills.Stored
import Solvan.Skills.RoundTrip
