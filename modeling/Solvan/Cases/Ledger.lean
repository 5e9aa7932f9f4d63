import Solvan.Base.Versioned
import Solvan.Cases.Machine

/-! The transitions of incidents and Reliability Cases: the projection each one
moves on, its row, and the event it puts out. -/
namespace Solvan.Cases
open Claims (Hold)
open Queues (Queue)
open Versioned
open Workflow (AggregateType IncidentRow IncidentState Lease LeaseHandle leaseFree leaseLive
  leaseNames of_leaseLive)

inductive WorkflowState where
  | incident (state : IncidentState)
  | reliabilityCase (state : CaseState)
deriving DecidableEq, Repr

structure TransitionWrite (σ : Type) where
  fromState : σ
  toState : σ
  transitionKey : String
  actorType : String
  actorId : String
  reasonCode : String
  rationaleSummary : String
  evidenceRefs : List String
  policyDecisionId : Option String
  traceId : Option String
deriving DecidableEq, Repr

def TransitionWrite.map {σ τ : Type} (f : σ → τ) (t : TransitionWrite σ) : TransitionWrite τ :=
  { t with fromState := f t.fromState, toState := f t.toState }

/-- An incident or a case. -/
abbrev AggregateKey := AggregateType × String

/-- A row of `state_transitions`, with the table's `CHECK`. -/
structure StateTransitionRow extends TransitionWrite WorkflowState where
  id : String
  entityType : AggregateType
  entityId : String
  fromWorkflowVersion : Nat
  toWorkflowVersion : Nat
  occurredAt : Int
  follows : toWorkflowVersion = fromWorkflowVersion + 1
deriving DecidableEq

def StateTransitionRow.key (row : StateTransitionRow) : AggregateKey :=
  (row.entityType, row.entityId)

/-- The row without what it says about who made the transition, and why. -/
def StateTransitionRow.entry (row : StateTransitionRow) : Entry AggregateKey WorkflowState :=
  ⟨row.key, row.fromState, row.toState, row.fromWorkflowVersion, row.toWorkflowVersion⟩

inductive WorkflowPayload where
  | incidentDetected (incidentId : String) (state : IncidentState) (workflowVersion : Nat)
  | caseOpened (caseId originatingIncidentId wakeupId : String) (state : CaseState)
  | incidentTransitioned (entityId : String) (fromState toState : IncidentState)
      (workflowVersion : Nat)
  | caseTransitioned (caseId : String) (fromState toState : CaseState) (workflowVersion : Nat)
      (wakeupId : String)
deriving DecidableEq, Repr

/-- A row of `outbox_events`, as it is written. -/
structure WorkflowEvent where
  id : String
  aggregateType : AggregateType
  aggregateId : String
  aggregateVersion : Nat
  topic : String
  eventType : String
  payload : WorkflowPayload
  idempotencyKey : String
deriving DecidableEq, Repr

def AggregateType.value : AggregateType → String
  | .incident => "INCIDENT"
  | .reliabilityCase => "RELIABILITY_CASE"

/-- One scope's projections, their transitions and events, and the history of
the leases. -/
structure LedgerStore where
  projections : CaseStore
  transitions : List StateTransitionRow
  outbox : List WorkflowEvent
  history : History AggregateKey WorkflowState String Token

def LedgerStore.now (s : LedgerStore) : Int := s.projections.now

/-- `INSERT INTO outbox_events`, whose ids and idempotency keys are unique. -/
def LedgerStore.insertEvent (s : LedgerStore) (event : WorkflowEvent) : Option LedgerStore :=
  if s.outbox.any (fun e => e.id == event.id || e.idempotencyKey == event.idempotencyKey) then none
  else some { s with outbox := s.outbox ++ [event] }

/-- `INSERT INTO state_transitions`, whose ids and transition keys are unique. -/
def LedgerStore.insertTransition (s : LedgerStore) (lease : LeaseHandle)
    (transition : TransitionWrite WorkflowState) (toVersion : Nat) (transitionId : String) :
    Option LedgerStore :=
  if follows : toVersion = lease.workflowVersion + 1 then
    let row : StateTransitionRow :=
      { transition with
        id := transitionId
        entityType := lease.aggregateType
        entityId := lease.entityId
        fromWorkflowVersion := lease.workflowVersion
        toWorkflowVersion := toVersion
        occurredAt := s.now
        follows }
    if s.transitions.any (fun r =>
        r.id == row.id || (r.key == row.key && r.transitionKey == row.transitionKey)) then none
    else some { s with
      transitions := s.transitions ++ [row]
      history := .committed row.entry lease.owner lease.token s.now :: s.history }
  else none

/-- `open_or_attach_incident`, where it opens one. -/
def openIncident (s : LedgerStore) (incidentId incidentClass primaryServiceId snapshotId : String)
    (actionBudget : Nat) (outboxId : String) : Option LedgerStore :=
  if s.projections.incidents.any (fun i => i.id == incidentId) then none
  else
    let incident : IncidentRow :=
      ⟨incidentId, 1, 0, .detected, incidentClass, primaryServiceId, none, snapshotId, 0,
        actionBudget, none, none, none, none⟩
    { s with
      projections := { s.projections with
        incidents := s.projections.incidents ++ [incident] } }.insertEvent
      ⟨outboxId, .incident, incidentId, 1, "incidents", "IncidentDetected",
        .incidentDetected incidentId .detected 1, "incident-created:" ++ incidentId⟩

/-- `open_for_mitigated_incident`, with `_append_case_outbox`. -/
def openCase (s : LedgerStore) (incidentId : String) (authority : CoordinatorAuthority)
    (schedule : CaseSchedule) (caseId wakeupId outboxId : String) : Option LedgerStore := do
  let linked := s.projections.incidents.any
    (fun i => i.id == incidentId && i.reliabilityCaseId.isSome)
  let projections ←
    openForMitigatedIncident s.projections incidentId authority schedule caseId wakeupId
  let opened : LedgerStore := { s with projections }
  if linked then return opened
  else
    opened.insertEvent
      ⟨outboxId, .reliabilityCase, caseId, 1, "reliability-cases", "ReliabilityCaseOpened",
        .caseOpened caseId incidentId wakeupId .opened, "case-opened:" ++ caseId⟩

/-- `acquire_lease` on an incident. -/
def acquireIncidentLease (s : CaseStore) (incidentId owner : String) (leaseTtlMs : Nat)
    (token : Token) : Option (CaseStore × LeaseHandle) :=
  if leaseTtlMs < 1 then none
  else do
    let hit := fun i : IncidentRow => i.id == incidentId && leaseFree s.now i.lease
    let i ← s.incidents.find? hit
    let lease : Lease := ⟨owner, token, s.now + milliseconds leaseTtlMs⟩
    let incidents := Table.update hit (fun i => { i with lease := some lease }) s.incidents
    return ({ s with incidents }, ⟨.incident, incidentId, owner, token, i.workflowVersion⟩)

/-- `release_lease` on an incident. -/
def releaseIncidentLease (s : CaseStore) (lease : LeaseHandle) : Option CaseStore :=
  let hit := fun i : IncidentRow =>
    i.id == lease.entityId && leaseNames lease.owner lease.token i.lease
  if s.incidents.any hit then
    some { s with incidents := Table.update hit (fun i => { i with lease := none }) s.incidents }
  else none

/-- `acquire_lease` -/
def acquireLease (s : LedgerStore) (aggregateType : AggregateType) (entityId owner : String)
    (leaseTtlMs : Nat) (token : Token) : Option (LedgerStore × LeaseHandle) := do
  let acquire := match aggregateType with
    | .incident => acquireIncidentLease
    | .reliabilityCase => acquireCaseLease
  let (projections, lease) ← acquire s.projections entityId owner leaseTtlMs token
  let hold : Lease := ⟨owner, token, s.now + milliseconds leaseTtlMs⟩
  return ({ s with
    projections
    history := .acquired (aggregateType, entityId) hold :: s.history }, lease)

/-- `release_lease` -/
def releaseLease (s : LedgerStore) (lease : LeaseHandle) : Option LedgerStore := do
  let release := match lease.aggregateType with
    | .incident => releaseIncidentLease
    | .reliabilityCase => releaseCaseLease
  let projections ← release s.projections lease
  return { s with
    projections
    history := .released (lease.aggregateType, lease.entityId) :: s.history }

/-- The incident row `commit_transition` hits. -/
def transitionHit (now : Int) (lease : LeaseHandle) (fromState : IncidentState) (i : IncidentRow) :
    Bool :=
  i.id == lease.entityId && i.state == fromState && i.workflowVersion == lease.workflowVersion &&
    leaseLive now lease.owner lease.token i.lease

/-- `commit_transition` -/
def commitTransition (s : LedgerStore) (lease : LeaseHandle)
    (transition : TransitionWrite IncidentState) (transitionId outboxId : String) :
    Option LedgerStore :=
  if lease.aggregateType = .reliabilityCase then none
  else do
    let hit := transitionHit s.now lease transition.fromState
    let i ← s.projections.incidents.find? hit
    let toVersion := i.workflowVersion + 1
    let incidents := Table.update hit
      (fun i => { i with state := transition.toState, workflowVersion := i.workflowVersion + 1 })
      s.projections.incidents
    let s ← { s with projections := { s.projections with incidents } }.insertTransition lease
      (transition.map .incident) toVersion transitionId
    s.insertEvent
      ⟨outboxId, lease.aggregateType, lease.entityId, toVersion, "workflow-transitions",
        transition.transitionKey,
        .incidentTransitioned lease.entityId transition.fromState transition.toState toVersion,
        "transition:" ++ AggregateType.value lease.aggregateType ++ ":" ++ lease.entityId ++ ":" ++
          transition.transitionKey⟩

/-- What `commit_progress_transition` is given beside the transition. -/
structure Continuation where
  schedule : CaseSchedule
  blockedOwner : Option String
  nextReviewAt : Option Int
  recoveryPlan : Option String
deriving DecidableEq, Repr

def Continuation.progress (next : Continuation) (transition : TransitionWrite CaseState) :
    Progress :=
  ⟨transition.fromState, transition.toState, next.schedule, next.blockedOwner, next.nextReviewAt,
    next.recoveryPlan⟩

/-- The case row `commit_progress_transition` hits. -/
def progressHit (now : Int) (lease : LeaseHandle) (fromState : CaseState) (c : CaseRow) : Bool :=
  c.leasedTo now lease && c.state == fromState

/-- `commit_progress_transition`, with the row and the event it writes. -/
def commitCaseTransition (s : LedgerStore) (lease : LeaseHandle)
    (transition : TransitionWrite CaseState) (next : Continuation)
    (wakeupId transitionId outboxId : String) : Option LedgerStore := do
  let c ← s.projections.cases.find? (progressHit s.now lease transition.fromState)
  let toVersion := c.workflowVersion + 1
  let projections ←
    commitProgressTransition s.projections lease (next.progress transition) wakeupId
  let s ← { s with projections }.insertTransition lease (transition.map .reliabilityCase) toVersion
    transitionId
  s.insertEvent
    ⟨outboxId, .reliabilityCase, lease.entityId, toVersion, "workflow-transitions",
      "ReliabilityCaseTransitioned",
      .caseTransitioned lease.entityId transition.fromState transition.toState toVersion wakeupId,
      "case-transition:" ++ lease.entityId ++ ":" ++ transition.transitionKey⟩

/-- Each call is one statement or transaction, at a moment of its own: `begin`
sets what it reads as `now()`, earlier or later than the last. `wakeups` is
what other transactions do to the wakeups of cases. -/
inductive LedgerMove where
  | begin (now : Int)
  | wakeups (rows : List Wakeup)
  | openIncident (incidentId incidentClass primaryServiceId snapshotId : String)
      (actionBudget : Nat) (outboxId : String)
  | openCase (incidentId : String) (authority : CoordinatorAuthority) (schedule : CaseSchedule)
      (caseId wakeupId outboxId : String)
  | acquireLease (aggregateType : AggregateType) (entityId owner : String) (leaseTtlMs : Nat)
      (token : Token)
  | releaseLease (lease : LeaseHandle)
  | commitTransition (lease : LeaseHandle) (transition : TransitionWrite IncidentState)
      (transitionId outboxId : String)
  | commitProgressTransition (lease : LeaseHandle) (transition : TransitionWrite CaseState)
      (next : Continuation) (wakeupId transitionId outboxId : String)
deriving DecidableEq, Repr

def LedgerStore.next (s : LedgerStore) : LedgerMove → Option LedgerStore
  | .begin now =>
    some { s with projections := { s.projections with
      wakeups := { s.projections.wakeups with now } } }
  | .wakeups rows =>
    some { s with projections := { s.projections with
      wakeups := { s.projections.wakeups with rows } } }
  | .openIncident incidentId incidentClass primaryServiceId snapshotId actionBudget outboxId =>
    openIncident s incidentId incidentClass primaryServiceId snapshotId actionBudget outboxId
  | .openCase incidentId authority schedule caseId wakeupId outboxId =>
    openCase s incidentId authority schedule caseId wakeupId outboxId
  | .acquireLease aggregateType entityId owner leaseTtlMs token =>
    (acquireLease s aggregateType entityId owner leaseTtlMs token).map Prod.fst
  | .releaseLease lease => releaseLease s lease
  | .commitTransition lease transition transitionId outboxId =>
    commitTransition s lease transition transitionId outboxId
  | .commitProgressTransition lease transition next wakeupId transitionId outboxId =>
    commitCaseTransition s lease transition next wakeupId transitionId outboxId

def LedgerStore.empty (now : Int) : LedgerStore := ⟨.empty now [], [], [], []⟩

end Solvan.Cases
