import Solvan.Workflow.Actions
import Solvan.Workflow.IncidentMachine

namespace Solvan.Mitigation
open Domain (Raised ActionType RiskClass Mapping)
open Workflow

inductive PlanStatus where
  | accepted | superseded | completed | abandoned
deriving DecidableEq, Repr

inductive PolicyStatus where
  | draft | approved | retired
deriving DecidableEq, Repr

inductive AuthorityStatus where
  | draft | approved | revoked | expired
deriving DecidableEq, Repr

inductive HypothesisStatus where
  | proposed | supported | contradicted | confirmed | rejected
deriving DecidableEq, Repr

inductive RunStatus where
  | created | dispatched | running | succeeded | failed | timedOut | cancelled | stale
deriving DecidableEq, Repr

inductive PolicyOutcome where
  | allow | requireApproval | deny
deriving DecidableEq, Repr

inductive Verdict where
  | verified | failed | inconclusive
deriving DecidableEq, Repr

inductive NodeKind where
  | service | deployment | database | queue | repository | owner | slo | syntheticCheck | agent
  | tool | verificationProfile
deriving DecidableEq, Repr

inductive Actor where
  | coordinator | policyEngine | human
deriving DecidableEq, Repr

structure ServiceRow where
  id : String
  serviceKey : String
  platformResource : String

structure InvestigationPlanRow where
  incidentId : String
  status : PlanStatus

structure ConfirmationRuleRow where
  id : String
  version : Nat
  incidentClass : String
  requiredObservations : Json
  status : PolicyStatus

structure AgentRunRow where
  id : String
  status : RunStatus

structure EvidenceRow where
  id : String
  incidentId : String
  sourceKind : String
  querySpec : Json
  observedAt : Int
  freshnessExpiresAt : Int
  createdByAgentRunId : Option String

structure HypothesisRow where
  id : String
  incidentId : String
  statement : String
  normalizedCauseKey : String
  revision : Nat
  status : HypothesisStatus
  supportingEvidenceRefs : List String
  confirmationRuleId : String
  confirmationRuleVersion : Nat
  confirmedAt : Option Int

structure StandingPreauthorizationRow where
  id : String
  version : Nat
  actionType : ActionType
  serviceId : String
  incidentClass : String
  maximumRiskClass : RiskClass
  payloadConstraints : Json
  maximumAttempts : Nat
  cooldownMs : Nat
  validFrom : Int
  validUntil : Int
  status : AuthorityStatus

structure VerificationProfileRow where
  id : String
  version : Nat
  status : PolicyStatus

structure ProfileBindingRow where
  productionGraphSnapshotId : String
  serviceId : String
  incidentClass : String
  profileId : String
  profileVersion : Nat
  effectiveAt : Int
  supersededAt : Option Int

structure TargetEpochRow where
  targetKey : String
  epoch : Nat
  lastObservedVersion : String

structure GraphSnapshotRow where
  id : String
  status : PolicyStatus
  supersededAt : Option Int

structure GraphNodeRow where
  snapshotId : String
  nodeKind : NodeKind
  resourceRef : Option String
  attributes : Json

structure VerificationRunRow where
  id : String
  actionId : Option String
  verdict : Verdict

structure PolicyDecisionRow where
  id : String
  policyVersion : String
  inputHash : String
  decision : PolicyOutcome
  reasonCode : String

/-- A row of `state_transitions` about an incident. -/
structure TransitionRow where
  entityId : String
  fromState : IncidentState
  toState : IncidentState
  fromWorkflowVersion : Nat
  toWorkflowVersion : Nat
  transitionKey : String
  policyDecisionId : Option String

/-- One scope of the database at one moment. Incidents have their primary key. -/
structure Database where
  now : Int
  incidents : List IncidentRow
  incidentKeys : Table.Unique IncidentRow.id incidents
  services : List ServiceRow
  investigationPlans : List InvestigationPlanRow
  confirmationRules : List ConfirmationRuleRow
  agentRuns : List AgentRunRow
  evidence : List EvidenceRow
  hypotheses : List HypothesisRow
  standingPreauthorizations : List StandingPreauthorizationRow
  verificationProfiles : List VerificationProfileRow
  profileBindings : List ProfileBindingRow
  targetEpochs : List TargetEpochRow
  graphSnapshots : List GraphSnapshotRow
  graphNodes : List GraphNodeRow
  verificationRuns : List VerificationRunRow
  policyDecisions : List PolicyDecisionRow
  actions : List ActionRow
  transitions : List TransitionRow
  nextActionDisplay : Nat

inductive PersistenceError where
  | valueError (message : String)
  | workflowConflict (message : String)
  | mitigationPolicyError (message : String)
  | contract (raised : Raised)
  | uniqueViolation
deriving DecidableEq, Repr

/-- A check the code raises on. -/
def require (ok : Bool) (error : PersistenceError) : Except PersistenceError Unit :=
  if ok then .ok () else .error error

structure TransitionWrite where
  fromState : IncidentState
  toState : IncidentState
  transitionKey : String
  actorType : Actor
  actorId : String
  reasonCode : String
  rationaleSummary : String
  evidenceRefs : List String
  policyDecisionId : Option String

/-- A transition with the state of the database it was committed from. -/
structure Commit where
  before : Database
  lease : LeaseHandle
  write : TransitionWrite

/-- A transaction under way: the database as it sees it, and the transitions
it has written, oldest first. -/
structure Session where
  db : Database
  commits : List Commit

def Database.updateIncidents (db : Database) (p : IncidentRow → Bool)
    (f : IncidentRow → IncidentRow) (keeps : ∀ r, (f r).id = r.id) : Database :=
  { db with
    incidents := Table.update p f db.incidents
    incidentKeys := db.incidentKeys.update (fun r _ _ => keeps r) }

/-- The incident row a lease handle is good for. -/
def IncidentRow.leasedTo (now : Int) (lease : LeaseHandle) (i : IncidentRow) : Bool :=
  i.id == lease.entityId && i.workflowVersion == lease.workflowVersion &&
    leaseLive now lease.owner lease.token i.lease

/-- The rows the update of `commit_transition` hits. -/
def transitionHit (now : Int) (lease : LeaseHandle) (write : TransitionWrite) (i : IncidentRow) :
    Bool :=
  IncidentRow.leasedTo now lease i && i.state == write.fromState

def IncidentRow.moved (i : IncidentRow) (state : IncidentState) : IncidentRow :=
  { i with state, workflowVersion := i.workflowVersion + 1 }

/-- What `commit_transition` writes. -/
def committed (s : Session) (lease : LeaseHandle) (write : TransitionWrite) (toVersion : Nat) :
    Session where
  db := { s.db.updateIncidents (transitionHit s.db.now lease write)
      (IncidentRow.moved · write.toState) (fun _ => rfl) with
    transitions := s.db.transitions ++
      [⟨lease.entityId, write.fromState, write.toState, lease.workflowVersion, toVersion,
        write.transitionKey, write.policyDecisionId⟩] }
  commits := s.commits ++ [⟨s.db, lease, write⟩]

/-- `commit_transition` -/
def commitTransition (s : Session) (lease : LeaseHandle) (write : TransitionWrite) :
    Except PersistenceError (Session × Nat) :=
  if lease.aggregateType = .reliabilityCase then
    .error (.workflowConflict
      "Reliability Case transitions require an atomic next-action schedule")
  else
    match s.db.incidents.find? (transitionHit s.db.now lease write) with
    | none =>
      .error (.workflowConflict
        ("workflow or lease changed before transition " ++ write.transitionKey))
    | some i =>
      if s.db.transitions.any
          (fun t => t.entityId == lease.entityId && t.transitionKey == write.transitionKey) then
        .error .uniqueViolation
      else .ok (committed s lease write (i.workflowVersion + 1), i.workflowVersion + 1)

end Solvan.Mitigation
