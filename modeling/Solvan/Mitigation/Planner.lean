import Solvan.Base.Calendar
import Solvan.Mitigation.Policy

namespace Solvan.Mitigation
open Domain (Raised ActionType RiskClass Mapping ExpectedEffect canonicalJsonHash deriveExpectedEffect
  freezeJson)
open Workflow

/-- What `new_identifier` returns in the course of one plan. -/
structure NewIdentifiers where
  hypothesis : String
  policy : String
  action : String

structure MitigationPlanResult where
  incidentId : String
  hypothesisId : String
  actionId : String
  displayId : String
  workflowVersion : Nat
  evidenceVersion : Nat
deriving DecidableEq, Repr

structure RollbackProposalResult where
  incidentId : String
  failedActionId : String
  actionId : String
  displayId : String
  workflowVersion : Nat
  evidenceVersion : Nat
deriving DecidableEq, Repr

def minutes (n : Nat) : Int := milliseconds (n * 60000)

/-- `f"ACT-{allocated:04d}"` -/
def displayText (n : Nat) : String :=
  "ACT-" ++ String.ofList (List.leftpad 4 '0' (Nat.toDigits 10 n))

variable (sha256 : ByteArray → String)

/-- `_digest` -/
def digest (value : Json) : String := canonicalJsonHash sha256 value

def actionSignature (actionType : ActionType) (payload : Mapping) (targetKey : String) : String :=
  digest sha256 (.obj [("action_type", .str actionType.value),
    ("payload_digest", .str (digest sha256 (.obj payload))), ("target_key", .str targetKey)])

/-- The effect of a frozen payload, as `derive_expected_effect` has it. -/
def expectedEffectOf (actionType : ActionType) (targetKey targetVersion : String)
    (payload : Mapping) : Except PersistenceError ExpectedEffect :=
  let effect := do
    deriveExpectedEffect sha256 actionType targetKey targetVersion (← freezeJson payload)
  effect.mapError .contract

def Session.withAction (s : Session) (row : ActionRow) : Session :=
  { s with db := { s.db with
    actions := s.db.actions ++ [row]
    nextActionDisplay := s.db.nextActionDisplay + 1 } }

/-- The `INSERT INTO solvan.actions`, with `_allocate_action_display_id`. -/
def insertAction (s : Session) (action : String → ActionRow) :
    Except PersistenceError (Session × String) := do
  let displayId := displayText s.db.nextActionDisplay
  let row := action displayId
  require (!s.db.actions.any (fun a => a.idempotencyKey == row.idempotencyKey)) .uniqueViolation
  return (s.withAction row, displayId)

def insertPolicyDecision (s : Session) (row : PolicyDecisionRow) : Session :=
  { s with db := { s.db with policyDecisions := s.db.policyDecisions ++ [row] } }

/-- The hypothesis the evidence confirms, and its link from the incident. -/
def insertConfirmedHypothesis (s : Session) (lease : LeaseHandle) (row : HypothesisRow) :
    Except PersistenceError Session := do
  require (!s.db.hypotheses.any (fun h => h.incidentId == row.incidentId &&
    h.normalizedCauseKey == row.normalizedCauseKey && h.revision == row.revision)) .uniqueViolation
  let hit := fun i : IncidentRow =>
    i.id == lease.entityId && leaseNames lease.owner lease.token i.lease
  require (s.db.incidents.any hit) (.workflowConflict "incident lease changed during diagnosis")
  let linked := s.db.updateIncidents hit
    (fun i => { i with suspectedRootCauseId := some row.id, confirmedRootCauseId := some row.id })
    (fun _ => rfl)
  return { s with db := { linked with hypotheses := linked.hypotheses ++ [row] } }

/-- The first part of `plan_preauthorized_pool_recycle`: the cause is confirmed. -/
def confirmCause (s : Session) (lease : LeaseHandle) (actorId hypothesisId : String)
    (rule : ConfirmationRuleRow) (spec : ConfirmationSpec) (evidenceRefs : List String) :
    Except PersistenceError (Session × LeaseHandle) := do
  let (s, diagnosingVersion) ← commitTransition s lease
    { fromState := .investigating
      toState := .diagnosing
      transitionKey := "DIAGNOSIS_STARTED:" ++ (rule.id ++ ":" ++ toString rule.version)
      actorType := .coordinator
      actorId
      reasonCode := "APPROVED_CONFIRMATION_RULE_READY"
      rationaleSummary := "All fresh typed observations required by the approved " ++
        "confirmation rule are present."
      evidenceRefs
      policyDecisionId := none }
  let s ← insertConfirmedHypothesis s lease
    { id := hypothesisId
      incidentId := lease.entityId
      statement := spec.statement
      normalizedCauseKey := spec.normalizedCauseKey
      revision := 1
      status := .confirmed
      supportingEvidenceRefs := evidenceRefs
      confirmationRuleId := rule.id
      confirmationRuleVersion := rule.version
      confirmedAt := some s.db.now }
  return (s, { lease with workflowVersion := diagnosingVersion })

def poolTargetKey (scope : Scope) (service : ServiceRow) : String :=
  scope.organizationId ++ "/" ++ scope.projectId ++ "/" ++ scope.environmentId ++
    "/payments-admin/" ++ service.serviceKey ++ "/connection-pool"

/-- What the recycle is decided on. -/
structure RecycleMaterial where
  authority : StandingPreauthorizationRow
  profile : VerificationProfileRow
  payload : Mapping
  target : TargetEpochRow

def recycleMaterial (db : Database) (scope : Scope) (incident : IncidentRow)
    (service : ServiceRow) : Except PersistenceError RecycleMaterial := do
  let authority ← singleStandingAuthority db incident
  let profile ← verificationProfile db incident
  match authority.payloadConstraints with
  | .obj payload => do
    let target ← targetEpoch db (poolTargetKey scope service)
    return ⟨authority, profile, payload, target⟩
  | _ => .error (.mitigationPolicyError "standing preauthorization payload is not an object")

/-- The second part: the action is selected. -/
def selectRecycle (s : Session) (scope : Scope) (lease : LeaseHandle) (actorId : String)
    (new : NewIdentifiers) (incident : IncidentRow) (service : ServiceRow)
    (evidenceRefs : List String) (m : RecycleMaterial) :
    Except PersistenceError (Session × LeaseHandle) := do
  let policyMaterial : Mapping :=
    [("action_type", .str "PAYMENTS_POOL_RECYCLE"),
      ("evidence_refs", .arr (evidenceRefs.map .str)),
      ("evidence_version", .int incident.evidenceVersion),
      ("hypothesis_id", .str new.hypothesis),
      ("payload", .obj m.payload),
      ("preauthorization_id", .str m.authority.id),
      ("preauthorization_version", .int m.authority.version),
      ("target_epoch", .int m.target.epoch),
      ("target_key", .str (poolTargetKey scope service)),
      ("target_version", .str m.target.lastObservedVersion),
      ("verification_profile_id", .str m.profile.id),
      ("verification_profile_version", .int m.profile.version)]
  let s := insertPolicyDecision s
    { id := new.policy
      policyVersion := "standing:" ++ m.authority.id ++ ":v" ++ toString m.authority.version
      inputHash := digest sha256 (.obj policyMaterial)
      decision := .allow
      reasonCode := "EXACT_STANDING_PREAUTHORIZATION_MATCH" }
  let (s, proposedVersion) ← commitTransition s lease
    { fromState := .diagnosing
      toState := .mitigationProposed
      transitionKey := "MITIGATION_SELECTED:" ++ new.hypothesis
      actorType := .coordinator
      actorId
      reasonCode := "CONFIRMED_CAUSE_HAS_ALLOWLISTED_ACTION"
      rationaleSummary := "The confirmed connection-exhaustion cause maps to the " ++
        "single allowlisted pool-recycle action."
      evidenceRefs
      policyDecisionId := some new.policy }
  return (s, { lease with workflowVersion := proposedVersion })

def recycleAction (db : Database) (scope : Scope) (lease : LeaseHandle) (actorId : String)
    (new : NewIdentifiers) (incident : IncidentRow) (service : ServiceRow) (m : RecycleMaterial)
    (expectedEffect : ExpectedEffect) (displayId : String) : ActionRow :=
  let targetKey := poolTargetKey scope service
  let signature := actionSignature sha256 .paymentsPoolRecycle m.payload targetKey
  { id := new.action
    displayId
    incidentId := lease.entityId
    workflowVersion := lease.workflowVersion + 1
    evidenceVersion := incident.evidenceVersion
    actionType := .paymentsPoolRecycle
    normalizedSignature := signature
    targetKey
    expectedTargetVersion := m.target.lastObservedVersion
    expectedTargetEpoch := m.target.epoch
    payload := m.payload
    payloadDigest := digest sha256 (.obj m.payload)
    expectedEffect
    riskClass := .medium
    reversible := false
    rollbackPlan := [("fallback_action", .str "CLOUD_RUN_TRAFFIC_ROLLBACK"),
      ("requires_approval", .bool true)]
    verificationProfileId := m.profile.id
    verificationProfileVersion := m.profile.version
    policyDecisionId := new.policy
    proposerPrincipal := actorId
    standingPreauthorization := some (m.authority.id, m.authority.version)
    requiresApproval := false
    status := .authorized
    idempotencyKey := "pool-recycle:" ++ lease.entityId ++ ":" ++ signature
    expiresAt := min (db.now + minutes 5) m.authority.validUntil }

/-- The last part: the action is created and authorized. -/
def authorizeRecycle (s : Session) (scope : Scope) (lease : LeaseHandle) (actorId : String)
    (new : NewIdentifiers) (incident : IncidentRow) (service : ServiceRow)
    (evidenceRefs : List String) (m : RecycleMaterial) :
    Except PersistenceError (Session × MitigationPlanResult) := do
  let expectedEffect ← expectedEffectOf sha256 .paymentsPoolRecycle (poolTargetKey scope service)
    m.target.lastObservedVersion m.payload
  let (s, displayId) ← insertAction s
    (recycleAction sha256 s.db scope lease actorId new incident service m expectedEffect)
  let (s, mitigatingVersion) ← commitTransition s lease
    { fromState := .mitigationProposed
      toState := .mitigating
      transitionKey := "PREAUTHORIZED:" ++ new.action
      actorType := .policyEngine
      actorId
      reasonCode := "EXACT_STANDING_PREAUTHORIZATION_MATCH"
      rationaleSummary := "Action material exactly matches the live human-authored " ++
        "standing preauthorization."
      evidenceRefs
      policyDecisionId := some new.policy }
  require (mitigatingVersion == lease.workflowVersion + 1)
    (.workflowConflict "authorized action workflow version was not final")
  return (s, ⟨lease.entityId, new.hypothesis, new.action, displayId, mitigatingVersion,
    incident.evidenceVersion⟩)

/-- `plan_preauthorized_pool_recycle` -/
def planPreauthorizedPoolRecycle (scope : Scope) (lease : LeaseHandle) (actorId : String)
    (new : NewIdentifiers) (db : Database) :
    Except PersistenceError (Session × Option MitigationPlanResult) := do
  require (lease.aggregateType == .incident)
    (.valueError "mitigation planning requires an incident lease")
  match lockedIncident db lease with
  | none => .error (.workflowConflict "incident workflow or coordinator lease is stale")
  | some (incident, service) =>
    if incident.state ≠ .investigating ∨ completedPlanExists db lease.entityId = false then
      return (⟨db, []⟩, none)
    else do
      let rule ← singleConfirmationRule db incident.incidentClass
      let spec ← parseConfirmationSpec rule.requiredObservations
      match matchingEvidence db lease.entityId spec.allRequired with
      | none => return (⟨db, []⟩, none)
      | some evidenceRefs => do
        let (s, lease) ← confirmCause ⟨db, []⟩ lease actorId new.hypothesis rule spec evidenceRefs
        let m ← recycleMaterial s.db scope incident service
        let (s, lease) ← selectRecycle sha256 s scope lease actorId new incident service
          evidenceRefs m
        let (s, result) ← authorizeRecycle sha256 s scope lease actorId new incident service
          evidenceRefs m
        return (s, some result)

/-- What the rollback is decided on. -/
structure RollbackMaterial where
  incident : IncidentRow
  service : ServiceRow
  deployment : DeploymentPolicy
  profile : VerificationProfileRow
  target : TargetEpochRow

def RollbackMaterial.payload (m : RollbackMaterial) : Mapping :=
  [("service_name", .str m.service.platformResource),
    ("known_good_revision", .str m.deployment.knownGoodRevision),
    ("percent", .int 100)]

/-- The failed recycle the rollback stands in for. -/
def failedRecycleExists (db : Database) (incidentId failedActionId verificationId : String) : Bool :=
  db.actions.any (fun a => a.id == failedActionId && a.incidentId == incidentId &&
    a.actionType == .paymentsPoolRecycle && a.status == .succeeded &&
    db.verificationRuns.any (fun v => v.actionId == some a.id && v.id == verificationId &&
      (v.verdict == .failed || v.verdict == .inconclusive)))

def rollbackMaterial (db : Database) (lease : LeaseHandle)
    (failedActionId verificationId : String) : Except PersistenceError RollbackMaterial := do
  require (lease.aggregateType == .incident)
    (.valueError "rollback planning requires an incident lease")
  match lockedIncident db lease with
  | none =>
    .error (.workflowConflict "rollback planning has no current incident authority")
  | some (incident, service) => do
    require (incident.state == .verifyingMitigation)
      (.workflowConflict "rollback planning has no current incident authority")
    require (failedRecycleExists db lease.entityId failedActionId verificationId)
      (.mitigationPolicyError "rollback fallback requires one failed verified pool recycle")
    require (decide (incident.actionAttemptCount < incident.actionBudget))
      (.mitigationPolicyError "incident action budget is exhausted")
    let deployment ← approvedDeploymentPolicy db incident service
    let profile ← verificationProfile db incident
    let target ← targetEpoch db deployment.targetKey
    require (target.lastObservedVersion == deployment.activeRevision)
      (.mitigationPolicyError
        "approved deployment revision differs from the live target baseline")
    return ⟨incident, service, deployment, profile, target⟩

def rollbackDecision (failedActionId verificationId : String) (new : NewIdentifiers)
    (m : RollbackMaterial) : PolicyDecisionRow :=
  let policyMaterial : Mapping :=
    [("action_type", .str "CLOUD_RUN_TRAFFIC_ROLLBACK"),
      ("failed_action_id", .str failedActionId),
      ("verification_id", .str verificationId),
      ("evidence_version", .int m.incident.evidenceVersion),
      ("payload", .obj m.payload),
      ("target_key", .str m.deployment.targetKey),
      ("target_epoch", .int m.target.epoch),
      ("target_version", .str m.target.lastObservedVersion),
      ("verification_profile_id", .str m.profile.id),
      ("verification_profile_version", .int m.profile.version)]
  { id := new.policy
    policyVersion := "production-graph:" ++ m.incident.productionGraphSnapshotId ++
      ":approval-bound-rollback-v1"
    inputHash := digest sha256 (.obj policyMaterial)
    decision := .requireApproval
    reasonCode := "PARTIAL_RECOVERY_REQUIRES_EXACT_ROLLBACK" }

def rollbackProposal (failedActionId verificationId actorId : String) (new : NewIdentifiers) :
    TransitionWrite where
  fromState := .verifyingMitigation
  toState := .mitigationProposed
  transitionKey := "VERIFICATION_FAILED_RETRYABLE:" ++ verificationId
  actorType := .coordinator
  actorId
  reasonCode := "PARTIAL_RECOVERY_HAS_APPROVED_FALLBACK"
  rationaleSummary := "The bounded autonomous action did not restore health; the " ++
    "approved graph permits only an exact human-approved rollback."
  evidenceRefs := ["db://solvan/verification-runs/" ++ verificationId,
    "db://solvan/actions/" ++ failedActionId]
  policyDecisionId := some new.policy

def proposeRollback (db : Database) (lease : LeaseHandle)
    (failedActionId verificationId actorId : String) (new : NewIdentifiers)
    (m : RollbackMaterial) : Except PersistenceError (Session × LeaseHandle) := do
  let s := insertPolicyDecision ⟨db, []⟩
    (rollbackDecision sha256 failedActionId verificationId new m)
  let (s, proposedVersion) ← commitTransition s lease
    (rollbackProposal failedActionId verificationId actorId new)
  return (s, { lease with workflowVersion := proposedVersion })

def rollbackSignature (m : RollbackMaterial) : String :=
  actionSignature sha256 .cloudRunTrafficRollback m.payload m.deployment.targetKey

def rollbackKey (lease : LeaseHandle) (verificationId : String) (m : RollbackMaterial) : String :=
  "rollback:" ++ lease.entityId ++ ":" ++ verificationId ++ ":" ++ rollbackSignature sha256 m

/-- The action is bound to the version that granting its approval will reach. -/
def rollbackAction (db : Database) (lease : LeaseHandle) (verificationId actorId : String)
    (new : NewIdentifiers) (m : RollbackMaterial) (expectedEffect : ExpectedEffect)
    (displayId : String) : ActionRow :=
  { id := new.action
    displayId
    incidentId := lease.entityId
    workflowVersion := lease.workflowVersion + 2
    evidenceVersion := m.incident.evidenceVersion
    actionType := .cloudRunTrafficRollback
    normalizedSignature := rollbackSignature sha256 m
    targetKey := m.deployment.targetKey
    expectedTargetVersion := m.target.lastObservedVersion
    expectedTargetEpoch := m.target.epoch
    payload := m.payload
    payloadDigest := digest sha256 (.obj m.payload)
    expectedEffect
    riskClass := .high
    reversible := true
    rollbackPlan := [("restore_revision", .str m.deployment.activeRevision),
      ("requires_separate_approval", .bool true)]
    verificationProfileId := m.profile.id
    verificationProfileVersion := m.profile.version
    policyDecisionId := new.policy
    proposerPrincipal := actorId
    standingPreauthorization := none
    requiresApproval := true
    status := .awaitingApproval
    idempotencyKey := rollbackKey sha256 lease verificationId m
    expiresAt := db.now + minutes 15 }

def approvalRequest (actorId : String) (new : NewIdentifiers) : TransitionWrite where
  fromState := .mitigationProposed
  toState := .awaitingApproval
  transitionKey := "APPROVAL_REQUIRED:" ++ new.action
  actorType := .policyEngine
  actorId
  reasonCode := "HIGH_RISK_TRAFFIC_CHANGE"
  rationaleSummary := "Cloud Run traffic movement is bound to exact immutable " ++
    "material and requires a distinct authorized approver."
  evidenceRefs := ["db://solvan/actions/" ++ new.action]
  policyDecisionId := some new.policy

def requestApproval (s : Session) (lease : LeaseHandle)
    (failedActionId verificationId actorId : String) (new : NewIdentifiers)
    (m : RollbackMaterial) : Except PersistenceError (Session × RollbackProposalResult) := do
  let expectedEffect ← expectedEffectOf sha256 .cloudRunTrafficRollback m.deployment.targetKey
    m.target.lastObservedVersion m.payload
  let (s, displayId) ← insertAction s
    (rollbackAction sha256 s.db lease verificationId actorId new m expectedEffect)
  let (s, awaitingVersion) ← commitTransition s lease (approvalRequest actorId new)
  require (awaitingVersion == lease.workflowVersion + 1)
    (.workflowConflict "rollback waiting workflow version was not final")
  return (s, ⟨lease.entityId, failedActionId, new.action, displayId, awaitingVersion,
    m.incident.evidenceVersion⟩)

/-- `plan_approval_bound_rollback` -/
def planApprovalBoundRollback (lease : LeaseHandle) (failedActionId verificationId actorId : String)
    (new : NewIdentifiers) (db : Database) :
    Except PersistenceError (Session × RollbackProposalResult) := do
  let m ← rollbackMaterial db lease failedActionId verificationId
  let (s, lease) ← proposeRollback sha256 db lease failedActionId verificationId actorId new m
  requestApproval sha256 s lease failedActionId verificationId actorId new m

end Solvan.Mitigation
