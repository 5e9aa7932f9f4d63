import Solvan.Base.Json.Equal
import Solvan.Mitigation.Store

namespace Solvan.Mitigation
open Domain (Mapping)
open Workflow

structure ObservationRequirement where
  sourceKind : String
  toolName : String
  argumentEquals : Mapping

structure ConfirmationSpec where
  normalizedCauseKey : String
  statement : String
  allRequired : List ObservationRequirement

/-- `set(value) == …` -/
def hasKeys (value : Mapping) (expected : List String) : Bool :=
  let keys := value.map Prod.fst
  keys.all expected.contains && expected.all keys.contains

def parseRequirement : Json → Except PersistenceError ObservationRequirement
  | .obj raw =>
    if !hasKeys raw ["source_kind", "tool_name", "argument_equals"] then
      .error (.mitigationPolicyError "confirmation observation has an unsupported schema")
    else
      match raw.lookup "source_kind", raw.lookup "tool_name", raw.lookup "argument_equals" with
      | some (.str sourceKind), some (.str toolName), some (.obj (argument :: arguments)) =>
        .ok ⟨sourceKind, toolName, argument :: arguments⟩
      | _, _, _ => .error (.mitigationPolicyError "confirmation observation fields are invalid")
  | _ => .error (.mitigationPolicyError "confirmation observation has an unsupported schema")

/-- `_parse_confirmation_spec` -/
def parseConfirmationSpec : Json → Except PersistenceError ConfirmationSpec
  | .obj value =>
    if !hasKeys value ["normalized_cause_key", "statement", "all_required"] then
      .error (.mitigationPolicyError "confirmation rule has an unsupported schema")
    else
      match value.lookup "normalized_cause_key", value.lookup "statement",
        value.lookup "all_required" with
      | some (.str causeKey), some (.str statement), some (.arr requirements) =>
        if 1 ≤ causeKey.length ∧ causeKey.length ≤ 160 ∧ 1 ≤ statement.length ∧
            statement.length ≤ 2000 ∧ 1 ≤ requirements.length ∧ requirements.length ≤ 8 then do
          return ⟨causeKey, statement, ← requirements.mapM parseRequirement⟩
        else .error (.mitigationPolicyError "confirmation rule fields are invalid")
      | _, _, _ => .error (.mitigationPolicyError "confirmation rule fields are invalid")
  | _ => .error (.mitigationPolicyError "confirmation rule has an unsupported schema")

/-- `_mapping_contains` -/
def mappingContains (value : Option Json) (expected : Mapping) : Bool :=
  match value with
  | some (.obj fields) => Json.equalFields expected fields
  | _ => false

def ObservationRequirement.metBy (requirement : ObservationRequirement) (row : EvidenceRow) : Bool :=
  row.sourceKind == requirement.sourceKind &&
    match row.querySpec with
    | .obj spec =>
      (match spec.lookup "tool_name" with
        | some (.str toolName) => toolName == requirement.toolName
        | _ => false) &&
      mappingContains (spec.lookup "arguments") requirement.argumentEquals
    | _ => false

/-- Each requirement takes the first row that meets it and is not taken yet. -/
def matchRequirements (evidence : List EvidenceRow) :
    List ObservationRequirement → List String → Option (List String)
  | [], _ => some []
  | requirement :: requirements, used => do
    let row ← evidence.find? (fun row => !used.contains row.id && requirement.metBy row)
    let matched ← matchRequirements evidence requirements (row.id :: used)
    return row.id :: matched

/-- `_matching_evidence` -/
def matchingEvidence (db : Database) (incidentId : String)
    (requirements : List ObservationRequirement) : Option (List String) :=
  let fresh := db.evidence.filter (fun e =>
    e.incidentId == incidentId && decide (db.now < e.freshnessExpiresAt) &&
      db.agentRuns.any (fun r => e.createdByAgentRunId == some r.id && r.status == .succeeded))
  let newestFirst := fresh.insertionSort (fun a b =>
    b.observedAt < a.observedAt ∨ (a.observedAt = b.observedAt ∧ a.id ≤ b.id))
  matchRequirements newestFirst requirements []

/-- `_locked_incident`, with the service it is joined to. -/
def lockedIncident (db : Database) (lease : LeaseHandle) : Option (IncidentRow × ServiceRow) := do
  let incident ← db.incidents.find? (IncidentRow.leasedTo db.now lease)
  let service ← db.services.find? (fun s => s.id == incident.primaryServiceId)
  return (incident, service)

/-- `_completed_plan_exists` -/
def completedPlanExists (db : Database) (incidentId : String) : Bool :=
  db.investigationPlans.any (fun p => p.incidentId == incidentId && p.status == .completed)

/-- `LIMIT 2`, and then exactly one row. -/
def exactlyOne {α : Type} (message : String) : List α → Except PersistenceError α
  | [row] => .ok row
  | _ => .error (.mitigationPolicyError message)

/-- `_single_confirmation_rule` -/
def singleConfirmationRule (db : Database) (incidentClass : String) :
    Except PersistenceError ConfirmationRuleRow :=
  exactlyOne "exactly one approved confirmation rule is required"
    (db.confirmationRules.filter (fun r => r.incidentClass == incidentClass && r.status == .approved))

/-- The `WHERE` clause of `_single_standing_authority`. -/
def StandingPreauthorizationRow.covers (now : Int) (incident : IncidentRow)
    (a : StandingPreauthorizationRow) : Bool :=
  a.actionType == .paymentsPoolRecycle && a.serviceId == incident.primaryServiceId &&
    a.incidentClass == incident.incidentClass && a.status == .approved &&
    decide (a.validFrom ≤ now) && decide (now < a.validUntil) && a.maximumRiskClass == .medium &&
    a.maximumAttempts == 1 && decide (600000 ≤ a.cooldownMs)

/-- `cooldown is not None and cooldown > database_now` -/
def cooldownActive (now : Int) (incident : IncidentRow) : Bool :=
  incident.cooldownUntil.any (fun cooldown => decide (now < cooldown))

/-- `_single_standing_authority` -/
def singleStandingAuthority (db : Database) (incident : IncidentRow) :
    Except PersistenceError StandingPreauthorizationRow := do
  let authority ← exactlyOne "exactly one matching live standing authority is required"
    (db.standingPreauthorizations.filter (·.covers db.now incident))
  require (decide (incident.actionAttemptCount < authority.maximumAttempts))
    (.mitigationPolicyError "standing authority attempt budget is exhausted")
  require (!cooldownActive db.now incident)
    (.mitigationPolicyError "standing authority cooldown is active")
  return authority

/-- `_verification_profile` -/
def verificationProfile (db : Database) (incident : IncidentRow) :
    Except PersistenceError VerificationProfileRow :=
  let bindings := db.profileBindings.filter (fun b =>
    b.serviceId == incident.primaryServiceId && b.incidentClass == incident.incidentClass &&
      b.productionGraphSnapshotId == incident.productionGraphSnapshotId && b.supersededAt.isNone &&
      decide (b.effectiveAt ≤ db.now))
  exactlyOne "one current approved verification profile is required"
    (bindings.flatMap (fun b => db.verificationProfiles.filter (fun p =>
      p.id == b.profileId && p.version == b.profileVersion && p.status == .approved)))

/-- `_target_epoch` -/
def targetEpoch (db : Database) (targetKey : String) : Except PersistenceError TargetEpochRow :=
  match db.targetEpochs.find? (fun t => t.targetKey == targetKey) with
  | some target => .ok target
  | none => .error (.mitigationPolicyError "the pool target has no approved epoch baseline")

structure DeploymentPolicy where
  activeRevision : String
  knownGoodRevision : String
  targetKey : String

def deploymentFields : List String :=
  ["service_id", "active_revision", "known_good_revision", "target_key"]

/-- A string that is not empty, as every attribute of a deployment policy is. -/
def nonemptyString (attributes : Mapping) (key : String) : Option String :=
  match attributes.lookup key with
  | some (.str value) => if value = "" then none else some value
  | _ => none

/-- `_approved_deployment_policy` -/
def approvedDeploymentPolicy (db : Database) (incident : IncidentRow) (service : ServiceRow) :
    Except PersistenceError DeploymentPolicy :=
  let nodes := db.graphNodes.filter (fun n =>
    n.snapshotId == incident.productionGraphSnapshotId && n.nodeKind == .deployment &&
      n.resourceRef == some service.platformResource &&
      (match n.attributes with
        | .obj attributes =>
          (match attributes.lookup "service_id" with
            | some (.str serviceId) => serviceId == incident.primaryServiceId
            | _ => false)
        | _ => false) &&
      db.graphSnapshots.any (fun g =>
        g.id == n.snapshotId && g.status == .approved && g.supersededAt.isNone))
  match nodes.map GraphNodeRow.attributes with
  | [.obj attributes] =>
    if !hasKeys attributes deploymentFields then
      .error (.mitigationPolicyError "deployment policy has an unsupported schema")
    else
      match nonemptyString attributes "service_id", nonemptyString attributes "active_revision",
        nonemptyString attributes "known_good_revision", nonemptyString attributes "target_key" with
      | some _, some activeRevision, some knownGoodRevision, some targetKey =>
        if activeRevision = knownGoodRevision then
          .error (.mitigationPolicyError "deployment rollback revisions must differ")
        else .ok ⟨activeRevision, knownGoodRevision, targetKey⟩
      | _, _, _, _ => .error (.mitigationPolicyError "deployment policy has an unsupported schema")
  | _ => .error (.mitigationPolicyError "one approved deployment policy is required")

end Solvan.Mitigation
