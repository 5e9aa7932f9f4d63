import Solvan.Base.Json.Read
import Solvan.Domain.Values

namespace Solvan.Domain

/-- What the domain layer raises. -/
inductive Raised where
  | actionContractError (message : String)
  | actionPolicyError (reason : String)
  | overflowError
deriving DecidableEq, Repr

inductive ActionType where
  | paymentsPoolRecycle
  | cloudRunTrafficRollback
deriving DecidableEq, Repr

def ActionType.value : ActionType → String
  | .paymentsPoolRecycle => "PAYMENTS_POOL_RECYCLE"
  | .cloudRunTrafficRollback => "CLOUD_RUN_TRAFFIC_ROLLBACK"

inductive RiskClass where
  | low | medium | high | critical
deriving DecidableEq, Repr

def RiskClass.value : RiskClass → String
  | .low => "LOW"
  | .medium => "MEDIUM"
  | .high => "HIGH"
  | .critical => "CRITICAL"

/-- A JSON object. Frozen and thawed it differs only in being read-only. -/
abbrev Mapping := List (String × Json)

structure ExpectedEffect where
  descriptor : Mapping
  contentHash : String

def canonicalJson (value : Json) : ByteArray := value.dumps.toUTF8

def canonicalJsonHash (sha256 : ByteArray → String) (value : Json) : String :=
  "sha256:" ++ sha256 (canonicalJson value)

def freezeJson (value : Mapping) : Except Raised Mapping :=
  match Json.loads (Json.dumps (.obj value)) with
  | some (.obj loaded) => .ok loaded
  | _ => .error (.actionContractError "action JSON must be an object")

/-- What comes back from freezing has its keys in order and is otherwise what
went in. -/
theorem freezeJson_eq_ok {value frozen : Mapping}
    (h : (Json.obj value).sorted = .obj frozen) : freezeJson value = .ok frozen := by
  simp only [freezeJson, Json.loads_dumps, h]

def requireKeys (value : Mapping) (expected : List String) : Except Raised Unit :=
  let keys := value.map Prod.fst
  if keys.all expected.contains && expected.all keys.contains then .ok ()
  else .error (.actionContractError "action payload does not match expected-effect profile")

def poolRecycleDescriptor (targetKey expectedTargetVersion : String) (payload : Mapping) :
    Except Raised Mapping := do
  requireKeys payload ["admin_operation", "drain_timeout_ms"]
  match payload.lookup "admin_operation" with
  | some (.str "RECYCLE_DB_POOL") => pure ()
  | _ => throw (.actionContractError "pool recycle operation is unsupported")
  match payload.lookup "drain_timeout_ms" with
  | some (.int drainTimeoutMs) =>
    if drainTimeoutMs < 1 then
      throw (.actionContractError "pool recycle drain timeout is invalid")
  | _ => throw (.actionContractError "pool recycle drain timeout is invalid")
  return [("action_type", .str ActionType.paymentsPoolRecycle.value),
    ("from_pool_generation", .str expectedTargetVersion),
    ("operation", .obj payload),
    ("profile", .str "payments-pool-recycle.v1"),
    ("schema_version", .int 1),
    ("target_key", .str targetKey)]

def trafficRollbackDescriptor (targetKey expectedTargetVersion : String) (payload : Mapping) :
    Except Raised Mapping := do
  requireKeys payload ["known_good_revision", "percent", "service_name"]
  let serviceName ← match payload.lookup "service_name" with
    | some (.str name) =>
      if name = "" then throw (.actionContractError "Cloud Run service name is invalid") else pure name
    | _ => throw (.actionContractError "Cloud Run service name is invalid")
  let revision ← match payload.lookup "known_good_revision" with
    | some (.str name) =>
      if name = "" then throw (.actionContractError "Cloud Run rollback revision is invalid")
      else pure name
    | _ => throw (.actionContractError "Cloud Run rollback revision is invalid")
  match payload.lookup "percent" with
  | some (.int 100) => pure ()
  | _ => throw (.actionContractError "Cloud Run rollback must replace 100 percent of traffic")
  return [("action_type", .str ActionType.cloudRunTrafficRollback.value),
    ("from_revision", .str expectedTargetVersion),
    ("profile", .str "cloud-run-traffic-replacement.v1"),
    ("schema_version", .int 1),
    ("service_name", .str serviceName),
    ("target_key", .str targetKey),
    ("traffic", .arr [.obj [("percent", .int 100), ("revision", .str revision)]])]

def effectDescriptor : ActionType → String → String → Mapping → Except Raised Mapping
  | .paymentsPoolRecycle => poolRecycleDescriptor
  | .cloudRunTrafficRollback => trafficRollbackDescriptor

def deriveExpectedEffect (sha256 : ByteArray → String) (actionType : ActionType)
    (targetKey expectedTargetVersion : String) (payload : Mapping) :
    Except Raised ExpectedEffect := do
  let descriptor ← effectDescriptor actionType targetKey expectedTargetVersion payload
  let frozen ← freezeJson descriptor
  return ⟨frozen, canonicalJsonHash sha256 (.obj frozen)⟩

/-- The fields of `AuthorizedActionMaterial`. -/
structure ActionMaterial where
  actionId : String
  scope : Scope
  ownerEntityId : String
  workflowVersion : Int
  evidenceVersion : Int
  actionType : ActionType
  targetKey : String
  expectedTargetVersion : String
  expectedTargetEpoch : Int
  payload : Mapping
  expectedEffect : Mapping
  expectedEffectHash : String
  riskClass : RiskClass
  reversible : Bool
  rollbackPlan : Mapping
  policyVersion : String
  verificationProfileId : String
  verificationProfileVersion : Int
  expiresAt : Datetime

/-- The first failing check, in order. -/
def firstFailure (raised : String → Raised) : List (Bool × String) → Except Raised Unit
  | [] => .ok ()
  | (valid, reason) :: checks => if valid then firstFailure raised checks else .error (raised reason)

/-- `__post_init__` -/
def ActionMaterial.postInit (sha256 : ByteArray → String) (m : ActionMaterial) :
    Except Raised Unit := do
  firstFailure .actionContractError
    [(decide (1 ≤ m.workflowVersion), "workflow_version must be positive"),
      (decide (0 ≤ m.evidenceVersion), "evidence_version cannot be negative"),
      (decide (0 ≤ m.expectedTargetEpoch), "expected_target_epoch cannot be negative"),
      (decide (1 ≤ m.verificationProfileVersion), "verification_profile_version must be positive"),
      (m.targetKey != "" && m.expectedTargetVersion != "",
        "target key and version must not be empty"),
      (m.policyVersion != "" && m.verificationProfileId != "",
        "policy and verification profile must not be empty"),
      (m.expiresAt.aware, "expires_at must be timezone-aware")]
  let expected ← deriveExpectedEffect sha256 m.actionType m.targetKey m.expectedTargetVersion m.payload
  firstFailure .actionContractError
    [(Json.dumps (.obj m.expectedEffect) == Json.dumps (.obj expected.descriptor),
        "expected effect is not application-derived"),
      (m.expectedEffectHash == expected.contentHash,
        "expected effect hash does not match descriptor")]

/-- Material that passed its constructor. -/
structure AuthorizedActionMaterial (sha256 : ByteArray → String) extends ActionMaterial where
  valid : toActionMaterial.postInit sha256 = .ok ()

def ActionMaterial.digestFields (m : ActionMaterial) (expiresAt : String) : Mapping :=
  [("action_id", .str m.actionId),
    ("action_type", .str m.actionType.value),
    ("environment_id", .str m.scope.environmentId),
    ("evidence_version", .int m.evidenceVersion),
    ("expected_target_epoch", .int m.expectedTargetEpoch),
    ("expected_target_version", .str m.expectedTargetVersion),
    ("expected_effect_hash", .str m.expectedEffectHash),
    ("expires_at", .str expiresAt),
    ("organization_id", .str m.scope.organizationId),
    ("owner_entity_id", .str m.ownerEntityId),
    ("payload", .obj m.payload),
    ("policy_version", .str m.policyVersion),
    ("project_id", .str m.scope.projectId),
    ("reversible", .bool m.reversible),
    ("risk_class", .str m.riskClass.value),
    ("rollback_plan", .obj m.rollbackPlan),
    ("target_key", .str m.targetKey),
    ("verification_profile_id", .str m.verificationProfileId),
    ("verification_profile_version", .int m.verificationProfileVersion),
    ("workflow_version", .int m.workflowVersion)]

def ActionMaterial.approvalDigest (sha256 : ByteArray → String) (m : ActionMaterial) :
    Except Raised String :=
  match m.expiresAt.utcText with
  | some expiresAt => .ok ("sha256:" ++ sha256 (canonicalJson (.obj (m.digestFields expiresAt))))
  | none => .error .overflowError

end Solvan.Domain
