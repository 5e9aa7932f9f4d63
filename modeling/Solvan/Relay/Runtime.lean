import Solvan.Base.Failing
import Solvan.Relay.Ledger

/-! One collection attempt of a Relay, from its job to its receipt. -/
namespace Solvan.Relay.Attempts
open Base

/-- A mapping that a party answers with. -/
abbrev Answer := List (String × Json)

/-- `answer.get(key)` -/
def Answer.get (answer : Answer) (key : String) : Json := (answer.lookup key).getD .null

/-- Hashes of canonical JSON, which every object of texts has. -/
structure RelayHashing extends Hashing where
  texts : ∀ fields : List (String × String),
    (canonical (.obj (fields.map fun field => (field.1, .str field.2)))).isSome = true

/-- The fields of a job whose envelope was verified, read as the texts, numbers and times they are to be. -/
structure RelayJobFields where
  collectionJobId : String
  jobDigest : String
  adapterKey : String
  adapterRevision : String
  sourceConnectionId : String
  sourceConnectionEpoch : Int
  operation : String
  typedParameters : List (String × Json)
  parametersHash : String
  resourceBindingId : String
  resourceBindingHash : String
  windowStart : Option Datetime
  windowEnd : Option Datetime
  maximumPages : Int
  maximumItems : Int
  maximumBytes : Int
  maximumCalls : Int
  maximumAttempts : Int
  redactionRevision : String
  classificationCeiling : String
  residencyRegion : String
  inputHash : String
  schemaVersion : Int
  canonicalizationVersion : Int

/-- `if not condition: raise RelayRuntimeError(message)` -/
def requireRuntime (condition : Bool) (message : String) : Except Raised Unit :=
  if condition then .ok () else .error (.relayRuntimeError message)

theorem requireRuntime_ok {condition : Bool} {message : String} :
    requireRuntime condition message = .ok () ↔ condition = true := by
  cases condition with
  | false => exact ⟨nofun, nofun⟩
  | true => exact ⟨fun _ => rfl, fun _ => rfl⟩

/-- `canonical_digest`, with the error it raises here. -/
def digestOf (hashing : Hashing) (value : Json) : Except Raised String :=
  match canonicalDigest hashing value with
  | .ok digest => .ok digest
  | .error error => .error (.relayContractError error)

/-- The hash of some bytes -/
def hashOf (hashing : Hashing) (bytes : List UInt8) : String :=
  digestPrefix ++ String.ofList (Hex.hexdigest (hashing.sha256 bytes))

def supportedOperations : List (String × String) :=
  [("monitoring.time-series.read.v1", "cloud-monitoring.v1"),
    ("prometheus.registered-range.read.v1", "managed-prometheus.v1"),
    ("logging.entries.read.v1", "cloud-logging.v1"),
    ("trace.spans.read.v1", "cloud-trace.v1"),
    ("kubernetes.metadata.list.v1", "kubernetes-metadata.v1")]

/-- The checks of `from_envelope` -/
def RelayJobFields.check (hashing : Hashing) (job : RelayJobFields) : Except Raised Unit := do
  checkDigest job.jobDigest "job_digest"
  checkDigest job.resourceBindingHash "resource_binding_hash"
  checkDigest job.parametersHash "parameters_hash"
  checkDigest job.inputHash "input_hash"
  let parametersHash ← digestOf hashing (.obj job.typedParameters)
  requireRuntime (parametersHash == job.parametersHash) "job parameter hash does not bind typed parameters"
  requireRuntime (job.schemaVersion == 1 && job.canonicalizationVersion == 1)
    "customer Relay only accepts collection job schema v1"
  requireRuntime (supportedOperations.lookup job.operation == some job.adapterKey)
    "customer Relay has no adapter for this operation"
  requireRuntime (1 ≤ job.maximumPages && job.maximumPages ≤ 20 && (1 ≤ job.maximumItems && job.maximumItems ≤ 1000) &&
    (1 ≤ job.maximumBytes && job.maximumBytes ≤ 1048576) && (1 ≤ job.maximumCalls && job.maximumCalls ≤ 20) &&
    (1 ≤ job.maximumAttempts && job.maximumAttempts ≤ 2)) "job bounds are outside the closed local limits"

/-- A job that `from_envelope` gave. -/
structure RelayJob (hashing : Hashing) extends RelayJobFields where
  checked : toRelayJobFields.check hashing = .ok ()

/-- The adapter of a policy, with the settings that its reader is given. -/
structure LocalAdapter (Settings : Type) where
  sourceConnectionEpoch : Int
  operations : List String
  settings : Settings

structure RelayPolicy (Settings : Type) where
  redactionRevision : String
  region : String
  classificationCeiling : String
  /-- Adapters by their keys and their source connections -/
  adapters : String → String → Option (LocalAdapter Settings)

/-- `adapter_for`, or none where it raises `RelayPolicyError` -/
def RelayPolicy.adapterFor {Settings : Type} (policy : RelayPolicy Settings) (job : RelayJobFields) :
    Option (LocalAdapter Settings) :=
  match policy.adapters job.adapterKey job.sourceConnectionId with
  | none => none
  | some adapter =>
    if adapter.sourceConnectionEpoch ≠ job.sourceConnectionEpoch || !adapter.operations.contains job.operation then none
    else some adapter

/-- `_classification_rank` -/
def classificationRank (value : String) : Except Raised Nat :=
  match [("PUBLIC", 1), ("INTERNAL", 2), ("CONFIDENTIAL", 3), ("RESTRICTED", 4)].lookup value with
  | some rank => .ok rank
  | none => .error (.relayRuntimeError "classification is outside the closed vocabulary")

/-- Whoever a Relay asks, and what they answer or raise. -/
structure Surroundings (hashing : RelayHashing) where
  Envelope : Type
  Settings : Type
  Record : Type
  /-- The verifier of signatures, and the reading of the fields that a job has to have -/
  verify : Envelope → Except Raised RelayJobFields
  claim : (collectionJobId jobDigest processBootId : String) → Except Raised Answer
  /-- The compiled-in adapters by their keys -/
  readers : String → Option (Settings → RelayJobFields → Except Raised (List Record))
  /-- The redacted envelope of some records, validated by its schema -/
  redacted : RelayJobFields → List Record → Datetime → Except Raised Json
  /-- `json.dumps` with sorted keys and no spaces -/
  dumps : Json → List UInt8
  uploadGrant : (collectionJobId : String) → (body : Json) → Except Raised Answer
  /-- `upload`, with `str` of each header -/
  upload : (url : Json) → (content : List UInt8) → (headers : List (String × Json)) → Except Raised Answer
  receipt : (collectionJobId : String) → (body : Json) → Except Raised Answer
  retryableOutcome : (collectionJobId : String) → (body : Json) → Except Raised Answer
  vault : Vault
  /-- `os.urandom(12)` -/
  nonce : List UInt8
  processBootId : String

/-- What happens outside the Relay, and what it remembers when it reads. -/
inductive Event (hashing : Hashing) where
  | claimed (job : RelayJob hashing) (answer : Answer)
  | read (ledger : EncryptedAttemptLedger)
  | reported (attemptId : String)
  | received (attemptId : String)

structure World (hashing : Hashing) where
  ledger : EncryptedAttemptLedger
  events : List (Event hashing)

def World.log {hashing : Hashing} (w : World hashing) (event : Event hashing) : World hashing :=
  { w with events := w.events ++ [event] }

/-- The binding of an attempt -/
structure Claim where
  claimToken : String
  attemptId : String
  attemptNumber : Int

/-- The number of a value that `isinstance(value, int)` lets pass. -/
def asInt : Json → Option Int
  | .int n => some n
  | .bool b => some (if b then 1 else 0)
  | _ => none

/-- The claim that an answer makes. -/
def readClaim (job : RelayJobFields) (answer : Answer) : Except Raised Claim :=
  match answer.get "claim_token", answer.get "attempt_id", asInt (answer.get "attempt_number") with
  | .str claimToken, .str attemptId, some attemptNumber =>
    if 1 ≤ attemptNumber ∧ attemptNumber ≤ job.maximumAttempts then .ok ⟨claimToken, attemptId, attemptNumber⟩
    else .error (.relayRuntimeError "control-plane claim has no exact attempt binding")
  | _, _, _ => .error (.relayRuntimeError "control-plane claim has no exact attempt binding")

/-- `isoformat()` -/
def timeJson (time : Datetime) : Json := .str (String.ofList (Alerts.timeText time))

section Execution

variable {hashing : RelayHashing} (env : Surroundings hashing)

abbrev Run (hashing : RelayHashing) (α : Type) := Failing Raised (World hashing.toHashing) α

/-- `from_envelope` of a verified envelope -/
def fromEnvelope (envelope : env.Envelope) : Except Raised (RelayJob hashing.toHashing) :=
  match env.verify envelope with
  | .error error => .error error
  | .ok fields =>
    match h : fields.check hashing.toHashing with
    | .ok _ => .ok { toRelayJobFields := fields, checked := h }
    | .error error => .error error

/-- What is checked before a claim. -/
def prepare (policy : RelayPolicy env.Settings) (envelope : env.Envelope) (now : Datetime) :
    Except Raised (RelayJob hashing.toHashing × LocalAdapter env.Settings) := do
  requireAware now "now must be timezone-aware"
  let job ← fromEnvelope env envelope
  requireRuntime (job.redactionRevision == policy.redactionRevision)
    "job redaction revision is not the current local policy"
  requireRuntime (job.residencyRegion == policy.region) "job residency region is not the local policy region"
  let rank ← classificationRank job.classificationCeiling
  let ceiling ← classificationRank policy.classificationCeiling
  requireRuntime (rank ≤ ceiling) "job classification exceeds the local policy ceiling"
  match policy.adapterFor job.toRelayJobFields with
  | some adapter => return (job, adapter)
  | none => .error (.relayRuntimeError "job is not authorized by current local policy")

/-- The record of an attempt that starts. -/
def startedFields (job : RelayJobFields) (claim : Claim) (started : Datetime) : AttemptFields where
  collectionJobId := job.collectionJobId
  attemptId := claim.attemptId
  attemptNumber := claim.attemptNumber
  jobDigest := job.jobDigest
  claimToken := claim.claimToken
  processBootId := env.processBootId
  state := .started
  inputHash := job.inputHash
  outcomeHash := none
  localResultHash := none
  createdAt := started
  updatedAt := started
  terminalAt := none
  acknowledgedAt := none

/-- The record of an attempt whose evidence is kept. -/
def storedFields (job : RelayJobFields) (claim : Claim) (started : Datetime) (outcomeHash localResultHash : String) :
    AttemptFields :=
  { startedFields env job claim started with
    state := .localResultStored
    outcomeHash := some outcomeHash
    localResultHash := some localResultHash }

/-- Records, the evidence of them, and its hashes -/
structure Evidence where
  items : Nat
  evidence : Json
  contentHash : String
  manifestHash : String

/-- `_reader_for` -/
def readerFor (job : RelayJobFields) : Except Raised (env.Settings → RelayJobFields → Except Raised (List env.Record)) :=
  match env.readers job.adapterKey with
  | some reader => .ok reader
  | none => .error (.relayRuntimeError "customer Relay image has no compiled adapter for this job")

def requireRedaction (condition : Bool) (message : String) : Except Raised Unit :=
  if condition then .ok () else .error (.redactionError message)

theorem requireRedaction_ok {condition : Bool} {message : String} :
    requireRedaction condition message = .ok () ↔ condition = true := by
  cases condition with
  | false => exact ⟨nofun, nofun⟩
  | true => exact ⟨fun _ => rfl, fun _ => rfl⟩

/-- `evidence_envelope` -/
def evidenceEnvelope (job : RelayJobFields) (records : List env.Record) (observedAt : Datetime) :
    Except Raised Evidence := do
  requireRedaction (records.length ≤ 1000) "evidence exceeds the record ceiling"
  requireRedaction observedAt.aware "observed_at must be timezone-aware"
  let envelope ← env.redacted job records observedAt
  let content := env.dumps envelope
  requireRedaction (!content.isEmpty && content.length ≤ 1048576) "redacted evidence bytes are outside the closed bound"
  let contentHash := hashOf hashing.toHashing content
  let manifest := Json.obj [("schema_version", .int 1), ("content_hash", .str contentHash),
    ("record_count", .int records.length), ("redaction_revision", .str job.redactionRevision),
    ("classification", .str job.classificationCeiling)]
  return ⟨records.length, envelope, contentHash, hashOf hashing.toHashing (env.dumps manifest)⟩

/-- The read of a provider and what is made of it. -/
def collect (job : RelayJobFields) (adapter : LocalAdapter env.Settings) (now : Datetime) : Run hashing Evidence := do
  let reader ← Failing.lift (readerFor env job)
  Failing.modify fun w => w.log (.read w.ledger)
  let records ← Failing.lift (reader adapter.settings job)
  Failing.lift (evidenceEnvelope env job records now)

/-- What every message about an attempt begins with. -/
def binding (job : RelayJobFields) (claim : Claim) : List (String × Json) :=
  [("schema_version", .int 1), ("job_digest", .str job.jobDigest), ("claim_token", .str claim.claimToken),
    ("attempt_id", .str claim.attemptId), ("attempt_number", .int claim.attemptNumber),
    ("process_boot_id", .str env.processBootId)]

/-- The message of a failure that may be tried again. -/
def retryBody (job : RelayJobFields) (claim : Claim) (completed : Datetime) (outcomeHash : String) : Json :=
  .obj (binding env job claim ++
    [("input_hash", .str job.inputHash), ("attempt_outcome_hash", .str outcomeHash),
      ("error_class", .str "UPSTREAM_UNAVAILABLE"),
      ("safe_measurements", .obj [("items", .int 0), ("pages", .int 0), ("bytes", .int 0), ("calls", .int 1)]),
      ("started_at", timeJson completed), ("completed_at", timeJson completed)])

/-- What the hash of such a failure is of. -/
def retryMaterial : Json :=
  .obj ([("result", "FAILED_RETRYABLE"), ("error_class", "UPSTREAM_UNAVAILABLE")].map
    fun field => (field.1, .str field.2))

/-- `_record_retryable_failure` -/
def recordRetryableFailure (job : RelayJobFields) (claim : Claim) (now : Datetime) : Run hashing Unit := do
  let completed ← Failing.lift (toUtc now)
  let outcomeHash ← Failing.lift (digestOf hashing.toHashing retryMaterial)
  let _ ← Failing.lift (env.retryableOutcome job.collectionJobId (retryBody env job claim completed outcomeHash))
  Failing.modify fun w => w.log (.reported claim.attemptId)

/-- What is done about an exception of the read. -/
def handleRead (job : RelayJobFields) (claim : Claim) (now : Datetime) (error : Raised) : Run hashing Evidence :=
  match error with
  | .redactionError _ | .relayRuntimeError _ => Failing.lift (.error error)
  | _ => do
    recordRetryableFailure env job claim now
    Failing.lift (.error (.relayRuntimeError "Relay provider read failed; retry outcome was recorded"))

/-- The message that asks where evidence may be put. -/
def grantBody (job : RelayJobFields) (claim : Claim) (evidence : Evidence) (outcomeHash localResultHash : String)
    (content : List UInt8) : Json :=
  .obj (binding env job claim ++
    [("attempt_outcome_hash", .str outcomeHash), ("local_result_hash", .str localResultHash),
      ("content_hash", .str evidence.contentHash), ("manifest_hash", .str evidence.manifestHash),
      ("redaction_manifest_hash", .str evidence.manifestHash), ("resource_binding_hash", .str job.resourceBindingHash),
      ("classification", .str job.classificationCeiling), ("residency_region", .str job.residencyRegion),
      ("content_type", .str "application/json"), ("content_length", .int content.length)])

/-- A key that is written where there is a value. -/
def optional (key : String) (value : Json) : List (String × Json) :=
  match value with
  | .null => []
  | _ => [(key, value)]

/-- What a receipt says of the evidence. -/
def evidenceProjection (job : RelayJobFields) (evidence : Evidence) (grant metadata : Answer) : Json :=
  .obj ([("object_ref", grant.get "object_ref"), ("content_hash", .str evidence.contentHash),
    ("manifest_hash", .str evidence.manifestHash), ("redaction_manifest_hash", .str evidence.manifestHash),
    ("resource_binding_hash", .str job.resourceBindingHash), ("classification", .str job.classificationCeiling),
    ("residency_region", .str job.residencyRegion), ("upload_grant_id", grant.get "upload_grant_id"),
    ("upload_grant_digest", grant.get "upload_grant_digest")] ++
    optional "object_generation" (metadata.get "object_generation") ++
    optional "object_metadata_hash" (metadata.get "object_metadata_hash"))

/-- The message that settles an attempt. -/
def receiptBody (job : RelayJobFields) (claim : Claim) (evidence : Evidence) (outcomeHash localResultHash : String)
    (content : List UInt8) (grant metadata : Answer) (started : Datetime) : Json :=
  .obj (binding env job claim ++
    [("input_hash", .str job.inputHash), ("attempt_outcome_hash", .str outcomeHash),
      ("local_result_hash", .str localResultHash), ("result", .str "SUCCEEDED"), ("error_class", .null),
      ("safe_measurements", .obj [("items", .int evidence.items), ("pages", .int 1), ("bytes", .int content.length),
        ("calls", .int 1)]),
      ("evidence", evidenceProjection job evidence grant metadata), ("started_at", timeJson started),
      ("completed_at", timeJson started), ("receipt_nonce", .str ("receipt:" ++ claim.attemptId))])

/-- The headers of a grant that is well formed. -/
def grantHeaders (grant : Answer) : Except Raised (List (String × Json)) :=
  match grant.get "put_url", grant.get "required_headers" with
  | .str _, .obj headers => .ok headers
  | _, _ => .error (.relayRuntimeError "upload grant response is malformed")

/-- `value is None or isinstance(value, str)` -/
def isOptionalText (value : Json) : Bool := value matches .null | .str _

/-- From the evidence that is kept to the receipt. -/
def settle (job : RelayJobFields) (claim : Claim) (record : AttemptRecord) (evidence : Evidence)
    (outcomeHash localResultHash : String) (content : List UInt8) (started now : Datetime) : Run hashing String := do
  let grant ← Failing.lift (env.uploadGrant job.collectionJobId
    (grantBody env job claim evidence outcomeHash localResultHash content))
  let headers ← Failing.lift (grantHeaders grant)
  let metadata ← Failing.lift (env.upload (grant.get "put_url") content headers)
  Failing.lift (requireRuntime (isOptionalText (metadata.get "object_generation"))
    "uploaded object generation is malformed")
  Failing.lift (requireRuntime (isOptionalText (metadata.get "object_metadata_hash"))
    "uploaded object metadata digest is malformed")
  let _ ← Failing.lift (env.receipt job.collectionJobId
    (receiptBody env job claim evidence outcomeHash localResultHash content grant metadata started))
  Failing.modify fun w => w.log (.received claim.attemptId)
  Failing.update fun w => (w.ledger.acknowledge env.vault env.nonce record now).map fun ledger => { w with ledger := ledger }
  return claim.attemptId

/-- What the hash of a success is of. -/
def outcomeMaterial (evidence : Evidence) (claim : Claim) : Json :=
  .obj ([("result", "SUCCEEDED"), ("content_hash", evidence.contentHash), ("attempt_id", claim.attemptId)].map
    fun field => (field.1, .str field.2))

/-- A record that is constructed and put into the ledger, with a result if there is one. -/
def keep (fields : AttemptFields) (resultBytes : Option (List UInt8)) : Run hashing AttemptRecord := do
  let record ← Failing.lift fields.construct
  Failing.update fun w => (w.ledger.upsert env.vault env.nonce record resultBytes).map fun ledger =>
    { w with ledger := ledger }
  return record

/-- What `execute` does once an attempt is in the ledger. -/
def pursue (job : RelayJobFields) (adapter : LocalAdapter env.Settings) (claim : Claim) (started now : Datetime) :
    Run hashing String := do
  let evidence ← Failing.catching (collect env job adapter now) (handleRead env job claim now)
  let content := env.dumps evidence.evidence
  let localResultHash := hashOf hashing.toHashing content
  let outcomeHash ← Failing.lift (digestOf hashing.toHashing (outcomeMaterial evidence claim))
  let record ← keep env (storedFields env job claim started outcomeHash localResultHash) (some content)
  settle env job claim record evidence outcomeHash localResultHash content started now

/-- What `execute` does under a claim. -/
def attempt (job : RelayJobFields) (adapter : LocalAdapter env.Settings) (claim : Claim) (now : Datetime) :
    Run hashing String := do
  let started ← Failing.lift (toUtc now)
  let _ ← keep env (startedFields env job claim started) none
  pursue env job adapter claim started now

/-- `execute` -/
def execute (policy : RelayPolicy env.Settings) (envelope : env.Envelope) (now : Datetime) : Run hashing String := do
  let (job, adapter) ← Failing.lift (prepare env policy envelope now)
  let answer ← Failing.lift (env.claim job.collectionJobId job.jobDigest env.processBootId)
  Failing.modify fun w => w.log (.claimed job answer)
  let claim ← Failing.lift (readClaim job.toRelayJobFields answer)
  attempt env job.toRelayJobFields adapter claim now

/-- What is made of a provider's answer, or the exception of it. -/
def gathered (job : RelayJobFields) (adapter : LocalAdapter env.Settings) (now : Datetime) : Except Raised Evidence := do
  let reader ← readerFor env job
  let records ← reader adapter.settings job
  evidenceEnvelope env job records now

/-- An exception of the read that is reported. -/
def Reported (job : RelayJobFields) (claim : Claim) (now : Datetime) (error : Raised) : Prop :=
  (∀ message, error ≠ .redactionError message) ∧ (∀ message, error ≠ .relayRuntimeError message) ∧
    ∃ completed outcomeHash answer, toUtc now = .ok completed ∧
      digestOf hashing.toHashing retryMaterial = .ok outcomeHash ∧
        env.retryableOutcome job.collectionJobId (retryBody env job claim completed outcomeHash) = .ok answer

/-- What the ledger keeps of an attempt under a claim. -/
def Keeps (ledger : EncryptedAttemptLedger) (job : RelayJobFields) (claim : Claim) (record : AttemptRecord) : Prop :=
  ledger.Holds claim.attemptId record ∧ record.collectionJobId = job.collectionJobId ∧
    record.jobDigest = job.jobDigest ∧ record.claimToken = claim.claimToken

/-- Evidence that is kept under a claim, and that can be read. -/
def KeepsEvidence (ledger : EncryptedAttemptLedger) (job : RelayJobFields) (claim : Claim) : Prop :=
  ∃ record bytes, Keeps ledger job claim record ∧ record.state = .localResultStored ∧
    record.localResultHash = some (hashOf hashing.toHashing bytes) ∧
      ledger.readResult env.vault claim.attemptId = .ok (some bytes)

/-- A receipt that was accepted and acknowledged, a retryable outcome that was reported, or evidence that is kept. -/
def Settled (w : World hashing.toHashing) (job : RelayJobFields) (claim : Claim) : Prop :=
  (Event.received claim.attemptId ∈ w.events ∧
      ∃ record, Keeps w.ledger job claim record ∧ record.state = .acknowledged) ∨
    Event.reported claim.attemptId ∈ w.events ∨ KeepsEvidence env w.ledger job claim

/-- No claim is taken with a full ledger, and an attempt that was claimed is in the ledger before a provider is read
and settled in the end. -/
def Accounted (policy : RelayPolicy env.Settings) (envelope : env.Envelope) (now : Datetime)
    (ledger : EncryptedAttemptLedger) : Prop :=
  Failing.Ends (execute env policy envelope now) ⟨ledger, []⟩ fun _ w =>
    ∀ job answer, Event.claimed job answer ∈ w.events → ¬ledger.Full ∧
      ∀ claim, readClaim job.toRelayJobFields answer = .ok claim →
        (∀ held, Event.read held ∈ w.events → ∃ record, Keeps held job.toRelayJobFields claim record) ∧
          Settled env w job.toRelayJobFields claim

/-- Evidence that can be kept, or an exception that is reported. -/
def Concluded (job : RelayJobFields) (adapter : LocalAdapter env.Settings) (claim : Claim) (now : Datetime) : Prop :=
  match gathered env job adapter now with
  | .ok _ => isAscii claim.attemptId = true
  | .error error => Reported env job claim now error

/-- A claim that goes from the ledger to an end, or whose evidence is there already when the clock fails. -/
def Manageable (job : RelayJobFields) (adapter : LocalAdapter env.Settings) (claim : Claim) (now : Datetime)
    (ledger : EncryptedAttemptLedger) : Prop :=
  match toUtc now with
  | .error _ => KeepsEvidence env ledger job claim
  | .ok started => identified "rcj_" job.collectionJobId = true ∧ identified "rat_" claim.attemptId = true ∧
      ledger.Admits (startedFields env job claim started) ∧ Concluded env job adapter claim now

/-- The ledgers, answers and exceptions with which an attempt is accounted for. -/
def Accountable (policy : RelayPolicy env.Settings) (envelope : env.Envelope) (now : Datetime)
    (ledger : EncryptedAttemptLedger) : Prop :=
  ∀ job adapter answer, prepare env policy envelope now = .ok (job, adapter) →
    env.claim job.collectionJobId job.jobDigest env.processBootId = .ok answer → ¬ledger.Full ∧
      ∀ claim, readClaim job.toRelayJobFields answer = .ok claim →
        Manageable env job.toRelayJobFields adapter claim now ledger

end Execution

end Solvan.Relay.Attempts
