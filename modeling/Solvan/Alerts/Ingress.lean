import Mathlib
import Solvan.Base.Base64
import Solvan.Base.Checks
import Solvan.Domain.Values

/-! The parsing of Cloud Monitoring deliveries, and which exceptions leave it. -/
namespace Solvan.Alerts.Ingress
open Base

/-- Code points, lone surrogates among them. -/
abbrev Text := List Nat

def text (s : String) : Text := s.toList.map Char.toNat

inductive Raised where
  | alertIngressError (reason : String)
  /-- A `ValueError` that is no `AlertIngressError` -/
  | valueError
  | recursionError
  | overflowError
  | osError
deriving DecidableEq, Repr

abbrev Parsing (α : Type) := Except Raised α

def refuse {α : Type} (reason : String) : Parsing α := .error (.alertIngressError reason)

/-- `if not condition: raise AlertIngressError(reason)` -/
def require (condition : Bool) (reason : String) : Parsing Unit := if condition then .ok () else refuse reason

/-- A value that `json.loads` gives. -/
inductive Value (Double : Type) where
  | null
  | bool (b : Bool)
  | int (n : Int)
  | float (x : Double)
  | str (s : Text)
  | arr (items : List (Value Double))
  | obj (fields : List (Text × Value Double))

/-- What `json.loads` raises: its own error, that of a bad encoding, and those for integers with too many digits and
for lists too deep. -/
inductive LoadError where
  | jsonDecodeError | unicodeDecodeError | valueError | recursionError
deriving DecidableEq, Repr

/-- What `datetime.fromtimestamp` raises. -/
inductive ClockError where
  | overflowError | valueError | osError
deriving DecidableEq, Repr

/-- A UTC time, in microseconds from year 1 on -/
abbrev Utc := {micros : Nat // micros < Calendar.maxMicros}

/-- The standard library, on numbers and texts. -/
structure Library where
  Double : Type
  loads : ByteArray → Except LoadError (Value Double)
  /-- `json.dumps` with sorted keys and no spaces -/
  dumps : Value Double → ByteArray
  /-- `float`, or none where it raises `OverflowError` -/
  float : Int → Option Double
  fromtimestamp : Double → Except ClockError Utc
  /-- `datetime.fromisoformat`, or none where it raises `ValueError` -/
  fromisoformat : Text → Option Datetime
  strip : Text → Text
  upper : Text → Text
  sha256 : ByteArray → String

abbrev Fields (lib : Library) := List (Text × Value lib.Double)

structure PubSubEnvelopeIdentity where
  messageId : Text
  subscriptionName : Text
  publishTime : Option Utc
  envelopeHash : String

inductive LifecycleState where
  | opened | closed
deriving DecidableEq, Repr

def LifecycleState.label : LifecycleState → String
  | .opened => "OPEN"
  | .closed => "CLOSED"

structure CanonicalCloudMonitoringAlert where
  envelope : PubSubEnvelopeIdentity
  providerIncidentKey : Text
  lifecycleState : LifecycleState
  transitionDiscriminator : Text
  transitionSequence : Nat
  startedAt : Utc
  endedAt : Option Utc
  observedAt : Utc
  scopingProjectId : Text
  monitoredResourceProjectId : Text
  resourceType : Text
  resourceLabels : List (Text × Text)
  normalizedLabels : List (Text × Text)
  providerSeverity : Text
  canonicalEventHash : String
  rawPayloadHash : String

def maxPushEnvelopeBytes : Nat := 262144
def maxProviderPayloadBytes : Nat := 196608

/-- `_ALLOWED_RESOURCE_LABELS`, sorted -/
def allowedResourceLabels : List String :=
  ["cluster_name", "database_id", "instance_id", "location", "namespace_name", "pod_name", "project_id",
    "revision_name", "service_name"]

section Parse

variable (lib : Library)

/-- `source.get(key)` -/
def get (fields : Fields lib) (key : String) : Value lib.Double := (fields.lookup (text key)).getD .null

/-- `_object` -/
def object (value : Value lib.Double) (reason : String) : Parsing (Fields lib) :=
  match value with
  | .obj fields => .ok fields
  | _ => refuse reason

/-- The text of a field, if it is one that is not blank nor too long -/
def textOf (source : Fields lib) (key : String) (maxLength : Nat) : Option Text :=
  match get lib source key with
  | .str s => if (lib.strip s).isEmpty || decide (maxLength < s.length) then none else some (lib.strip s)
  | _ => none

/-- `_required_text` -/
def requiredText (source : Fields lib) (key reason : String) (maxLength : Nat) : Parsing Text :=
  match textOf lib source key maxLength with
  | some s => .ok s
  | none => refuse reason

/-- `value.replace("Z", "+00:00")` -/
def zoned (s : Text) : Text := s.flatMap (fun c => if c = 'Z'.toNat then text "+00:00" else [c])

/-- `resolved.astimezone(UTC)` of a time so far ahead of UTC, or none where it raises `OverflowError` -/
def astimezone (wall : Nat) (offset : Int) : Option Utc :=
  if h : 0 ≤ (wall : Int) - offset ∧ (wall : Int) - offset < Calendar.maxMicros then
    some ⟨((wall : Int) - offset).toNat, by omega⟩
  else none

/-- `datetime.fromtimestamp(x, tz=UTC)` with the errors that are caught -/
def stamp (x : lib.Double) (reason : String) : Parsing Utc :=
  match lib.fromtimestamp x with
  | .ok moment => .ok moment
  | .error .osError => .error .osError
  | .error _ => refuse reason

/-- `_timestamp` -/
def timestamp (value : Value lib.Double) (reason : String) : Parsing Utc :=
  match value with
  | .int n =>
    match lib.float n with
    | some x => stamp lib x reason
    | none => refuse reason
  | .float x => stamp lib x reason
  | .str s =>
    match lib.fromisoformat (zoned s) with
    | none => refuse reason
    | some resolved =>
      match resolved.utcoffset with
      | none => refuse reason
      -- The conversion stands outside the block that catches errors.
      | some offset =>
        match astimezone resolved.wall offset with
        | some moment => .ok moment
        | none => .error .overflowError
  | _ => refuse reason

/-- `_rfc3339` -/
def rfc3339 (moment : Utc) : Text := (Calendar.isoformat moment.val).map Char.toNat ++ text "Z"

/-- `_object(json.loads(raw), reason=reason)` with the errors that are caught -/
def loadObject (raw : ByteArray) (reason : String) : Parsing (Fields lib) :=
  match lib.loads raw with
  | .ok value => object lib value reason
  | .error .jsonDecodeError | .error .unicodeDecodeError => refuse reason
  | .error .valueError => .error .valueError
  | .error .recursionError => .error .recursionError

/-- `None if value is None else _timestamp(…)` -/
def optionalTimestamp (value : Value lib.Double) (reason : String) : Parsing (Option Utc) :=
  match value with
  | .null => .ok none
  | value => (timestamp lib value reason).map some

def sha256Text (raw : ByteArray) : String := "sha256:" ++ lib.sha256 raw

/-- `inspect_pubsub_envelope` -/
def inspectPubsubEnvelope (raw : ByteArray) : Parsing (PubSubEnvelopeIdentity × Fields lib) := do
  require (0 < raw.size && raw.size ≤ maxPushEnvelopeBytes) "PUSH_ENVELOPE_SIZE_INVALID"
  let outer ← loadObject lib raw "PUSH_ENVELOPE_INVALID"
  let message ← object lib (get lib outer "message") "PUSH_MESSAGE_INVALID"
  let messageId ← requiredText lib message "messageId" "PUBSUB_MESSAGE_ID_INVALID" 512
  require (messageId.length ≤ 256) "PUBSUB_MESSAGE_ID_INVALID"
  let subscription ← requiredText lib outer "subscription" "PUBSUB_SUBSCRIPTION_INVALID" 512
  let publishTime ← optionalTimestamp lib (get lib message "publishTime") "PUBSUB_PUBLISH_TIME_INVALID"
  return (⟨messageId, subscription, publishTime, sha256Text lib raw⟩, message)

/-- `base64.b64decode(encoded, validate=True)`, or none where it raises `ValueError` -/
def b64decode (encoded : Text) : Option ByteArray :=
  if encoded.all (· < 128) then (base64Decode (encoded.map Char.ofNat)).map List.toByteArray else none

/-- The payload bytes of a message -/
def monitoringPayload (message : Fields lib) : Parsing ByteArray := do
  let encoded ← requiredText lib message "data" "PUBSUB_DATA_INVALID" (maxProviderPayloadBytes * 2)
  match b64decode encoded with
  | none => refuse "PUBSUB_DATA_INVALID"
  | some payload => do
    require (0 < payload.size && payload.size ≤ maxProviderPayloadBytes) "MONITORING_PAYLOAD_SIZE_INVALID"
    return payload

/-- The state that an incident is in -/
def stateOf (incident : Fields lib) : Parsing LifecycleState := do
  let value ← requiredText lib incident "state" "PROVIDER_STATE_INVALID" 512
  if lib.upper value = text LifecycleState.opened.label then return .opened
  else if lib.upper value = text LifecycleState.closed.label then return .closed
  else refuse "PROVIDER_STATE_INVALID"

/-- The end of an incident that is over -/
def endOf (incident : Fields lib) (state : LifecycleState) (startedAt : Utc) : Parsing (Option Utc) :=
  match state with
  | .opened => .ok none
  | .closed => do
    let endedAt ← timestamp lib (get lib incident "ended_at") "TRANSITION_KEY_INCOMPLETE"
    require (startedAt.val ≤ endedAt.val) "TRANSITION_TIME_INVALID"
    return some endedAt

def discriminator (state : LifecycleState) (startedAt : Utc) (endedAt : Option Utc) : Text :=
  match state with
  | .opened => text "OPEN:" ++ rfc3339 startedAt
  | .closed => text "CLOSED:" ++ rfc3339 startedAt ++ text ":" ++ rfc3339 (endedAt.getD startedAt)

/-- `safe_labels` -/
def safeLabels (labels : Fields lib) : List (Text × Text) :=
  allowedResourceLabels.filterMap (fun key =>
    match get lib labels key with
    | .str s => if 0 < s.length ∧ s.length ≤ 256 then some (text key, s) else none
    | _ => none)

/-- A dictionary of texts -/
def dictionary (fields : List (Text × Text)) : Value lib.Double :=
  .obj (fields.map (fun field => (field.1, .str field.2)))

/-- What is made of an incident whose times are known -/
def alertOf (envelope : PubSubEnvelopeIdentity) (payload : ByteArray) (incident : Fields lib) (incidentKey : Text)
    (state : LifecycleState) (startedAt : Utc) (endedAt : Option Utc) : Parsing CanonicalCloudMonitoringAlert := do
  let scopingProject ← requiredText lib incident "scoping_project_id" "SCOPING_PROJECT_INVALID" 512
  let resource ← object lib (get lib incident "resource") "MONITORED_RESOURCE_INVALID"
  let resourceType ← requiredText lib resource "type" "MONITORED_RESOURCE_INVALID" 512
  let labels ← object lib (get lib resource "labels") "MONITORED_RESOURCE_LABELS_INVALID"
  let projectId ← requiredText lib labels "project_id" "MONITORED_PROJECT_INVALID" 512
  let conditionName ← requiredText lib incident "condition_name" "CONDITION_NAME_INVALID" 512
  let policyName ← requiredText lib incident "policy_name" "POLICY_NAME_INVALID" 512
  let severity ← requiredText lib incident "severity" "PROVIDER_SEVERITY_INVALID" 512
  let normalizedLabels := [(text "condition_name", conditionName), (text "policy_name", policyName)]
  let canonical : Value lib.Double := .obj
    [(text "ended_at", (endedAt.map (fun moment => Value.str (rfc3339 moment))).getD .null),
      (text "incident_id", .str incidentKey), (text "labels", dictionary lib (safeLabels lib labels)),
      (text "normalized_labels", dictionary lib normalizedLabels),
      (text "provider_severity", .str (lib.upper severity)), (text "resource_type", .str resourceType),
      (text "scoping_project_id", .str scopingProject), (text "started_at", .str (rfc3339 startedAt)),
      (text "state", .str (text state.label)),
      (text "transition_discriminator", .str (discriminator state startedAt endedAt)),
      (text "version", .str (text "cloud-monitoring/1.2"))]
  return {
    envelope := envelope
    providerIncidentKey := incidentKey
    lifecycleState := state
    transitionDiscriminator := discriminator state startedAt endedAt
    transitionSequence := if state = .opened then 1 else 2
    startedAt := startedAt
    endedAt := endedAt
    observedAt := endedAt.getD startedAt
    scopingProjectId := scopingProject
    monitoredResourceProjectId := projectId
    resourceType := resourceType
    resourceLabels := safeLabels lib labels
    normalizedLabels := normalizedLabels
    providerSeverity := lib.upper severity
    canonicalEventHash := sha256Text lib (lib.dumps canonical)
    rawPayloadHash := sha256Text lib payload }

/-- Whether a payload has the version that is supported -/
def isVersion12 (payload : Fields lib) : Bool :=
  match get lib payload "version" with
  | .str s => s == text "1.2"
  | _ => false

/-- `canonicalize_cloud_monitoring_push` -/
def canonicalizeCloudMonitoringPush (raw : ByteArray) : Parsing CanonicalCloudMonitoringAlert := do
  let (envelope, message) ← inspectPubsubEnvelope lib raw
  let payloadBytes ← monitoringPayload lib message
  let payload ← loadObject lib payloadBytes "MONITORING_PAYLOAD_INVALID"
  require (isVersion12 lib payload) "MONITORING_SCHEMA_VERSION_UNSUPPORTED"
  let incident ← object lib (get lib payload "incident") "MONITORING_INCIDENT_INVALID"
  let incidentKey ← requiredText lib incident "incident_id" "PROVIDER_INCIDENT_KEY_INVALID" 512
  let state ← stateOf lib incident
  let startedAt ← timestamp lib (get lib incident "started_at") "TRANSITION_KEY_INCOMPLETE"
  let endedAt ← endOf lib incident state startedAt
  alertOf lib envelope payloadBytes incident incidentKey state startedAt endedAt

end Parse

/-- A value or an `AlertIngressError`, and nothing else. -/
def Closed {α : Type} (x : Parsing α) : Prop := (∃ a, x = .ok a) ∨ ∃ reason, x = .error (.alertIngressError reason)

section Closed

variable {lib : Library} {α β : Type} {x : Parsing α} {f : α → Parsing β} {a : α} {fields : Fields lib}
  {value : Value lib.Double} {key reason : String} {raw : ByteArray} {moment : Utc} {maxLength : Nat} {s : Text}

theorem closed_ok : Closed (.ok a : Parsing α) := .inl ⟨a, rfl⟩

theorem closed_refuse : Closed (refuse reason : Parsing α) := .inr ⟨reason, rfl⟩

/-- A first step that is closed, and second steps that are after any value of it. -/
theorem closed_bind : Closed (x >>= f) ↔ Closed x ∧ ∀ a, x = .ok a → Closed (f a) := by
  cases x with
  | ok a =>
    refine ⟨fun h => ⟨closed_ok, fun b hb => Except.ok.inj hb ▸ h⟩, fun h => h.2 a rfl⟩
  | error raised =>
    constructor
    · rintro (⟨b, hb⟩ | ⟨reason, hreason⟩)
      · cases hb
      · obtain rfl := Except.error.inj hreason
        exact ⟨closed_refuse, nofun⟩
    · rintro ⟨⟨b, hb⟩ | ⟨reason, hreason⟩, -⟩
      · cases hb
      · obtain rfl := Except.error.inj hreason
        exact closed_refuse

theorem closed_require {condition : Bool} : Closed (require condition reason) := by
  cases condition
  · exact closed_refuse
  · exact closed_ok

theorem closed_object : Closed (object lib value reason) := by
  unfold object
  split
  · exact closed_ok
  · exact closed_refuse

theorem closed_requiredText : Closed (requiredText lib fields key reason maxLength) := by
  unfold requiredText
  split
  · exact closed_ok
  · exact closed_refuse

theorem closed_stateOf : Closed (stateOf lib fields) := by
  refine closed_bind.mpr ⟨closed_requiredText, fun value _ => ?_⟩
  split
  · exact closed_ok
  · split
    · exact closed_ok
    · exact closed_refuse

theorem closed_monitoringPayload : Closed (monitoringPayload lib fields) := by
  refine closed_bind.mpr ⟨closed_requiredText, fun encoded _ => ?_⟩
  split
  · exact closed_refuse
  · exact closed_bind.mpr ⟨closed_require, fun _ _ => closed_ok⟩

/-- Behind the times of an incident nothing but refusals leaves the parser. -/
theorem closed_alertOf {envelope : PubSubEnvelopeIdentity} {incident : Fields lib} {incidentKey : Text}
    {state : LifecycleState} {startedAt : Utc} {endedAt : Option Utc} :
    Closed (alertOf lib envelope raw incident incidentKey state startedAt endedAt) := by
  unfold alertOf
  refine closed_bind.mpr ⟨closed_requiredText, fun _ _ => ?_⟩
  refine closed_bind.mpr ⟨closed_object, fun _ _ => ?_⟩
  refine closed_bind.mpr ⟨closed_requiredText, fun _ _ => ?_⟩
  refine closed_bind.mpr ⟨closed_object, fun _ _ => ?_⟩
  refine closed_bind.mpr ⟨closed_requiredText, fun _ _ => ?_⟩
  refine closed_bind.mpr ⟨closed_requiredText, fun _ _ => ?_⟩
  refine closed_bind.mpr ⟨closed_requiredText, fun _ _ => ?_⟩
  exact closed_bind.mpr ⟨closed_requiredText, fun _ _ => closed_ok⟩

theorem require_ok {condition : Bool} {u : Unit} : require condition reason = .ok u ↔ condition = true := by
  cases condition <;> simp [require, refuse]

theorem object_ok : object lib value reason = .ok fields ↔ value = .obj fields := by
  unfold object
  split <;> simp_all [refuse]

theorem requiredText_ok : requiredText lib fields key reason maxLength = .ok s ↔
    textOf lib fields key maxLength = some s := by
  unfold requiredText
  split <;> simp_all [refuse]

/-- JSON is loaded or refused by the errors that the parser catches. -/
def Documented (lib : Library) (raw : ByteArray) : Prop :=
  lib.loads raw ≠ .error .valueError ∧ lib.loads raw ≠ .error .recursionError

theorem closed_loadObject : Closed (loadObject lib raw reason) ↔ Documented lib raw := by
  unfold loadObject Documented
  split
  · rename_i loaded hloaded
    simp [hloaded, closed_object]
  · rename_i hloaded
    simp [hloaded, closed_refuse]
  · rename_i hloaded
    simp [hloaded, closed_refuse]
  · rename_i hloaded
    simp [hloaded, Closed]
  · rename_i hloaded
    simp [hloaded, Closed]

theorem loadObject_ok : loadObject lib raw reason = .ok fields ↔ lib.loads raw = .ok (.obj fields) := by
  unfold loadObject
  split
  · rename_i loaded hloaded
    rw [object_ok, hloaded, Except.ok.injEq]
  all_goals
    rename_i hloaded
    simp [hloaded, refuse]

/-- A time that, where it is one, is one of the calendar in UTC, and no number that the clock fails on. -/
def Convertible (lib : Library) : Value lib.Double → Prop
  | .int n => ∀ x, lib.float n = some x → lib.fromtimestamp x ≠ .error .osError
  | .float x => lib.fromtimestamp x ≠ .error .osError
  | .str s => ∀ resolved offset, lib.fromisoformat (zoned s) = some resolved → resolved.utcoffset = some offset →
      0 ≤ (resolved.wall : Int) - offset ∧ (resolved.wall : Int) - offset < Calendar.maxMicros
  | _ => True

/-- A time and its moment -/
def Converted (lib : Library) : Value lib.Double → Utc → Prop
  | .int n, moment => ∃ x, lib.float n = some x ∧ lib.fromtimestamp x = .ok moment
  | .float x, moment => lib.fromtimestamp x = .ok moment
  | .str s, moment => ∃ resolved offset, lib.fromisoformat (zoned s) = some resolved ∧
      resolved.utcoffset = some offset ∧ astimezone resolved.wall offset = some moment
  | _, _ => False

theorem closed_stamp {x : lib.Double} : Closed (stamp lib x reason) ↔ lib.fromtimestamp x ≠ .error .osError := by
  unfold stamp
  split
  · rename_i moment hmoment
    simp [hmoment, closed_ok]
  · rename_i hfailed
    simp [hfailed, Closed]
  · rename_i failure hnot hfailed
    simp [hfailed, closed_refuse]
    exact hnot

theorem stamp_ok {x : lib.Double} : stamp lib x reason = .ok moment ↔ lib.fromtimestamp x = .ok moment := by
  unfold stamp
  split <;> simp_all [refuse]

theorem astimezone_none {wall : Nat} {offset : Int} : astimezone wall offset = none ↔
    ¬(0 ≤ (wall : Int) - offset ∧ (wall : Int) - offset < Calendar.maxMicros) := by
  unfold astimezone
  split
  · rename_i h
    exact ⟨nofun, fun hnot => absurd h hnot⟩
  · rename_i h
    exact ⟨fun _ => h, fun _ => rfl⟩

theorem closed_timestamp : Closed (timestamp lib value reason) ↔ Convertible lib value := by
  unfold timestamp
  split
  · rename_i n
    unfold Convertible
    split
    · rename_i x hx
      rw [closed_stamp]
      exact ⟨fun h y hy => Option.some.inj (hx.symm.trans hy) ▸ h, fun h => h x hx⟩
    · rename_i hx
      exact ⟨fun _ y hy => absurd (hx.symm.trans hy) nofun, fun _ => closed_refuse⟩
  · exact closed_stamp
  · rename_i written
    unfold Convertible
    split
    · rename_i hnone
      exact ⟨fun _ resolved _ h => absurd (hnone.symm.trans h) nofun, fun _ => closed_refuse⟩
    · rename_i resolved hresolved
      split
      · rename_i hnaive
        refine ⟨fun _ other _ h hoffset => ?_, fun _ => closed_refuse⟩
        obtain rfl := Option.some.inj (hresolved.symm.trans h)
        exact absurd (hnaive.symm.trans hoffset) nofun
      · rename_i offset hoffset
        have hsame : ∀ other given, lib.fromisoformat (zoned written) = some other → other.utcoffset = some given →
            other = resolved ∧ given = offset := by
          intro other given hother hgiven
          obtain rfl := Option.some.inj (hresolved.symm.trans hother)
          exact ⟨rfl, Option.some.inj (hgiven.symm.trans hoffset)⟩
        cases hmoment : astimezone resolved.wall offset with
        | some moment =>
          refine ⟨fun _ other given hother hgiven => ?_, fun _ => closed_ok⟩
          obtain ⟨rfl, rfl⟩ := hsame other given hother hgiven
          by_contra hout
          rw [astimezone_none.mpr hout] at hmoment
          cases hmoment
        | none =>
          refine ⟨fun h => ?_, fun h => absurd (h resolved offset hresolved hoffset) (astimezone_none.mp hmoment)⟩
          obtain ⟨_, h⟩ | ⟨_, h⟩ := h <;> cases h
  · rename_i hint hfloat hstr
    refine ⟨fun _ => ?_, fun _ => closed_refuse⟩
    unfold Convertible
    split
    · exact absurd rfl (hint _)
    · exact absurd rfl (hfloat _)
    · exact absurd rfl (hstr _)
    · trivial

theorem timestamp_ok : timestamp lib value reason = .ok moment ↔ Converted lib value moment := by
  unfold timestamp
  split
  · unfold Converted
    split
    · rename_i x hx
      rw [stamp_ok]
      simp [hx]
    · rename_i hx
      simp [hx, refuse]
  · exact stamp_ok
  · rename_i written
    unfold Converted
    split
    · rename_i hnone
      simp [hnone, refuse]
    · rename_i resolved hresolved
      split
      · rename_i hnaive
        simp [hresolved, hnaive, refuse]
      · rename_i offset hoffset
        split
        · rename_i found hfound
          simp [hresolved, hoffset, hfound]
        · rename_i hfound
          simp [hresolved, hoffset, hfound]
  · rename_i hint hfloat hstr
    unfold Converted
    split
    · exact absurd rfl (hint _)
    · exact absurd rfl (hfloat _)
    · exact absurd rfl (hstr _)
    · simp [refuse]

theorem closed_optionalTimestamp : Closed (optionalTimestamp lib value reason) ↔ Convertible lib value := by
  unfold optionalTimestamp
  split
  · simp [closed_ok, Convertible]
  · rw [← @closed_timestamp lib value reason]
    cases timestamp lib value reason <;> simp [Except.map, Closed]

theorem optionalTimestamp_ok : (∃ publishTime, optionalTimestamp lib value reason = .ok publishTime) ↔
    value = .null ∨ ∃ moment, Converted lib value moment := by
  unfold optionalTimestamp
  split
  · simp
  · rename_i hnot
    simp only [← @timestamp_ok lib value reason]
    cases timestamp lib value reason <;> simp_all [Except.map]

/-- The envelope of a body, as far as its texts are read: its size is allowed, and it holds a message with an
identity, and a subscription. -/
structure Enveloped (lib : Library) (raw : ByteArray) (message : Fields lib) : Prop where
  nonempty : 0 < raw.size
  bounded : raw.size ≤ maxPushEnvelopeBytes
  texts : ∃ outer, lib.loads raw = .ok (.obj outer) ∧ get lib outer "message" = .obj message ∧
    (∃ messageId, textOf lib message "messageId" 512 = some messageId ∧ messageId.length ≤ 256) ∧
    ∃ subscription, textOf lib outer "subscription" 512 = some subscription

/-- A body is loaded or refused by a caught error, and its time of publication, where it is reached, is one that the
clock converts. -/
def SafeEnvelope (lib : Library) (raw : ByteArray) : Prop :=
  (0 < raw.size → raw.size ≤ maxPushEnvelopeBytes → Documented lib raw) ∧
    ∀ message, Enveloped lib raw message → Convertible lib (get lib message "publishTime")

theorem inspect_closed_iff : Closed (inspectPubsubEnvelope lib raw) ↔ SafeEnvelope lib raw := by
  unfold inspectPubsubEnvelope SafeEnvelope
  simp only [closed_bind, closed_require, require_ok, closed_loadObject, loadObject_ok, closed_object, object_ok,
    closed_requiredText, requiredText_ok, closed_optionalTimestamp, Bool.and_eq_true, decide_eq_true_eq, true_and]
  constructor
  · intro h
    refine ⟨fun hpos hbound => (h () ⟨hpos, hbound⟩).1, fun message henveloped => ?_⟩
    obtain ⟨outer, hloads, hmessage, ⟨messageId, hid, hshort⟩, subscription, hsubscription⟩ := henveloped.texts
    exact ((h () ⟨henveloped.nonempty, henveloped.bounded⟩).2 outer hloads message hmessage messageId hid ()
      hshort subscription hsubscription).1
  · rintro ⟨hdocumented, htime⟩ _ ⟨hpos, hbound⟩
    refine ⟨hdocumented hpos hbound, fun outer hloads message hmessage messageId hid _ hshort subscription hsubscription =>
      ⟨htime message ⟨hpos, hbound, outer, hloads, hmessage, ⟨messageId, hid, hshort⟩, subscription, hsubscription⟩,
        fun _ _ => closed_ok⟩⟩

/-- A time of publication that is absent or converted. -/
def Published (lib : Library) (message : Fields lib) : Prop :=
  get lib message "publishTime" = .null ∨ ∃ moment, Converted lib (get lib message "publishTime") moment

theorem inspect_ok {message : Fields lib} : (∃ envelope, inspectPubsubEnvelope lib raw = .ok (envelope, message)) ↔
    Enveloped lib raw message ∧ Published lib message := by
  unfold inspectPubsubEnvelope Published
  simp only [Checks.bind_ok, require_ok, loadObject_ok, object_ok, requiredText_ok, Bool.and_eq_true, decide_eq_true_eq]
  constructor
  · rintro ⟨envelope, _, ⟨hpos, hbound⟩, outer, hloads, message', hmessage, messageId, hid, _, hshort, subscription,
      hsubscription, publishTime, htime, hreturn⟩
    obtain ⟨-, rfl⟩ := Prod.mk.inj (Except.ok.inj hreturn)
    exact ⟨⟨hpos, hbound, outer, hloads, hmessage, ⟨messageId, hid, hshort⟩, subscription, hsubscription⟩,
      optionalTimestamp_ok.mp ⟨publishTime, htime⟩⟩
  · rintro ⟨⟨hpos, hbound, outer, hloads, hmessage, ⟨messageId, hid, hshort⟩, subscription, hsubscription⟩, htime⟩
    obtain ⟨publishTime, htime⟩ := (@optionalTimestamp_ok lib _ "PUBSUB_PUBLISH_TIME_INVALID").mpr htime
    exact ⟨_, (), ⟨hpos, hbound⟩, outer, hloads, message, hmessage, messageId, hid, (), hshort, subscription,
      hsubscription, publishTime, htime, rfl⟩

/-- The payload of a message: base 64 of an allowed size. -/
def Carried (lib : Library) (message : Fields lib) (payload : ByteArray) : Prop :=
  ∃ encoded, textOf lib message "data" (maxProviderPayloadBytes * 2) = some encoded ∧
    b64decode encoded = some payload ∧ 0 < payload.size ∧ payload.size ≤ maxProviderPayloadBytes

/-- The incident of a payload, with an identity and a state. -/
def Reported (lib : Library) (payload : ByteArray) (incident : Fields lib) (state : LifecycleState) : Prop :=
  ∃ fields, lib.loads payload = .ok (.obj fields) ∧ isVersion12 lib fields = true ∧
    get lib fields "incident" = .obj incident ∧ (textOf lib incident "incident_id" 512).isSome = true ∧
    ∃ value, textOf lib incident "state" 512 = some value ∧ lib.upper value = text state.label

/-- The envelope of a body is safe; where its message is read, the payload is loaded or refused by a caught error; and
of the incident in it the times that are reached are ones that the clock converts. -/
def SafePush (lib : Library) (raw : ByteArray) : Prop :=
  SafeEnvelope lib raw ∧ ∀ message payload, Enveloped lib raw message →
    Published lib message → Carried lib message payload → Documented lib payload ∧
      ∀ incident state, Reported lib payload incident state →
        Convertible lib (get lib incident "started_at") ∧
          (state = .closed → (∃ moment, Converted lib (get lib incident "started_at") moment) →
            Convertible lib (get lib incident "ended_at"))

theorem payload_ok {message : Fields lib} {payload : ByteArray} :
    monitoringPayload lib message = .ok payload ↔ Carried lib message payload := by
  unfold monitoringPayload Carried
  simp only [Checks.bind_ok, requiredText_ok]
  refine exists_congr (fun encoded => and_congr_right (fun _ => ?_))
  split
  · rename_i hnone
    simp [hnone, refuse]
  · rename_i decoded hdecoded
    simp only [Checks.bind_ok, require_ok, Bool.and_eq_true, decide_eq_true_eq, hdecoded, Option.some.injEq]
    constructor
    · rintro ⟨_, hsize, hreturn⟩
      obtain rfl := Except.ok.inj hreturn
      exact ⟨rfl, hsize⟩
    · rintro ⟨rfl, hsize⟩
      exact ⟨(), hsize, rfl⟩

theorem state_ok {incident : Fields lib} {state : LifecycleState} : stateOf lib incident = .ok state ↔
    ∃ value, textOf lib incident "state" 512 = some value ∧ lib.upper value = text state.label := by
  unfold stateOf
  simp only [Checks.bind_ok, requiredText_ok]
  refine exists_congr (fun value => and_congr_right (fun _ => ?_))
  split
  · rename_i hopened
    rw [hopened]
    cases state
    · exact ⟨fun _ => rfl, fun _ => rfl⟩
    · exact ⟨nofun, fun h => absurd h (by decide)⟩
  · split
    · rename_i hclosed
      rw [hclosed]
      cases state
      · exact ⟨nofun, fun h => absurd h (by decide)⟩
      · exact ⟨fun _ => rfl, fun _ => rfl⟩
    · rename_i hopened hclosed
      refine ⟨nofun, fun h => ?_⟩
      cases state
      · exact absurd h hopened
      · exact absurd h hclosed

theorem closed_endOf {incident : Fields lib} {state : LifecycleState} {startedAt : Utc} :
    Closed (endOf lib incident state startedAt) ↔
      (state = .closed → Convertible lib (get lib incident "ended_at")) := by
  cases state
  · exact ⟨nofun, fun _ => closed_ok⟩
  · unfold endOf
    rw [closed_bind, closed_timestamp]
    exact ⟨fun h _ => h.1, fun h => ⟨h rfl, fun _ _ => closed_bind.mpr ⟨closed_require, fun _ _ => closed_ok⟩⟩⟩

theorem canonicalize_closed_iff : Closed (canonicalizeCloudMonitoringPush lib raw) ↔ SafePush lib raw := by
  unfold canonicalizeCloudMonitoringPush SafePush
  simp only [closed_bind, inspect_closed_iff, closed_monitoringPayload, payload_ok, closed_loadObject, loadObject_ok,
    closed_require, require_ok, closed_object, object_ok, closed_requiredText, requiredText_ok, closed_stateOf, state_ok,
    closed_timestamp, timestamp_ok, closed_endOf, closed_alertOf, true_and]
  refine and_congr_right (fun _ => ?_)
  constructor
  · intro h message payload henveloped hpublished hcarried
    obtain ⟨envelope, hinspect⟩ := inspect_ok.mpr ⟨henveloped, hpublished⟩
    obtain ⟨hdocumented, hrest⟩ := h (envelope, message) hinspect payload hcarried
    refine ⟨hdocumented, fun incident state hreported => ?_⟩
    obtain ⟨fields, hloads, hversion, hincident, hkey, value, hvalue, hstate⟩ := hreported
    obtain ⟨key, hkey⟩ := Option.isSome_iff_exists.mp hkey
    obtain ⟨hstarted, hend⟩ := hrest fields hloads () hversion incident hincident key hkey state ⟨value, hvalue, hstate⟩
    exact ⟨hstarted, fun hclosed ⟨moment, hmoment⟩ => (hend moment hmoment).1 hclosed⟩
  · rintro h ⟨envelope, message⟩ hinspect payload hcarried
    obtain ⟨henveloped, hpublished⟩ := inspect_ok.mp ⟨envelope, hinspect⟩
    obtain ⟨hdocumented, hrest⟩ := h message payload henveloped hpublished hcarried
    refine ⟨hdocumented, fun fields hloads _ hversion incident hincident key hkey state hstate => ?_⟩
    obtain ⟨hstarted, hended⟩ := hrest incident state
      ⟨fields, hloads, hversion, hincident, Option.isSome_iff_exists.mpr ⟨key, hkey⟩, hstate⟩
    exact ⟨hstarted, fun moment hmoment => ⟨fun hclosed => hended hclosed ⟨moment, hmoment⟩, fun _ _ => trivial⟩⟩

end Closed

/-- The parsers end in a value or an `AlertIngressError` if and only if what they load is loaded or refused by a caught
error, and the times that they reach are ones that the clock converts. -/
theorem ingress_closed_iff (lib : Library) (raw : ByteArray) :
    (Closed (inspectPubsubEnvelope lib raw) ↔ SafeEnvelope lib raw) ∧
      (Closed (canonicalizeCloudMonitoringPush lib raw) ↔ SafePush lib raw) :=
  ⟨inspect_closed_iff, canonicalize_closed_iff⟩

/-- A body that was published in the first hour of the calendar, an hour ahead of UTC. -/
def edgeBody : ByteArray :=
  "\x7b\"message\":\x7b\"messageId\":\"1\",\"publishTime\":\"0001-01-01T00:00:00+01:00\"\x7d,\"subscription\":\"s\"\x7d".toUTF8

def edgeMessage : List (Text × Value Int) :=
  [(text "messageId", .str (text "1")), (text "publishTime", .str (text "0001-01-01T00:00:00+01:00"))]

def edgeEnvelope : List (Text × Value Int) :=
  [(text "message", .obj edgeMessage), (text "subscription", .str (text "s"))]

def edgeLoads (raw : ByteArray) : Except LoadError (Value Int) :=
  if raw = edgeBody then .ok (.obj edgeEnvelope) else .error .jsonDecodeError

/-- The library on that body; numbers are whole seconds. -/
def edgeLibrary : Library where
  Double := Int
  loads := edgeLoads
  dumps := fun _ => "\x7b\x7d".toUTF8
  float := some
  fromtimestamp := fun x =>
    if h : 0 ≤ x * 1000000 + epoch ∧ x * 1000000 + epoch < Calendar.maxMicros then
      .ok ⟨(x * 1000000 + epoch).toNat, by omega⟩
    else .error .valueError
  fromisoformat := fun s =>
    if s = text "0001-01-01T00:00:00+01:00" then some ⟨0, some 3600000000, by decide⟩ else none
  strip := fun s => ((s.dropWhile (· = 32)).reverse.dropWhile (· = 32)).reverse
  upper := fun s => s.map (fun c => if 97 ≤ c ∧ c ≤ 122 then c - 32 else c)
  sha256 := fun _ => "01d5f5405c6ddf5c57737ea1345f3364d13f0beea284d420d25400f352a0efd8"

/-- An `OverflowError` leaves both parsers. -/
theorem edge_body_escapes :
    ¬Closed (inspectPubsubEnvelope edgeLibrary edgeBody) ∧
      ¬Closed (canonicalizeCloudMonitoringPush edgeLibrary edgeBody) := by
  have hunsafe : ¬SafeEnvelope edgeLibrary edgeBody := by
    rintro ⟨-, htime⟩
    have hloads : edgeLoads edgeBody = .ok (.obj edgeEnvelope) := by
      unfold edgeLoads
      exact if_pos rfl
    have henveloped : Enveloped edgeLibrary edgeBody edgeMessage :=
      ⟨by decide +kernel, by decide +kernel, edgeEnvelope, hloads, rfl, ⟨text "1", by decide +kernel, by decide⟩,
        text "s", by decide +kernel⟩
    have hedge := htime _ henveloped ⟨0, some 3600000000, by decide⟩ 3600000000 (by decide +kernel) rfl
    exact absurd hedge.1 (by decide)
  exact ⟨mt inspect_closed_iff.mp hunsafe, fun h => hunsafe (canonicalize_closed_iff.mp h).1⟩

end Solvan.Alerts.Ingress
