import Solvan.Alerts.Times
import Solvan.Base.Checks
import Solvan.Base.Keyed
import Solvan.Base.Regex

/-! The records that leave a customer through the Relay, and what text is in them. -/
namespace Solvan.Relay.Redaction
open Base Regex

/-- A value that an adapter may put into a record, one that no record takes being one of `Other`. -/
inductive Value (Double Other : Type) where
  | none
  | bool (b : Bool)
  | int (n : Int)
  | float (x : Double)
  | str (s : String)
  | list (items : List (Value Double Other))
  | map (fields : List (Value Double Other × Value Double Other))
  | other (o : Other)

namespace Value

variable {Double Other : Type}

mutual

/-- Every text in a value, the keys of its mappings among them. -/
def strings : Value Double Other → List String
  | .str s => [s]
  | .list items => stringsItems items
  | .map fields => stringsFields fields
  | .none | .bool _ | .int _ | .float _ | .other _ => []

def stringsItems : List (Value Double Other) → List String
  | [] => []
  | v :: vs => strings v ++ stringsItems vs

def stringsFields : List (Value Double Other × Value Double Other) → List String
  | [] => []
  | f :: fs => stringsField f ++ stringsFields fs

def stringsField : Value Double Other × Value Double Other → List String
  | (k, v) => strings k ++ strings v

end

/-- Whether a value is some text. -/
def isStr (v : Value Double Other) (s : String) : Bool :=
  match v with
  | .str s' => s' == s
  | _ => false

end Value

/-- Strings of the standard library, and its reading of times. -/
structure Library extends Alerts.Clock where
  Double : Type
  Other : Type
  space : Char → Bool
  hashable : Other → Bool
  /-- `str`, or none where it raises `ValueError` -/
  str : Value Double Other → Option String
  str_str : ∀ s, str (.str s) = some s
  str_list : ∀ items s, str (.list items) = some s → s.toList.head? = some '['
  str_map : ∀ fields s, str (.map fields) = some s → s.toList.head? = some '\x7b'

inductive Raised where
  | redactionError (message : String)
  | typeError
  | valueError
  | overflowError
deriving DecidableEq, Repr

def refuse {α : Type} (message : String) : Except Raised α := .error (.redactionError message)

def metricKeys : List String := ["kind", "metric_key", "timestamp", "value", "unit", "attributes"]

def logKeys : List String :=
  ["kind", "timestamp", "severity", "message_template_key", "safe_parameters", "attributes"]

def traceKeys : List String :=
  ["kind", "trace_id", "span_id", "name_key", "start_time", "duration_ms", "status", "attributes"]

def kubernetesKeys : List String :=
  ["kind", "namespace", "resource_kind", "resource_name", "created_at", "labels", "attributes"]

def metricAttributes : List String :=
  ["service.name", "deployment.environment", "cloud.region", "cloud.availability_zone", "http.route",
    "http.response.status_code", "db.system", "k8s.deployment.name"]

/-- `approved` -/
def recordAttributes : List String :=
  metricAttributes ++ ["k8s.namespace.name", "k8s.resource.kind", "k8s.resource.name"]

def severities : List String := ["WARNING", "ERROR", "CRITICAL"]

def statuses : List String := ["UNSET", "OK", "ERROR"]

def resourceKinds : List String := ["Deployment", "StatefulSet", "DaemonSet", "Pod", "Service"]

section Records

variable (lib : Library)

abbrev Item := Value lib.Double lib.Other

abbrev Fields := List (Item lib × Item lib)

/-- `_SECRET_PATTERN` -/
def secretPattern : Regex :=
  oneOf [inTurn [caseless "api", perhaps (.set "_-".toList.contains), caseless "key"], caseless "authorization",
    inTurn [caseless "bearer", .repeated (.set lib.space) 1 none], caseless "password", caseless "secret",
    caseless "token", inTurn [caseless "private", perhaps (.set "_-".toList.contains), caseless "key"]]

/-- `_EMAIL_PATTERN` -/
def emailPattern : Regex :=
  inTurn [.repeated (among "._%+-" caselessLetter) 1 none, literal "@", .repeated (among ".-" caselessLetter) 1 none,
    literal ".", .repeated (.set caselessLetter) 2 none]

/-- `_safe_text` -/
def safeText (value field : String) : Except Raised String :=
  if 256 < value.length || (secretPattern lib).search value.toList || emailPattern.search value.toList then
    refuse (field ++ " contains unredacted sensitive content")
  else .ok value

/-- `value.replace("Z", "+00:00")` -/
def zoned (s : String) : String :=
  String.ofList (s.toList.flatMap (fun c => if c = 'Z' then "+00:00".toList else [c]))

/-- `astimezone(UTC)`, of a time that says how far it is ahead of UTC. -/
theorem shifted_inRange (parsed : Datetime) (offset : Int)
    (h : 0 ≤ (parsed.wall : Int) - offset ∧ (parsed.wall : Int) - offset < Calendar.maxMicros) :
    ((parsed.wall : Int) - offset).toNat < Calendar.maxMicros := by
  omega

def astimezone (parsed : Datetime) (field : String) : Except Raised Datetime :=
  match parsed.utcoffset with
  | none => refuse (field ++ " is not timezone-aware")
  | some offset =>
    if h : 0 ≤ (parsed.wall : Int) - offset ∧ (parsed.wall : Int) - offset < Calendar.maxMicros then
      .ok ⟨((parsed.wall : Int) - offset).toNat, some 0, shifted_inRange parsed offset h⟩
    else .error .overflowError

/-- `_timestamp` -/
def timestamp (value : Item lib) (field : String) : Except Raised String :=
  match value with
  | .str s =>
    match lib.fromisoformat (zoned s) with
    | none => refuse (field ++ " is not an RFC-3339 timestamp")
    | some parsed => (astimezone parsed field).map Alerts.zuluText
  | _ => refuse (field ++ " is not an RFC-3339 timestamp")

/-- `raw.get(key)` -/
def get (raw : Fields lib) (key : String) : Item lib :=
  ((raw.find? (fun field => field.1.isStr key)).map Prod.snd).getD .none

/-- `set(raw) == expected` -/
def hasKeys (raw : Fields lib) (expected : List String) : Bool :=
  raw.all (fun field => expected.any field.1.isStr) && expected.all (fun key => raw.any (fun field => field.1.isStr key))

def require (condition : Bool) (message : String) : Except Raised Unit :=
  if condition then .ok () else refuse message

/-- `value in allowed`, which needs a value that has a hash. -/
def isAmong (value : Item lib) (allowed : List String) : Except Raised Bool :=
  match value with
  | .list _ | .map _ => .error .typeError
  | .other o => if lib.hashable o then .ok false else .error .typeError
  | .str s => .ok (allowed.contains s)
  | .none | .bool _ | .int _ | .float _ => .ok false

/-- `str(value)` -/
def coerced (value : Item lib) : Except Raised String :=
  match lib.str value with
  | some s => .ok s
  | none => .error .valueError

/-- The fields of a dictionary with texts for keys. -/
def fieldsOf (items : List (String × Item lib)) : Fields lib := items.map (fun item => (.str item.1, item.2))

/-- What a comprehension makes of keys and values. -/
def dictionary (items : List (String × Item lib)) : Item lib := .map (fieldsOf lib (Keyed.dict Prod.fst items))

/-- One of the attributes. -/
def safeAttribute (approved : List String) (what : String) (field : Item lib × Item lib) :
    Except Raised (String × Item lib) :=
  match field.1 with
  | .str key =>
    if approved.contains key then
      match field.2 with
      | .str s => (safeText lib s ("attribute " ++ key)).map (fun s => (key, .str s))
      | .int _ | .bool _ =>
        if key = "http.response.status_code" then .ok (key, field.2) else refuse (what ++ " attribute value is not safe")
      | _ => refuse (what ++ " attribute value is not safe")
    else refuse (what ++ " attribute key is not approved")
  | _ => refuse (what ++ " attribute key is not approved")

/-- The attributes of a record: `_safe_attributes`, and the loop of `metric_record`. -/
def safeAttributes (approved : List String) (what : String) (value : Item lib) : Except Raised (Item lib) :=
  match value with
  | .map fields => (fields.mapM (safeAttribute lib approved what)).map (dictionary lib)
  | _ => refuse (what ++ " attributes are not an object")

/-- `isinstance(value, int | float) and not isinstance(value, bool)` -/
def isNumber (value : Item lib) : Bool := value matches .int _ | .float _

/-- `isinstance(value, int | float)` -/
def isDuration (value : Item lib) : Bool := value matches .int _ | .float _ | .bool _

/-- `metric_record` -/
def metricRecord (raw : Fields lib) : Except Raised (Fields lib) := do
  require (hasKeys lib raw metricKeys.tail) "metric projection contains unapproved provider fields"
  let attributes ← safeAttributes lib metricAttributes "metric" (get lib raw "attributes")
  let value := get lib raw "value"
  require (isNumber lib value) "metric value is not numeric"
  match get lib raw "metric_key", get lib raw "unit" with
  | .str metricKey, .str unit => do
    let metricKey ← safeText lib metricKey "metric key"
    let moment ← timestamp lib (get lib raw "timestamp") "metric timestamp"
    let unit ← safeText lib unit "metric unit"
    return [(.str "kind", .str "METRIC_POINT"), (.str "metric_key", .str metricKey), (.str "timestamp", .str moment),
      (.str "value", value), (.str "unit", .str unit), (.str "attributes", attributes)]
  | _, _ => refuse "metric key or unit is invalid"

/-- A parameter of a log event. -/
def safeParameter (field : Item lib × Item lib) : Except Raised (String × Item lib) := do
  let key ← safeText lib (← coerced lib field.1) "log parameter key"
  match field.2 with
  | .str s => do
    let s ← safeText lib s "log parameter"
    return (key, .str s)
  | value => return (key, value)

def isScalar (value : Item lib) : Bool := value matches .str _ | .int _ | .float _ | .bool _ | .none

/-- `LOG_EVENT` -/
def logEvent (raw : Fields lib) : Except Raised (Fields lib) := do
  require (hasKeys lib raw logKeys) "log projection has an invalid shape"
  require (← isAmong lib (get lib raw "severity") severities) "log projection has an invalid shape"
  match get lib raw "safe_parameters" with
  | .map parameters => do
    require (parameters.length ≤ 16) "log projection parameters are invalid"
    let parameters := Keyed.dict Prod.fst (← parameters.mapM (safeParameter lib))
    require (parameters.all (fun item => isScalar lib item.2)) "log projection parameter is not scalar"
    let moment ← timestamp lib (get lib raw "timestamp") "log timestamp"
    let template ← safeText lib (← coerced lib (get lib raw "message_template_key")) "message template key"
    let attributes ← safeAttributes lib recordAttributes "record" (get lib raw "attributes")
    return [(.str "kind", .str "LOG_EVENT"), (.str "timestamp", .str moment), (.str "severity", get lib raw "severity"),
      (.str "message_template_key", .str template), (.str "safe_parameters", .map (fieldsOf lib parameters)),
      (.str "attributes", attributes)]
  | _ => refuse "log projection parameters are invalid"

/-- `re.fullmatch` of so many lower-case digits in base 16 -/
def isHex (digits : Nat) (s : String) : Bool :=
  s.length == digits && s.toList.all (fun c => "0123456789abcdef".toList.contains c)

/-- `TRACE_SPAN` -/
def traceSpan (raw : Fields lib) : Except Raised (Fields lib) := do
  require (hasKeys lib raw traceKeys) "trace projection has an invalid identity"
  require (isHex 32 (← coerced lib (get lib raw "trace_id"))) "trace projection has an invalid identity"
  require (isHex 16 (← coerced lib (get lib raw "span_id"))) "trace projection has an invalid identity"
  require (← isAmong lib (get lib raw "status") statuses) "trace projection has an invalid status"
  let duration := get lib raw "duration_ms"
  require (isDuration lib duration) "trace projection has an invalid status"
  let name ← safeText lib (← coerced lib (get lib raw "name_key")) "trace name key"
  let moment ← timestamp lib (get lib raw "start_time") "trace start time"
  let attributes ← safeAttributes lib recordAttributes "record" (get lib raw "attributes")
  return [(.str "kind", .str "TRACE_SPAN"), (.str "trace_id", get lib raw "trace_id"),
    (.str "span_id", get lib raw "span_id"), (.str "name_key", .str name), (.str "start_time", .str moment),
    (.str "duration_ms", duration), (.str "status", get lib raw "status"), (.str "attributes", attributes)]

/-- A label of a resource. -/
def safeLabel (field : Item lib × Item lib) : Except Raised (String × Item lib) := do
  let key ← safeText lib (← coerced lib field.1) "label key"
  let value ← safeText lib (← coerced lib field.2) "label value"
  return (key, .str value)

/-- `KUBERNETES_METADATA` -/
def kubernetesMetadata (raw : Fields lib) : Except Raised (Fields lib) := do
  require (hasKeys lib raw kubernetesKeys) "Kubernetes projection has an invalid shape"
  require (← isAmong lib (get lib raw "resource_kind") resourceKinds) "Kubernetes projection has an invalid shape"
  match get lib raw "labels" with
  | .map labels => do
    require (labels.length ≤ 16) "Kubernetes projection labels are invalid"
    let space ← safeText lib (← coerced lib (get lib raw "namespace")) "namespace"
    let name ← safeText lib (← coerced lib (get lib raw "resource_name")) "resource name"
    let moment ← timestamp lib (get lib raw "created_at") "resource creation time"
    let labels ← labels.mapM (safeLabel lib)
    let attributes ← safeAttributes lib recordAttributes "record" (get lib raw "attributes")
    return [(.str "kind", .str "KUBERNETES_METADATA"), (.str "namespace", .str space),
      (.str "resource_kind", get lib raw "resource_kind"), (.str "resource_name", .str name),
      (.str "created_at", .str moment), (.str "labels", dictionary lib labels), (.str "attributes", attributes)]
  | _ => refuse "Kubernetes projection labels are invalid"

/-- `relay_record` -/
def relayRecord (raw : Fields lib) : Except Raised (Fields lib) :=
  match get lib raw "kind" with
  | .none => metricRecord lib raw
  | .str kind =>
    if kind = "METRIC_POINT" then metricRecord lib (raw.filter (fun field => !field.1.isStr "kind"))
    else if kind = "LOG_EVENT" then logEvent lib raw
    else if kind = "TRACE_SPAN" then traceSpan lib raw
    else if kind = "KUBERNETES_METADATA" then kubernetesMetadata lib raw
    else refuse "record kind is not an approved Relay projection"
  | _ => refuse "record kind is not an approved Relay projection"

end Records

/-- A text that `_safe_text` lets through. -/
structure Safe (lib : Library) (s : String) : Prop where
  short : s.length ≤ 256
  secret : (secretPattern lib).search s.toList = false
  email : emailPattern.search s.toList = false

/-- A moment of UTC as records write it. -/
def UtcTimestamp (s : String) : Prop := ∃ d : Datetime, d.utcoffset = some 0 ∧ s = Alerts.zuluText d

/-- A trace or span id, or a number that is written like one. -/
def HexValue (lib : Library) (digits : Nat) (value : Item lib) : Prop :=
  ∃ s, lib.str value = some s ∧ isHex digits s = true

/-- The value of an attribute. -/
def SafeAttribute (lib : Library) (approved : List String) (out : String × Item lib) : Prop :=
  out.1 ∈ approved ∧ ((∃ s, out.2 = .str s ∧ Safe lib s) ∨
    out.1 = "http.response.status_code" ∧ ((∃ n, out.2 = .int n) ∨ ∃ b, out.2 = .bool b))

/-- A parameter of a log event. -/
def SafeParameter (lib : Library) (out : String × Item lib) : Prop :=
  Safe lib out.1 ∧ ∀ s, out.2 = .str s → Safe lib s

/-- A label of a resource. -/
def SafeLabel (lib : Library) (out : String × Item lib) : Prop := Safe lib out.1 ∧ ∃ s, out.2 = .str s ∧ Safe lib s

/-- Entries of a dictionary, each of some kind. -/
structure Entries (lib : Library) (kind : String × Item lib → Prop) (items : List (String × Item lib)) : Prop where
  distinct : (items.map Prod.fst).Nodup
  each : ∀ out ∈ items, kind out

section Parts

variable {lib : Library} {value field what result key : String} {item : Item lib} {approved allowed : List String}
  {items : List (String × Item lib)} {fields raw record : Fields lib} {digits : Nat}

theorem refuse_ne {α : Type} {message : String} {a : α} : (refuse message : Except Raised α) ≠ .ok a := nofun

theorem map_ok {α β : Type} {x : Except Raised α} {f : α → β} {b : β} : x.map f = .ok b ↔ ∃ a, x = .ok a ∧ f a = b := by
  cases x with
  | error e => exact ⟨nofun, nofun⟩
  | ok a => exact ⟨fun h => ⟨a, rfl, Except.ok.inj h⟩, fun ⟨_, h, hb⟩ => by cases h; exact congrArg _ hb⟩

theorem safeText_ok : safeText lib value field = .ok result ↔ result = value ∧ Safe lib value := by
  unfold safeText
  split
  · rename_i hrefused
    refine ⟨nofun, fun ⟨_, hsafe⟩ => ?_⟩
    rw [hsafe.secret, hsafe.email, Bool.or_false, Bool.or_false, decide_eq_true_eq] at hrefused
    exact absurd hsafe.short (Nat.not_le.mpr hrefused)
  · rename_i haccepted
    rw [Bool.or_eq_true, Bool.or_eq_true, not_or, not_or, decide_eq_true_eq, Bool.not_eq_true,
      Bool.not_eq_true] at haccepted
    obtain ⟨⟨hshort, hsecret⟩, hemail⟩ := haccepted
    exact ⟨fun h => ⟨(Except.ok.inj h).symm, Nat.not_lt.mp hshort, hsecret, hemail⟩, fun h => congrArg _ h.1.symm⟩

theorem require_ok {condition : Bool} {message : String} : require condition message = .ok () ↔ condition = true := by
  cases condition with
  | true => exact ⟨fun _ => rfl, fun _ => rfl⟩
  | false => exact ⟨nofun, nofun⟩

theorem coerced_ok : coerced lib item = .ok result ↔ lib.str item = some result := by
  unfold coerced
  cases lib.str item with
  | none => exact ⟨nofun, nofun⟩
  | some s => exact ⟨fun h => congrArg _ (Except.ok.inj h), fun h => congrArg _ (Option.some.inj h)⟩

theorem isAmong_true : isAmong lib item allowed = .ok true ↔ ∃ s ∈ allowed, item = .str s := by
  cases item with
  | str s =>
    refine ⟨fun h => ⟨s, List.contains_iff_mem.mp (Except.ok.inj h), rfl⟩, fun ⟨t, ht, heq⟩ => ?_⟩
    obtain rfl : s = t := by injection heq
    exact congrArg _ (List.contains_iff_mem.mpr ht)
  | other o =>
    unfold isAmong
    constructor
    · intro h
      dsimp only at h
      split at h <;> cases h
    · rintro ⟨t, -, heq⟩
      cases heq
  | none | bool | int | float | list | map =>
    refine ⟨fun h => ?_, fun ⟨t, _, heq⟩ => ?_⟩
    · cases h
    · cases heq

/-- What a record says of a time is a moment of UTC. -/
theorem timestamp_ok (h : timestamp lib item field = .ok result) : UtcTimestamp result := by
  unfold timestamp at h
  split at h
  · split at h
    · exact absurd h refuse_ne
    · obtain ⟨moment, hmoment, rfl⟩ := map_ok.mp h
      unfold astimezone at hmoment
      split at hmoment
      · exact absurd hmoment refuse_ne
      · split at hmoment
        · obtain rfl := Except.ok.inj hmoment
          exact ⟨_, rfl, rfl⟩
        · cases hmoment
  · exact absurd h refuse_ne

theorem zoned_zuluText {d : Datetime} (hoffset : d.utcoffset = some 0) :
    zoned (Alerts.zuluText d) = String.ofList (Alerts.timeText d) := by
  have hnaive : ∀ cs : List Char, (∀ c ∈ cs, Alerts.Plain c) →
      cs.flatMap (fun c => if c = 'Z' then "+00:00".toList else [c]) = cs := by
    intro cs hplain
    induction cs with
    | nil => rfl
    | cons c cs ih =>
      obtain ⟨hc, hcs⟩ := List.forall_mem_cons.mp hplain
      rw [List.flatMap_cons, if_neg hc.ne_zulu, ih hcs, List.singleton_append]
  have htext : Alerts.timeText d = Alerts.naiveText d.wall ++ "+00:00".toList := by
    rw [Alerts.timeText, hoffset]
    rfl
  rw [zoned, Alerts.zulu_text hoffset, List.flatMap_append, hnaive _ (Alerts.naive_plain _), htext]
  rfl

theorem astimezone_utc {d : Datetime} (hoffset : d.utcoffset = some 0) : astimezone d field = .ok d := by
  obtain ⟨wall, offset, hwall⟩ := d
  obtain rfl : offset = some 0 := hoffset
  have hrange : 0 ≤ (wall : Int) - 0 ∧ (wall : Int) - 0 < Calendar.maxMicros := by
    rw [Int.sub_zero]
    exact ⟨Int.natCast_nonneg wall, Int.ofNat_lt.mpr hwall⟩
  have hmoment : ((wall : Int) - 0).toNat = wall := by rw [Int.sub_zero, Int.toNat_natCast]
  unfold astimezone
  dsimp only
  rw [dif_pos hrange]
  simp only [hmoment]

/-- A moment that was written once is written so again. -/
theorem timestamp_zuluText {d : Datetime} (hoffset : d.utcoffset = some 0) :
    timestamp lib (.str (Alerts.zuluText d)) field = .ok (Alerts.zuluText d) := by
  have hread : lib.fromisoformat (zoned (Alerts.zuluText d)) = some d := by
    rw [zoned_zuluText hoffset, lib.reads d hoffset]
  unfold timestamp
  simp only [hread, astimezone_utc hoffset]
  rfl

theorem UtcTimestamp.again (h : UtcTimestamp value) : timestamp lib (.str value) field = .ok value := by
  obtain ⟨d, hoffset, rfl⟩ := h
  exact timestamp_zuluText hoffset

/-- A comprehension whose expression makes entries of some kind. -/
theorem entries_ok {kind : String × Item lib → Prop} {one : Item lib × Item lib → Except Raised (String × Item lib)}
    (hone : ∀ entry out, one entry = .ok out → kind out) (h : fields.mapM one = .ok items) :
    Entries lib kind (Keyed.dict Prod.fst items) ∧ (Keyed.dict Prod.fst items).length ≤ fields.length := by
  refine ⟨⟨Keyed.dict_nodup, fun out hout => ?_⟩, ?_⟩
  · obtain ⟨entry, -, hentry⟩ := Checks.mem_of_mapM h out (Keyed.mem_dict hout)
    exact hone entry out hentry
  · rw [(Checks.mapM_ok.mp h).length_eq]
    exact Keyed.length_dict_le

/-- It makes them again of what it made. -/
theorem Entries.again {kind : String × Item lib → Prop}
    {one : Item lib × Item lib → Except Raised (String × Item lib)} (h : Entries lib kind items)
    (hone : ∀ out, kind out → one (.str out.1, out.2) = .ok out) : (fieldsOf lib items).mapM one = .ok items :=
  Checks.mapM_ok.mpr (List.forall₂_map_left_iff.mpr (List.forall₂_same.mpr (fun out hout => hone out (h.each out hout))))

theorem Entries.dictionary {kind : String × Item lib → Prop} (h : Entries lib kind items) :
    dictionary lib items = .map (fieldsOf lib items) := by
  rw [Redaction.dictionary, Keyed.dict_eq h.distinct]

theorem safeAttribute_ok {entry : Item lib × Item lib} {out : String × Item lib}
    (h : safeAttribute lib approved what entry = .ok out) : SafeAttribute lib approved out := by
  obtain ⟨first, second⟩ := entry
  cases first with
  | str key =>
    unfold safeAttribute at h
    dsimp only at h
    by_cases happroved : approved.contains key = true
    · rw [if_pos happroved] at h
      have hkey := List.contains_iff_mem.mp happroved
      cases second with
      | str s =>
        obtain ⟨result, hresult, heq⟩ := map_ok.mp h
        obtain ⟨rfl, hsafe⟩ := safeText_ok.mp hresult
        subst heq
        exact ⟨hkey, .inl ⟨_, rfl, hsafe⟩⟩
      | int n =>
        by_cases hcode : key = "http.response.status_code"
        · obtain rfl := Except.ok.inj ((if_pos hcode).symm.trans h)
          exact ⟨hkey, .inr ⟨hcode, .inl ⟨n, rfl⟩⟩⟩
        · exact absurd ((if_neg hcode).symm.trans h) refuse_ne
      | bool b =>
        by_cases hcode : key = "http.response.status_code"
        · obtain rfl := Except.ok.inj ((if_pos hcode).symm.trans h)
          exact ⟨hkey, .inr ⟨hcode, .inr ⟨b, rfl⟩⟩⟩
        · exact absurd ((if_neg hcode).symm.trans h) refuse_ne
      | none | float | list | map | other => exact absurd h refuse_ne
    · exact absurd ((if_neg happroved).symm.trans h) refuse_ne
  | none | bool | int | float | list | map | other => exact absurd h refuse_ne

theorem SafeAttribute.again {out : String × Item lib} (h : SafeAttribute lib approved out) :
    safeAttribute lib approved what (.str out.1, out.2) = .ok out := by
  obtain ⟨key, value⟩ := out
  obtain ⟨hkey, hvalue⟩ := h
  have happroved : approved.contains key = true := List.contains_iff_mem.mpr hkey
  unfold safeAttribute
  dsimp only
  rw [if_pos happroved]
  obtain ⟨s, heq, hsafe⟩ | ⟨hcode, ⟨n, heq⟩ | ⟨b, heq⟩⟩ := hvalue
  · obtain rfl : value = .str s := heq
    exact map_ok.mpr ⟨s, safeText_ok.mpr ⟨rfl, hsafe⟩, rfl⟩
  · obtain rfl : value = .int n := heq
    exact if_pos hcode
  · obtain rfl : value = .bool b := heq
    exact if_pos hcode

theorem safeAttributes_ok {out : Item lib} (h : safeAttributes lib approved what item = .ok out) :
    ∃ items, Entries lib (SafeAttribute lib approved) items ∧ out = .map (fieldsOf lib items) := by
  unfold safeAttributes at h
  split at h
  · obtain ⟨items, hitems, rfl⟩ := map_ok.mp h
    exact ⟨_, (entries_ok (fun entry out => safeAttribute_ok) hitems).1, rfl⟩
  · exact absurd h refuse_ne

theorem attributes_again (h : Entries lib (SafeAttribute lib approved) items) :
    safeAttributes lib approved what (.map (fieldsOf lib items)) = .ok (.map (fieldsOf lib items)) :=
  map_ok.mpr ⟨items, h.again (fun _ => SafeAttribute.again), h.dictionary⟩

theorem safeParameter_ok {entry : Item lib × Item lib} {out : String × Item lib}
    (h : safeParameter lib entry = .ok out) : SafeParameter lib out := by
  obtain ⟨first, second⟩ := entry
  obtain ⟨text, -, hentry⟩ := Checks.bind_ok.mp h
  obtain ⟨key, hkey, hmade⟩ := Checks.bind_ok.mp hentry
  obtain ⟨rfl, hsafe⟩ := safeText_ok.mp hkey
  clear h hentry
  cases second with
  | str s =>
    obtain ⟨result, hresult, hpair⟩ := Checks.bind_ok.mp hmade
    obtain ⟨rfl, hvalue⟩ := safeText_ok.mp hresult
    obtain rfl := Except.ok.inj hpair
    exact ⟨hsafe, fun s heq => by injection heq with heq; exact heq ▸ hvalue⟩
  | none | bool | int | float | list | map | other =>
    obtain rfl := Except.ok.inj hmade
    exact ⟨hsafe, fun s heq => nomatch heq⟩

theorem SafeParameter.again {out : String × Item lib} (h : SafeParameter lib out) :
    safeParameter lib (.str out.1, out.2) = .ok out := by
  obtain ⟨key, value⟩ := out
  obtain ⟨hkey, hvalue⟩ := h
  refine Checks.bind_ok.mpr ⟨key, coerced_ok.mpr (lib.str_str key), ?_⟩
  refine Checks.bind_ok.mpr ⟨key, safeText_ok.mpr ⟨rfl, hkey⟩, ?_⟩
  cases value with
  | str s => exact Checks.bind_ok.mpr ⟨s, safeText_ok.mpr ⟨rfl, hvalue s rfl⟩, rfl⟩
  | none | bool | int | float | list | map | other => rfl

theorem safeLabel_ok {entry : Item lib × Item lib} {out : String × Item lib} (h : safeLabel lib entry = .ok out) :
    SafeLabel lib out := by
  obtain ⟨text, _, h⟩ := Checks.bind_ok.mp h
  obtain ⟨key, hkey, h⟩ := Checks.bind_ok.mp h
  obtain ⟨text', _, h⟩ := Checks.bind_ok.mp h
  obtain ⟨value, hvalue, h⟩ := Checks.bind_ok.mp h
  obtain rfl := Except.ok.inj h
  obtain ⟨rfl, hkey⟩ := safeText_ok.mp hkey
  obtain ⟨rfl, hvalue⟩ := safeText_ok.mp hvalue
  exact ⟨hkey, _, rfl, hvalue⟩

theorem SafeLabel.again {out : String × Item lib} (h : SafeLabel lib out) :
    safeLabel lib (.str out.1, out.2) = .ok out := by
  obtain ⟨key, value⟩ := out
  obtain ⟨hkey, s, heq, hvalue⟩ := h
  obtain rfl : value = .str s := heq
  refine Checks.bind_ok.mpr ⟨key, coerced_ok.mpr (lib.str_str key), ?_⟩
  refine Checks.bind_ok.mpr ⟨key, safeText_ok.mpr ⟨rfl, hkey⟩, ?_⟩
  refine Checks.bind_ok.mpr ⟨s, coerced_ok.mpr (lib.str_str s), ?_⟩
  exact Checks.bind_ok.mpr ⟨s, safeText_ok.mpr ⟨rfl, hvalue⟩, rfl⟩

end Parts

/-- The records that are sent, kind by kind. -/
inductive Record (lib : Library) : Fields lib → Prop
  | metric {metricKey moment unit : String} {value : Item lib} {attributes : List (String × Item lib)}
      (hkey : Safe lib metricKey) (hmoment : UtcTimestamp moment) (hvalue : isNumber lib value = true)
      (hunit : Safe lib unit) (hattributes : Entries lib (SafeAttribute lib metricAttributes) attributes) :
      Record lib [(.str "kind", .str "METRIC_POINT"), (.str "metric_key", .str metricKey),
        (.str "timestamp", .str moment), (.str "value", value), (.str "unit", .str unit),
        (.str "attributes", .map (fieldsOf lib attributes))]
  | log {moment severity template : String} {parameters attributes : List (String × Item lib)}
      (hmoment : UtcTimestamp moment) (hseverity : severity ∈ severities) (htemplate : Safe lib template)
      (hparameters : Entries lib (SafeParameter lib) parameters) (hfew : parameters.length ≤ 16)
      (hscalar : parameters.all (fun item => isScalar lib item.2) = true)
      (hattributes : Entries lib (SafeAttribute lib recordAttributes) attributes) :
      Record lib [(.str "kind", .str "LOG_EVENT"), (.str "timestamp", .str moment), (.str "severity", .str severity),
        (.str "message_template_key", .str template), (.str "safe_parameters", .map (fieldsOf lib parameters)),
        (.str "attributes", .map (fieldsOf lib attributes))]
  | trace {name moment status : String} {traceId spanId duration : Item lib} {attributes : List (String × Item lib)}
      (htrace : HexValue lib 32 traceId) (hspan : HexValue lib 16 spanId) (hname : Safe lib name)
      (hmoment : UtcTimestamp moment) (hduration : isDuration lib duration = true) (hstatus : status ∈ statuses)
      (hattributes : Entries lib (SafeAttribute lib recordAttributes) attributes) :
      Record lib [(.str "kind", .str "TRACE_SPAN"), (.str "trace_id", traceId), (.str "span_id", spanId),
        (.str "name_key", .str name), (.str "start_time", .str moment), (.str "duration_ms", duration),
        (.str "status", .str status), (.str "attributes", .map (fieldsOf lib attributes))]
  | kubernetes {space resourceKind name moment : String} {labels attributes : List (String × Item lib)}
      (hspace : Safe lib space) (hkind : resourceKind ∈ resourceKinds) (hname : Safe lib name)
      (hmoment : UtcTimestamp moment) (hlabels : Entries lib (SafeLabel lib) labels) (hfew : labels.length ≤ 16)
      (hattributes : Entries lib (SafeAttribute lib recordAttributes) attributes) :
      Record lib [(.str "kind", .str "KUBERNETES_METADATA"), (.str "namespace", .str space),
        (.str "resource_kind", .str resourceKind), (.str "resource_name", .str name), (.str "created_at", .str moment),
        (.str "labels", .map (fieldsOf lib labels)), (.str "attributes", .map (fieldsOf lib attributes))]

/-- The names of the kinds, with the keys of each and those of its attributes. -/
structure Shape where
  kind : String
  keys : List String
  attributes : List String

def shapes : List Shape :=
  [⟨"METRIC_POINT", metricKeys, metricAttributes⟩, ⟨"LOG_EVENT", logKeys, recordAttributes⟩,
    ⟨"TRACE_SPAN", traceKeys, recordAttributes⟩, ⟨"KUBERNETES_METADATA", kubernetesKeys, recordAttributes⟩]

/-- The words that records have in common. -/
def vocabulary : List String :=
  shapes.flatMap (fun shape => shape.kind :: (shape.keys ++ shape.attributes)) ++ severities ++ statuses ++ resourceKinds

/-- A text that may be sent. -/
def Sent (lib : Library) (s : String) : Prop :=
  s ∈ vocabulary ∨ isHex 32 s = true ∨ isHex 16 s = true ∨ UtcTimestamp s ∨ Safe lib s

/-- The keys of a record are those of its kind. -/
def OfKind (lib : Library) (record : Fields lib) : Prop :=
  ∃ shape ∈ shapes, get lib record "kind" = .str shape.kind ∧ record.map Prod.fst = shape.keys.map .str ∧
    ∃ attributes, get lib record "attributes" = .map attributes ∧
      ∀ field ∈ attributes, ∃ key ∈ shape.attributes, field.1 = .str key

section Records

variable {lib : Library} {raw record : Fields lib}

theorem metricRecord_ok (h : metricRecord lib raw = .ok record) : Record lib record := by
  unfold metricRecord at h
  obtain ⟨_, _, h⟩ := Checks.bind_ok.mp h
  obtain ⟨attributes, hattributes, h⟩ := Checks.bind_ok.mp h
  obtain ⟨_, hvalue, h⟩ := Checks.bind_ok.mp h
  obtain ⟨items, hitems, rfl⟩ := safeAttributes_ok hattributes
  split at h
  · obtain ⟨metricKey, hkey, h⟩ := Checks.bind_ok.mp h
    obtain ⟨moment, hmoment, h⟩ := Checks.bind_ok.mp h
    obtain ⟨unit, hunit, h⟩ := Checks.bind_ok.mp h
    obtain rfl := Except.ok.inj h
    obtain ⟨rfl, hkey⟩ := safeText_ok.mp hkey
    obtain ⟨rfl, hunit⟩ := safeText_ok.mp hunit
    exact .metric hkey (timestamp_ok hmoment) (require_ok.mp hvalue) hunit hitems
  · exact absurd h refuse_ne

theorem logEvent_ok (h : logEvent lib raw = .ok record) : Record lib record := by
  unfold logEvent at h
  obtain ⟨_, _, h⟩ := Checks.bind_ok.mp h
  obtain ⟨known, hknown, h⟩ := Checks.bind_ok.mp h
  obtain ⟨_, hseverity, h⟩ := Checks.bind_ok.mp h
  split at h
  · obtain ⟨_, hfew, h⟩ := Checks.bind_ok.mp h
    obtain ⟨parameters, hparameters, h⟩ := Checks.bind_ok.mp h
    obtain ⟨_, hscalar, h⟩ := Checks.bind_ok.mp h
    obtain ⟨moment, hmoment, h⟩ := Checks.bind_ok.mp h
    obtain ⟨text, _, h⟩ := Checks.bind_ok.mp h
    obtain ⟨template, htemplate, h⟩ := Checks.bind_ok.mp h
    obtain ⟨attributes, hattributes, h⟩ := Checks.bind_ok.mp h
    obtain rfl := Except.ok.inj h
    obtain rfl := require_ok.mp hseverity
    obtain ⟨severity, hseverity, hget⟩ := isAmong_true.mp hknown
    obtain ⟨items, hitems, rfl⟩ := safeAttributes_ok hattributes
    obtain ⟨rfl, htemplate⟩ := safeText_ok.mp htemplate
    obtain ⟨hentries, hlength⟩ := entries_ok (fun entry out => safeParameter_ok) hparameters
    rw [hget]
    exact .log (timestamp_ok hmoment) hseverity htemplate hentries
      (hlength.trans (decide_eq_true_eq.mp (require_ok.mp hfew))) (require_ok.mp hscalar) hitems
  · exact absurd h refuse_ne

theorem traceSpan_ok (h : traceSpan lib raw = .ok record) : Record lib record := by
  unfold traceSpan at h
  obtain ⟨_, _, h⟩ := Checks.bind_ok.mp h
  obtain ⟨traceId, htrace, h⟩ := Checks.bind_ok.mp h
  obtain ⟨_, hhex, h⟩ := Checks.bind_ok.mp h
  obtain ⟨spanId, hspan, h⟩ := Checks.bind_ok.mp h
  obtain ⟨_, hhex', h⟩ := Checks.bind_ok.mp h
  obtain ⟨known, hknown, h⟩ := Checks.bind_ok.mp h
  obtain ⟨_, hstatus, h⟩ := Checks.bind_ok.mp h
  obtain ⟨_, hduration, h⟩ := Checks.bind_ok.mp h
  obtain ⟨text, _, h⟩ := Checks.bind_ok.mp h
  obtain ⟨name, hname, h⟩ := Checks.bind_ok.mp h
  obtain ⟨moment, hmoment, h⟩ := Checks.bind_ok.mp h
  obtain ⟨attributes, hattributes, h⟩ := Checks.bind_ok.mp h
  obtain ⟨items, hitems, rfl⟩ := safeAttributes_ok hattributes
  obtain rfl := Except.ok.inj h
  obtain rfl := require_ok.mp hstatus
  obtain ⟨status, hstatus, hget⟩ := isAmong_true.mp hknown
  obtain ⟨rfl, hname⟩ := safeText_ok.mp hname
  rw [hget]
  exact .trace ⟨_, coerced_ok.mp htrace, require_ok.mp hhex⟩ ⟨_, coerced_ok.mp hspan, require_ok.mp hhex'⟩ hname
    (timestamp_ok hmoment) (require_ok.mp hduration) hstatus hitems

theorem kubernetesMetadata_ok (h : kubernetesMetadata lib raw = .ok record) : Record lib record := by
  unfold kubernetesMetadata at h
  obtain ⟨_, _, h⟩ := Checks.bind_ok.mp h
  obtain ⟨known, hknown, h⟩ := Checks.bind_ok.mp h
  obtain ⟨_, hkind, h⟩ := Checks.bind_ok.mp h
  split at h
  · obtain ⟨_, hfew, h⟩ := Checks.bind_ok.mp h
    obtain ⟨text, _, h⟩ := Checks.bind_ok.mp h
    obtain ⟨space, hspace, h⟩ := Checks.bind_ok.mp h
    obtain ⟨text', _, h⟩ := Checks.bind_ok.mp h
    obtain ⟨name, hname, h⟩ := Checks.bind_ok.mp h
    obtain ⟨moment, hmoment, h⟩ := Checks.bind_ok.mp h
    obtain ⟨labels, hlabels, h⟩ := Checks.bind_ok.mp h
    obtain ⟨attributes, hattributes, h⟩ := Checks.bind_ok.mp h
    obtain rfl := Except.ok.inj h
    obtain rfl := require_ok.mp hkind
    obtain ⟨resourceKind, hkind, hget⟩ := isAmong_true.mp hknown
    obtain ⟨items, hitems, rfl⟩ := safeAttributes_ok hattributes
    obtain ⟨rfl, hspace⟩ := safeText_ok.mp hspace
    obtain ⟨rfl, hname⟩ := safeText_ok.mp hname
    obtain ⟨hentries, hlength⟩ := entries_ok (fun entry out => safeLabel_ok) hlabels
    rw [hget]
    exact .kubernetes hspace hkind hname (timestamp_ok hmoment) hentries
      (hlength.trans (decide_eq_true_eq.mp (require_ok.mp hfew))) hitems
  · exact absurd h refuse_ne

/-- What `relay_record` returns. -/
theorem relayRecord_ok (h : relayRecord lib raw = .ok record) : Record lib record := by
  unfold relayRecord at h
  split at h
  · exact metricRecord_ok h
  · split at h
    · exact metricRecord_ok h
    · split at h
      · exact logEvent_ok h
      · split at h
        · exact traceSpan_ok h
        · split at h
          · exact kubernetesMetadata_ok h
          · exact absurd h refuse_ne
  · exact absurd h refuse_ne

/-- A record that was made is made again of itself. -/
theorem Record.again (h : Record lib record) : relayRecord lib record = .ok record := by
  cases h with
  | metric hkey hmoment hvalue hunit hattributes =>
    refine Checks.bind_ok.mpr ⟨(), rfl, ?_⟩
    refine Checks.bind_ok.mpr ⟨_, attributes_again hattributes, ?_⟩
    refine Checks.bind_ok.mpr ⟨(), require_ok.mpr hvalue, ?_⟩
    refine Checks.bind_ok.mpr ⟨_, safeText_ok.mpr ⟨rfl, hkey⟩, ?_⟩
    refine Checks.bind_ok.mpr ⟨_, hmoment.again, ?_⟩
    exact Checks.bind_ok.mpr ⟨_, safeText_ok.mpr ⟨rfl, hunit⟩, rfl⟩
  | log hmoment hseverity htemplate hparameters hfew hscalar hattributes =>
    refine Checks.bind_ok.mpr ⟨(), rfl, ?_⟩
    refine Checks.bind_ok.mpr ⟨true, isAmong_true.mpr ⟨_, hseverity, rfl⟩, ?_⟩
    refine Checks.bind_ok.mpr ⟨(), rfl, ?_⟩
    refine Checks.bind_ok.mpr ⟨(), require_ok.mpr ?_, ?_⟩
    · rw [fieldsOf, List.length_map]
      exact decide_eq_true hfew
    refine Checks.bind_ok.mpr ⟨_, hparameters.again (fun _ => SafeParameter.again), ?_⟩
    have hdict := Keyed.dict_eq hparameters.distinct
    refine Checks.bind_ok.mpr ⟨(), require_ok.mpr (hdict.symm ▸ hscalar), ?_⟩
    refine Checks.bind_ok.mpr ⟨_, hmoment.again, ?_⟩
    refine Checks.bind_ok.mpr ⟨_, coerced_ok.mpr (lib.str_str _), ?_⟩
    refine Checks.bind_ok.mpr ⟨_, safeText_ok.mpr ⟨rfl, htemplate⟩, ?_⟩
    refine Checks.bind_ok.mpr ⟨_, attributes_again hattributes, ?_⟩
    rw [hdict]
    rfl
  | trace htrace hspan hname hmoment hduration hstatus hattributes =>
    obtain ⟨traceId, htraceId, hhex⟩ := htrace
    obtain ⟨spanId, hspanId, hhex'⟩ := hspan
    refine Checks.bind_ok.mpr ⟨(), rfl, ?_⟩
    refine Checks.bind_ok.mpr ⟨_, coerced_ok.mpr htraceId, ?_⟩
    refine Checks.bind_ok.mpr ⟨(), require_ok.mpr hhex, ?_⟩
    refine Checks.bind_ok.mpr ⟨_, coerced_ok.mpr hspanId, ?_⟩
    refine Checks.bind_ok.mpr ⟨(), require_ok.mpr hhex', ?_⟩
    refine Checks.bind_ok.mpr ⟨true, isAmong_true.mpr ⟨_, hstatus, rfl⟩, ?_⟩
    refine Checks.bind_ok.mpr ⟨(), rfl, ?_⟩
    refine Checks.bind_ok.mpr ⟨(), require_ok.mpr hduration, ?_⟩
    refine Checks.bind_ok.mpr ⟨_, coerced_ok.mpr (lib.str_str _), ?_⟩
    refine Checks.bind_ok.mpr ⟨_, safeText_ok.mpr ⟨rfl, hname⟩, ?_⟩
    refine Checks.bind_ok.mpr ⟨_, hmoment.again, ?_⟩
    exact Checks.bind_ok.mpr ⟨_, attributes_again hattributes, rfl⟩
  | kubernetes hspace hkind hname hmoment hlabels hfew hattributes =>
    refine Checks.bind_ok.mpr ⟨(), rfl, ?_⟩
    refine Checks.bind_ok.mpr ⟨true, isAmong_true.mpr ⟨_, hkind, rfl⟩, ?_⟩
    refine Checks.bind_ok.mpr ⟨(), rfl, ?_⟩
    refine Checks.bind_ok.mpr ⟨(), require_ok.mpr ?_, ?_⟩
    · rw [fieldsOf, List.length_map]
      exact decide_eq_true hfew
    refine Checks.bind_ok.mpr ⟨_, coerced_ok.mpr (lib.str_str _), ?_⟩
    refine Checks.bind_ok.mpr ⟨_, safeText_ok.mpr ⟨rfl, hspace⟩, ?_⟩
    refine Checks.bind_ok.mpr ⟨_, coerced_ok.mpr (lib.str_str _), ?_⟩
    refine Checks.bind_ok.mpr ⟨_, safeText_ok.mpr ⟨rfl, hname⟩, ?_⟩
    refine Checks.bind_ok.mpr ⟨_, hmoment.again, ?_⟩
    refine Checks.bind_ok.mpr ⟨_, hlabels.again (fun _ => SafeLabel.again), ?_⟩
    refine Checks.bind_ok.mpr ⟨_, attributes_again hattributes, ?_⟩
    rw [hlabels.dictionary]
    rfl

/-- A value whose texts may be sent. -/
def Clean (lib : Library) (value : Item lib) : Prop := ∀ s ∈ value.strings, Sent lib s

theorem clean_str {s : String} (h : Sent lib s) : Clean lib (.str s) := by
  intro t ht
  rw [List.mem_singleton.mp ht]
  exact h

theorem clean_word {s : String} (h : s ∈ vocabulary) : Clean lib (.str s) := clean_str (.inl h)

theorem clean_safe {s : String} (h : Safe lib s) : Clean lib (.str s) := clean_str (.inr (.inr (.inr (.inr h))))

theorem clean_moment {s : String} (h : UtcTimestamp s) : Clean lib (.str s) :=
  clean_str (.inr (.inr (.inr (.inl h))))

theorem clean_map {fields : Fields lib} (h : ∀ field ∈ fields, Clean lib field.1 ∧ Clean lib field.2) :
    Clean lib (.map fields) := by
  induction fields with
  | nil => exact fun s hs => nomatch hs
  | cons field fields ih =>
    obtain ⟨key, value⟩ := field
    obtain ⟨⟨hkey, hvalue⟩, hrest⟩ := List.forall_mem_cons.mp h
    intro s hs
    obtain hs | hs := List.mem_append.mp hs
    · exact (List.mem_append.mp hs).elim (hkey s) (hvalue s)
    · exact ih hrest s hs

theorem clean_number {value : Item lib} (h : isDuration lib value = true) : Clean lib value := by
  cases value with
  | int | float | bool => exact fun s hs => nomatch hs
  | none | str | list | map | other => cases h

theorem isHex_digits {digits : Nat} {s : String} {c : Char} (h : isHex digits s = true) (hc : c ∈ s.toList) :
    c ∈ "0123456789abcdef".toList :=
  List.contains_iff_mem.mp (List.all_eq_true.mp (Bool.and_eq_true _ _ ▸ h).2 c hc)

/-- What is written as an id is a text or holds none. -/
theorem HexValue.strings {digits : Nat} {value : Item lib} (h : HexValue lib digits value) :
    ∀ s ∈ value.strings, isHex digits s = true := by
  obtain ⟨text, htext, hhex⟩ := h
  cases value with
  | str s =>
    intro t ht
    rw [List.mem_singleton.mp ht, Option.some.inj ((lib.str_str s).symm.trans htext)]
    exact hhex
  | list items => exact absurd (isHex_digits hhex (List.mem_of_head? (lib.str_list items text htext))) (by decide)
  | map fields => exact absurd (isHex_digits hhex (List.mem_of_head? (lib.str_map fields text htext))) (by decide)
  | none | bool | int | float | other => exact fun s hs => nomatch hs

theorem clean_attributes {approved : List String} {items : List (String × Item lib)}
    (hwords : ∀ key ∈ approved, key ∈ vocabulary) (h : Entries lib (SafeAttribute lib approved) items) :
    Clean lib (.map (fieldsOf lib items)) := by
  refine clean_map (List.forall_mem_map.mpr (fun out hout => ?_))
  obtain ⟨hkey, ⟨s, heq, hsafe⟩ | ⟨-, ⟨n, heq⟩ | ⟨b, heq⟩⟩⟩ := h.each out hout
  · exact ⟨clean_word (hwords _ hkey), heq ▸ clean_safe hsafe⟩
  · exact ⟨clean_word (hwords _ hkey), heq ▸ clean_number rfl⟩
  · exact ⟨clean_word (hwords _ hkey), heq ▸ clean_number rfl⟩

theorem clean_parameters {items : List (String × Item lib)} (h : Entries lib (SafeParameter lib) items)
    (hscalar : items.all (fun item => isScalar lib item.2) = true) : Clean lib (.map (fieldsOf lib items)) := by
  refine clean_map (List.forall_mem_map.mpr (fun out hout => ?_))
  obtain ⟨hkey, hvalue⟩ := h.each out hout
  have hone := List.all_eq_true.mp hscalar out hout
  refine ⟨clean_safe hkey, ?_⟩
  generalize out.2 = value at hvalue hone
  cases value with
  | str s => exact clean_safe (hvalue s rfl)
  | none | bool | int | float => exact fun s hs => nomatch hs
  | list | map | other => cases hone

theorem clean_labels {items : List (String × Item lib)} (h : Entries lib (SafeLabel lib) items) :
    Clean lib (.map (fieldsOf lib items)) := by
  refine clean_map (List.forall_mem_map.mpr (fun out hout => ?_))
  obtain ⟨hkey, s, heq, hvalue⟩ := h.each out hout
  exact ⟨clean_safe hkey, heq ▸ clean_safe hvalue⟩

theorem shape_words : ∀ shape ∈ shapes, shape.kind ∈ vocabulary ∧ (∀ key ∈ shape.keys, key ∈ vocabulary) ∧
    ∀ key ∈ shape.attributes, key ∈ vocabulary := by
  decide +kernel

theorem listed_words : (∀ s ∈ severities, s ∈ vocabulary) ∧ (∀ s ∈ statuses, s ∈ vocabulary) ∧
    ∀ s ∈ resourceKinds, s ∈ vocabulary := by
  decide +kernel

theorem attributes_approved {approved : List String} {items : List (String × Item lib)}
    (h : Entries lib (SafeAttribute lib approved) items) :
    ∀ field ∈ fieldsOf lib items, ∃ key ∈ approved, field.1 = .str key :=
  List.forall_mem_map.mpr (fun out hout => ⟨out.1, (h.each out hout).1, rfl⟩)

theorem Record.ofKind (h : Record lib record) : OfKind lib record := by
  cases h with
  | metric _ _ _ _ hattributes =>
    exact ⟨_, List.mem_cons_self, rfl, rfl, _, rfl, attributes_approved hattributes⟩
  | log _ _ _ _ _ _ hattributes =>
    exact ⟨_, List.mem_cons_of_mem _ List.mem_cons_self, rfl, rfl, _, rfl, attributes_approved hattributes⟩
  | trace _ _ _ _ _ _ hattributes =>
    exact ⟨_, List.mem_cons_of_mem _ (List.mem_cons_of_mem _ List.mem_cons_self), rfl, rfl, _, rfl,
      attributes_approved hattributes⟩
  | kubernetes _ _ _ _ _ _ hattributes =>
    exact ⟨_, List.mem_cons_of_mem _ (List.mem_cons_of_mem _ (List.mem_cons_of_mem _ List.mem_cons_self)), rfl, rfl,
      _, rfl, attributes_approved hattributes⟩

/-- The keys are words, and the values what their checks let through. -/
theorem Record.clean (h : Record lib record) : Clean lib (.map record) := by
  have hkeys : ∀ field ∈ record, Clean lib field.1 := by
    obtain ⟨shape, hshape, -, hkeys, -⟩ := h.ofKind
    intro field hfield
    have hmem : field.1 ∈ shape.keys.map Value.str := hkeys ▸ List.mem_map_of_mem hfield
    obtain ⟨key, hkey, heq⟩ := List.mem_map.mp hmem
    exact heq ▸ clean_word ((shape_words shape hshape).2.1 key hkey)
  have hkind : ∀ kind ∈ shapes.map Shape.kind, Clean lib (.str kind) :=
    List.forall_mem_map.mpr (fun shape hshape => clean_word (shape_words shape hshape).1)
  have hattribute : ∀ key ∈ recordAttributes, key ∈ vocabulary :=
    (shape_words _ (List.mem_cons_of_mem _ List.mem_cons_self)).2.2
  have hvalues : ∀ value ∈ record.map Prod.snd, Clean lib value := by
    cases h with
    | @metric metricKey moment unit value attributes hkey hmoment hvalue hunit hattributes =>
      have hnumber : isDuration lib value = true := by
        cases value with
        | int | float => rfl
        | none | bool | str | list | map | other => cases hvalue
      simp only [List.map_cons, List.map_nil, List.forall_mem_cons]
      exact ⟨hkind _ (by decide), clean_safe hkey, clean_moment hmoment, clean_number hnumber, clean_safe hunit,
        clean_attributes (shape_words _ List.mem_cons_self).2.2 hattributes, nofun⟩
    | log hmoment hseverity htemplate hparameters hfew hscalar hattributes =>
      simp only [List.map_cons, List.map_nil, List.forall_mem_cons]
      exact ⟨hkind _ (by decide), clean_moment hmoment, clean_word (listed_words.1 _ hseverity), clean_safe htemplate,
        clean_parameters hparameters hscalar, clean_attributes hattribute hattributes, nofun⟩
    | trace htrace hspan hname hmoment hduration hstatus hattributes =>
      simp only [List.map_cons, List.map_nil, List.forall_mem_cons]
      exact ⟨hkind _ (by decide), fun s hs => .inr (.inl (htrace.strings s hs)),
        fun s hs => .inr (.inr (.inl (hspan.strings s hs))), clean_safe hname, clean_moment hmoment,
        clean_number hduration, clean_word (listed_words.2.1 _ hstatus), clean_attributes hattribute hattributes, nofun⟩
    | kubernetes hspace hkind' hname hmoment hlabels hfew hattributes =>
      simp only [List.map_cons, List.map_nil, List.forall_mem_cons]
      exact ⟨hkind _ (by decide), clean_safe hspace, clean_word (listed_words.2.2 _ hkind'), clean_safe hname,
        clean_moment hmoment, clean_labels hlabels, clean_attributes hattribute hattributes, nofun⟩
  exact clean_map (fun field hfield => ⟨hkeys field hfield, hvalues _ (List.mem_map_of_mem hfield)⟩)

end Records

section Example

def plainLibrary : Library where
  toClock := Alerts.utcClock
  Double := Int
  Other := Empty
  space := fun c => c == ' '
  hashable := nofun
  str := fun value =>
    match value with
    | .none => some "None"
    | .bool b => some (if b then "True" else "False")
    | .int n => some (toString n)
    | .str s => some s
    | .list _ => some "[...]"
    | .map _ => some "\x7b...\x7d"
    | .float _ | .other _ => none
  str_str := fun _ => rfl
  str_list := fun _ _ h => by
    obtain rfl := Option.some.inj h
    rfl
  str_map := fun _ _ h => by
    obtain rfl := Option.some.inj h
    rfl

/-- The first moment of 2026, in microseconds of year 1. -/
def newYear : Datetime := ⟨63902822400000000, some 0, by decide⟩

/-- A point of a metric as an adapter gives it. -/
def loadPoint : Fields plainLibrary :=
  [(.str "metric_key", .str "cpu.load"), (.str "timestamp", .str (Alerts.zuluText newYear)), (.str "value", .int 3),
    (.str "unit", .str "1"), (.str "attributes", .map [])]

end Example

end Solvan.Relay.Redaction
