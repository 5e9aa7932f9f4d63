import Solvan.Alerts.Cursor
import Solvan.Alerts.Ingress
import Solvan.Base.Cut
import Solvan.Base.Words

/-! The strings that alerts are asked for by, and which exceptions leave their readers. -/
namespace Solvan.Alerts.Requests
open Base
open Ingress (Text text Value LoadError)

inductive Raised where
  | alertFilterError
  /-- A `ValueError` that is no `AlertFilterError` -/
  | valueError
  | typeError
  | overflowError
  | recursionError
deriving DecidableEq, Repr

/-- What `json.loads` raises: errors of its own, or that of the hook. -/
inductive LoadRaised where
  | load (error : LoadError)
  | hook

/-- What `rfc8785.dumps` raises. Those of its own are `ValueError`s. -/
inductive CanonicalError where
  | canonicalizationError | recursionError

/-- What `int` raises on floats. -/
inductive IntError where
  | valueError | overflowError

mutual

/-- Whether every float in a value is some kind of float. -/
def allFloats {Double : Type} (kind : Double → Bool) : Value Double → Bool
  | .float x => kind x
  | .arr items => allFloatsItems kind items
  | .obj fields => allFloatsFields kind fields
  | .null | .bool _ | .int _ | .str _ => true

def allFloatsItems {Double : Type} (kind : Double → Bool) : List (Value Double) → Bool
  | [] => true
  | v :: vs => allFloats kind v && allFloatsItems kind vs

def allFloatsFields {Double : Type} (kind : Double → Bool) : List (Text × Value Double) → Bool
  | [] => true
  | f :: fs => allFloatsField kind f && allFloatsFields kind fs

def allFloatsField {Double : Type} (kind : Double → Bool) : Text × Value Double → Bool
  | (_, v) => allFloats kind v

end

/-- What stands for an object of some pairs, or none where it raises. -/
abbrev Hook (Double : Type) := List (Text × Value Double) → Option (List (Text × Value Double))

/-- The standard library and canonical JSON, on numbers and texts. -/
structure Library where
  Double : Type
  loads : Hook Double → List UInt8 → Except LoadRaised (Value Double)
  /-- `rfc8785.dumps` -/
  canonical : Value Double → Except CanonicalError (List UInt8)
  /-- The float of a decimal text -/
  double : Decimal → Double
  finite : Double → Bool
  /-- It writes no NaN and no infinity. -/
  canonical_finite : ∀ value bytes, canonical value = .ok bytes → allFloats finite value = true
  /-- `int` of a float -/
  truncate : Double → Except IntError Int
  truncate_finite : ∀ x, finite x = true → ∃ n, truncate x = .ok n
  equalInt : Double → Int → Bool
  /-- `int` of a text, or none where it raises `ValueError` -/
  intText : Text → Option Int
  /-- `str`, or none where it raises `ValueError` -/
  str : Value Double → Option Text
  /-- `datetime.fromisoformat`, or none where it raises `ValueError` -/
  fromisoformat : Text → Option Datetime
  space : Nat → Bool
  /-- `\w` -/
  word : Nat → Bool
  /-- `casefold` of a character -/
  fold : Nat → List Nat
  /-- `hashlib.sha256(…).hexdigest()` -/
  sha256 : List UInt8 → Text
  /-- `hmac.digest(key, …, "sha256")` -/
  hmac : List UInt8 → List UInt8 → List UInt8

def refuse {α : Type} : Except Raised α := .error .alertFilterError

/-- `if not condition: raise AlertFilterError("INVALID_ALERT_FILTER")` -/
def require (condition : Bool) : Except Raised Unit := if condition then .ok () else refuse

/-- A text without lone surrogates. -/
def asString (t : Text) : String := String.ofList (t.map Char.ofNat)

/-- The string that a text is, or none for lone surrogates. -/
def stringOf (t : Text) : Option String :=
  if t.all (fun c => decide (c.isValidChar)) then some (asString t) else none

/-- `encode()`, or none where it raises `UnicodeEncodeError` -/
def encodeText (t : Text) : Option (List UInt8) := (stringOf t).map Json.utf8

/-- `_b64_decode` -/
def b64DecodeText (value : Text) : Except Raised (List UInt8) :=
  if value.all (fun c => decide (c < 128)) then
    match b64Decode (value.map Char.ofNat) with
    | some bytes => .ok bytes
    | none => refuse
  else refuse

/-- `_closed_object` -/
def closedObject {Double : Type} : Hook Double := fun pairs =>
  if (pairs.map Prod.fst).Nodup then some pairs else none

/-- What `json.loads` makes of pairs where no hook is given. -/
def openObject {Double : Type} : Hook Double := fun pairs => some (Keyed.dict Prod.fst pairs)

def isSafeFilterChar (c : Nat) : Bool :=
  decide (48 ≤ c ∧ c ≤ 57 ∨ 65 ≤ c ∧ c ≤ 90 ∨ 97 ≤ c ∧ c ≤ 122) || (text "_.:/@+-").contains c

/-- `_SAFE_FILTER_VALUE` -/
def safeFilterValue (t : Text) : Option String :=
  if 1 ≤ t.length ∧ t.length ≤ 256 ∧ t.all isSafeFilterChar then some (asString t) else none

/-- The member of a closed list that has some text. -/
def labelled {α : Type} (all : List α) (label : α → String) (t : Text) : Option α :=
  all.find? (fun a => text (label a) == t)

/-- The keys of a filter. -/
def filterKeys : List String :=
  ["schema_version", "view", "episode_state", "source_provider", "connection_id", "department", "target_key",
    "severity", "policy_key", "mode", "provider_state", "disposition", "incident_link", "source_time_from",
    "source_time_to", "query", "limit"]

section Readers

variable (lib : Library)

abbrev Item := Value lib.Double

abbrev Fields := List (Text × Item lib)

/-- `_SAFE_QUERY` -/
def safeQuery (t : Text) : Bool :=
  decide (1 ≤ t.length ∧ t.length ≤ 128) && t.all (fun c => lib.word c || (text " .:@/+-").contains c)

/-- `" ".join(query.split()).casefold()` -/
def normalizeQuery (t : Text) : Text := (Words.unwords ' '.toNat (Words.words lib.space t)).flatMap lib.fold

/-- `json.loads` with the errors that are caught -/
def load (hook : Hook lib.Double) (bytes : List UInt8) : Except Raised (Item lib) :=
  match lib.loads hook bytes with
  | .ok value => .ok value
  | .error (.load .jsonDecodeError) | .error (.load .unicodeDecodeError) => refuse
  | .error .hook => refuse
  | .error (.load .valueError) => .error .valueError
  | .error (.load .recursionError) => .error .recursionError

def dumps (value : Item lib) : Except Raised (List UInt8) :=
  match lib.canonical value with
  | .ok bytes => .ok bytes
  | .error .canonicalizationError => .error .valueError
  | .error .recursionError => .error .recursionError

/-- `raw.get(key, default)` -/
def get (fields : Fields lib) (key : String) (default : Item lib) : Item lib := (fields.lookup (text key)).getD default

/-- `value == n` -/
def equalsInt (value : Item lib) (n : Int) : Bool :=
  match value with
  | .int m => m == n
  | .bool b => (if b then 1 else 0) == n
  | .float x => lib.equalInt x n
  | .null | .str _ | .arr _ | .obj _ => false

/-- `value == s` -/
def equalsText (value : Item lib) (s : Text) : Bool :=
  match value with
  | .str t => t == s
  | _ => false

/-- `value in all`, which needs a value that has a hash. -/
def member {α : Type} (all : List α) (label : α → String) (value : Item lib) : Except Raised α :=
  match value with
  | .arr _ | .obj _ => .error .typeError
  | .str t =>
    match labelled all label t with
    | some a => .ok a
    | none => refuse
  | .null | .bool _ | .int _ | .float _ => refuse

def limitOf (value : Item lib) : Except Raised {n : Nat // 1 ≤ n ∧ n ≤ 100} :=
  match value with
  | .int n => if h : 1 ≤ n ∧ n ≤ 100 then .ok ⟨n.toNat, by omega⟩ else refuse
  | _ => refuse

def queryOf (value : Item lib) : Except Raised (Option String) :=
  match value with
  | .null => .ok none
  | .str t => if safeQuery lib (normalizeQuery lib t) then .ok (some (asString (normalizeQuery lib t))) else refuse
  | _ => refuse

/-- `_utc` -/
def utcOf (value : Item lib) : Except Raised (Option Datetime) :=
  match value with
  | .null => .ok none
  | .str t =>
    if t.getLast? ≠ some 'Z'.toNat then refuse
    else
      match lib.fromisoformat (t.dropLast ++ text "+00:00") with
      | none => refuse
      | some parsed => if parsed.utcoffset ≠ some 0 then refuse else .ok (some parsed)
  | _ => refuse

/-- A text with characters -/
def fullText (value : Item lib) : Option Text :=
  match value with
  | .str t => if t.isEmpty then none else some t
  | _ => none

/-- `_closed_strings`, of texts that are each accepted as something. -/
def closedStrings {α : Type} (accept : Text → Option α) (label : α → String) (value : Item lib) :
    Except Raised (List α) :=
  match value with
  | .null => .ok []
  | .arr items =>
    match items.mapM (fullText lib) with
    | none => refuse
    | some texts =>
      if 100 < texts.length ∨ ¬texts.Nodup then refuse
      else
        match texts.mapM accept with
        | none => refuse
        | some accepted => .ok (accepted.insertionSort (fun a b => label a ≤ label b))
  | _ => refuse

/-- `start is not None and end is not None and start >= end` -/
def reversed (start finish : Option Datetime) : Bool :=
  match start, finish with
  | some start, some finish => decide (finish.instant ≤ start.instant)
  | _, _ => false

def View.every : List View := [.active, .needsReview, .investigating, .all]
def LinkFilter.every : List LinkFilter := [.any, .linked, .unlinked]
def EpisodeState.every : List EpisodeState :=
  [.opened, .waiting, .triaging, .triaged, .suppressed, .blocked, .escalated, .attached, .providerReportedCleared,
    .expired]
def ProviderKind.every : List ProviderKind := [.cloudMonitoring]
def Severity.every : List Severity := [.sev1, .sev2, .sev3, .sev4]
def Mode.every : List Mode := [.triage, .policyEscalated, .fullIncident]
def ProviderState.every : List ProviderState := [.opened, .closed]
def DispositionKind.every : List DispositionKind :=
  [.suppressed, .triagedHold, .escalatedNew, .escalatedAttached, .manualReview, .blocked]

/-- A list of free texts -/
def freeStrings (value : Item lib) : Except Raised (List String) := closedStrings lib safeFilterValue id value

/-- A list of words from a closed one -/
def closedWords {α : Type} (all : List α) (label : α → String) (value : Item lib) : Except Raised (List α) :=
  closedStrings lib (labelled all label) label value

/-- The filter of an object whose keys are those of one. -/
def readFilter (raw : Fields lib) : Except Raised AlertListFilter := do
  require (equalsInt lib (get lib raw "schema_version" (.int 1)) 1)
  let view ← member lib View.every View.label (get lib raw "view" (.str (text "ACTIVE")))
  let incidentLink ← member lib LinkFilter.every LinkFilter.label (get lib raw "incident_link" (.str (text "ANY")))
  let limit ← limitOf lib (get lib raw "limit" (.int 50))
  let query ← queryOf lib (get lib raw "query" .null)
  let start ← utcOf lib (get lib raw "source_time_from" .null)
  let finish ← utcOf lib (get lib raw "source_time_to" .null)
  require (!reversed start finish)
  let episodeState ← closedWords lib EpisodeState.every EpisodeState.label (get lib raw "episode_state" .null)
  let sourceProvider ← closedWords lib ProviderKind.every ProviderKind.label (get lib raw "source_provider" .null)
  let connectionId ← freeStrings lib (get lib raw "connection_id" .null)
  let department ← freeStrings lib (get lib raw "department" .null)
  let targetKey ← freeStrings lib (get lib raw "target_key" .null)
  let severity ← closedWords lib Severity.every Severity.label (get lib raw "severity" .null)
  let policyKey ← freeStrings lib (get lib raw "policy_key" .null)
  let mode ← closedWords lib Mode.every Mode.label (get lib raw "mode" .null)
  let providerState ← closedWords lib ProviderState.every ProviderState.label (get lib raw "provider_state" .null)
  let disposition ← closedWords lib DispositionKind.every DispositionKind.label (get lib raw "disposition" .null)
  return {
    view := view
    episodeState := episodeState
    sourceProvider := sourceProvider
    connectionId := connectionId
    department := department
    targetKey := targetKey
    severity := severity
    policyKey := policyKey
    mode := mode
    providerState := providerState
    disposition := disposition
    incidentLink := incidentLink
    sourceTimeFrom := start
    sourceTimeTo := finish
    query := query
    limit := limit.val
    bounded := limit.property }

/-- The document of a filter, once it was decoded. -/
def readDocument (decoded : List UInt8) (raw : Item lib) : Except Raised AlertListFilter :=
  match raw with
  | .obj fields => do
    require (fields.all (fun field => (filterKeys.map text).contains field.1))
    let canonical ← dumps lib raw
    require (decoded == canonical)
    readFilter lib fields
  | _ => refuse

/-- `from_encoded` -/
def fromEncoded (value : Option Text) : Except Raised AlertListFilter :=
  match value with
  | none => .ok (.ofView .active 50 (by decide))
  | some value => do
    let decoded ← b64DecodeText value
    let raw ← load lib closedObject decoded
    readDocument lib decoded raw

/-- `int(value)`, with the errors that are caught. -/
def intOf (value : Item lib) : Except Raised Int :=
  match value with
  | .int n => .ok n
  | .bool b => .ok (if b then 1 else 0)
  | .float x =>
    match lib.truncate x with
    | .ok n => .ok n
    | .error .valueError => refuse
    | .error .overflowError => .error .overflowError
  | .str t =>
    match lib.intText t with
    | some n => .ok n
    | none => refuse
  | .null | .arr _ | .obj _ => refuse

/-- `str(value)`, with the error that is caught. -/
def strOf (value : Item lib) : Except Raised Text :=
  match lib.str value with
  | some t => .ok t
  | none => refuse

def isBool (value : Item lib) : Bool := value matches .bool _

/-- `_SAFE_EPISODE_ID`, of a text that may be no `String`. -/
def safeEpisodeText (t : Text) : Bool := t.all (fun c => decide (c < 128)) && safeEpisodeId (asString t)

/-- The position that a payload was signed with. -/
def readPosition (position : Item lib) : Except Raised AlertCursorPosition :=
  match position with
  | .arr [rank, attention, seen, id] => do
    match ← utcOf lib seen with
    | none => refuse
    | some lastSeenAt => do
      let severityRank ← intOf lib rank
      let attentionRank ← intOf lib attention
      let episodeId ← strOf lib id
      require (!(isBool lib rank || isBool lib attention || !([1, 2, 3, 4].contains severityRank) ||
        !([0, 1].contains attentionRank) || !safeEpisodeText episodeId))
      return ⟨severityRank, attentionRank, lastSeenAt, asString episodeId⟩
  | _ => refuse

/-- What a cursor is bound to. -/
structure Binding where
  filterDigest : Text
  principal : Text
  scope : Scope
  placementEpoch : Int
  policyEpoch : Int
  membershipEpoch : Int

/-- What a cursor must hold: texts and numbers, by their keys. -/
abbrev Expected := List (String × (Text ⊕ Int))

/-- `canonical_dict` of a scope -/
def scopeItem (scope : Scope) : Item lib :=
  .obj [(text "environment_id", .str (text scope.environmentId)),
    (text "organization_id", .str (text scope.organizationId)), (text "project_id", .str (text scope.projectId))]

/-- `_payload` without a position -/
def expectedPayload (b : Binding) : Except Raised Expected := do
  let principal ← match encodeText b.principal with
    | some bytes => .ok bytes
    | none => .error .valueError
  let scope ← dumps lib (scopeItem lib b.scope)
  return [("schema_version", .inr 1), ("filter_digest", .inl b.filterDigest),
    ("principal_hash", .inl (text "sha256:" ++ lib.sha256 principal)),
    ("scope_hash", .inl (text "sha256:" ++ lib.sha256 scope)), ("placement_epoch", .inr b.placementEpoch),
    ("policy_epoch", .inr b.policyEpoch), ("membership_epoch", .inr b.membershipEpoch)]

/-- `payload.get(key) == item` -/
def holds (payload : Fields lib) (field : String × (Text ⊕ Int)) : Bool :=
  match field.2 with
  | .inl s => equalsText lib (get lib payload field.1 .null) s
  | .inr n => equalsInt lib (get lib payload field.1 .null) n

/-- The keys of a cursor. -/
def cursorKeys : List String :=
  ["schema_version", "filter_digest", "principal_hash", "scope_hash", "placement_epoch", "policy_epoch",
    "membership_epoch", "position"]

/-- `set(payload) == {*expected, "position"}` -/
def hasCursorKeys (payload : Fields lib) : Bool :=
  payload.all (fun field => (cursorKeys.map text).contains field.1) &&
    cursorKeys.all (fun key => (payload.map Prod.fst).contains (text key))

/-- The checks of a payload that was signed. -/
def readPayload (body : List UInt8) (payload : Item lib) (expected : Expected) : Except Raised AlertCursorPosition :=
  match payload with
  | .obj fields => do
    require (hasCursorKeys lib fields)
    let canonical ← dumps lib payload
    require (body == canonical)
    require (expected.all (holds lib fields))
    readPosition lib (get lib fields "position" .null)
  | _ => refuse

/-- What was signed, of a token whose signature is right. -/
def readBody (body : List UInt8) (b : Binding) : Except Raised AlertCursorPosition := do
  let payload ← load lib openObject body
  let expected ← expectedPayload lib b
  readPayload lib body payload expected

/-- `decode` -/
def decode (signingKey : List UInt8) (value : Option Text) (b : Binding) :
    Except Raised (Option AlertCursorPosition) :=
  match value with
  | none => .ok none
  | some token =>
    match token.span (· != '.'.toNat) with
    | (_, []) => refuse
    | (head, _ :: tail) => do
      let body ← b64DecodeText head
      let signature ← b64DecodeText tail
      require (signature == lib.hmac signingKey body)
      let position ← readBody lib body b
      return some position

end Readers

/-- A value or an `AlertFilterError`, and nothing else. -/
abbrev Closed {α : Type} (x : Except Raised α) : Prop := Checks.Only (· = .alertFilterError) x

section Conditions

variable (lib : Library)

/-- JSON that is loaded, or refused by the errors that are caught: no integer has too many digits, and no list is
nested too deep. -/
def Loadable (hook : Hook lib.Double) (bytes : List UInt8) : Prop :=
  lib.loads hook bytes ≠ .error (.load .valueError) ∧ lib.loads hook bytes ≠ .error (.load .recursionError)

/-- A value that has canonical JSON: its integers and floats are those of a double, and its texts have no lone
surrogates. -/
def Writable (value : Item lib) : Prop := ∃ bytes, lib.canonical value = .ok bytes

/-- Neither a list nor an object. -/
def hasHash (value : Item lib) : Bool :=
  match value with
  | .arr _ | .obj _ => false
  | .null | .bool _ | .int _ | .float _ | .str _ => true

/-- A known view. -/
def isView (value : Item lib) : Bool := (member lib View.every View.label value).toBool

/-- A view and a link that have hashes, as far as they are looked at. -/
def Comparable (fields : Fields lib) : Prop :=
  equalsInt lib (get lib fields "schema_version" (.int 1)) 1 = true →
    hasHash lib (get lib fields "view" (.str (text "ACTIVE"))) = true ∧
      (isView lib (get lib fields "view" (.str (text "ACTIVE"))) = true →
        hasHash lib (get lib fields "incident_link" (.str (text "ANY"))) = true)

/-- A filter whose reading raises nothing but a refusal. -/
def Answerable (value : Text) : Prop :=
  ∀ decoded, b64DecodeText value = .ok decoded → Loadable lib closedObject decoded ∧
    ∀ fields, lib.loads closedObject decoded = .ok (.obj fields) →
      (∀ field ∈ fields, field.1 ∈ filterKeys.map text) → Writable lib (.obj fields) ∧
        (lib.canonical (.obj fields) = .ok decoded → Comparable lib fields)

/-- What was signed, of a token whose signature is right. -/
def Signed (signingKey : List UInt8) (value : Text) (body : List UInt8) : Prop :=
  ∃ head tail signature, value = head ++ '.'.toNat :: tail ∧ '.'.toNat ∉ head ∧ b64DecodeText head = .ok body ∧
    b64DecodeText tail = .ok signature ∧ signature = lib.hmac signingKey body

/-- A token whose reading raises nothing but a refusal. -/
def AnswerableToken (signingKey : List UInt8) (value : Text) (b : Binding) : Prop :=
  ∀ body, Signed lib signingKey value body → Loadable lib openObject body ∧
    ∀ payload, lib.loads openObject body = .ok payload →
      (encodeText b.principal).isSome = true ∧ Writable lib (scopeItem lib b.scope) ∧
        ∀ fields, payload = .obj fields → hasCursorKeys lib fields = true → Writable lib payload

end Conditions

section Closed

variable {lib : Library} {α : Type} {value : Item lib} {fields : Fields lib} {bytes : List UInt8} {t : Text}

theorem closed_refuse : Closed (refuse : Except Raised α) := Checks.only_error.mpr rfl

theorem closed_require {condition : Bool} : Closed (require condition) := by
  cases condition with
  | false => exact closed_refuse
  | true => exact Checks.only_ok

theorem require_ok {condition : Bool} {u : Unit} : require condition = .ok u ↔ condition = true := by
  cases condition with
  | false => exact ⟨nofun, nofun⟩
  | true => exact ⟨fun _ => rfl, fun _ => rfl⟩

theorem closed_b64DecodeText : Closed (b64DecodeText t) := by
  unfold b64DecodeText
  split
  · split
    · exact Checks.only_ok
    · exact closed_refuse
  · exact closed_refuse

theorem closed_load {hook : Hook lib.Double} : Closed (load lib hook bytes) ↔ Loadable lib hook bytes := by
  unfold load Loadable
  cases lib.loads hook bytes with
  | ok value => exact ⟨fun _ => ⟨nofun, nofun⟩, fun _ => Checks.only_ok⟩
  | error raised =>
    cases raised with
    | hook => exact ⟨fun _ => ⟨nofun, nofun⟩, fun _ => closed_refuse⟩
    | load e =>
      cases e with
      | jsonDecodeError | unicodeDecodeError => exact ⟨fun _ => ⟨nofun, nofun⟩, fun _ => closed_refuse⟩
      | valueError => exact ⟨fun h => (nomatch Checks.only_error.mp h), fun h => absurd rfl h.1⟩
      | recursionError => exact ⟨fun h => (nomatch Checks.only_error.mp h), fun h => absurd rfl h.2⟩

theorem load_ok {hook : Hook lib.Double} : load lib hook bytes = .ok value ↔ lib.loads hook bytes = .ok value := by
  unfold load
  cases lib.loads hook bytes with
  | ok value => exact ⟨fun h => congrArg _ (Except.ok.inj h), fun h => congrArg _ (Except.ok.inj h)⟩
  | error raised =>
    cases raised with
    | hook => exact ⟨nofun, nofun⟩
    | load e => cases e <;> exact ⟨fun h => (nomatch h), fun h => (nomatch h)⟩

theorem closed_dumps : Closed (dumps lib value) ↔ Writable lib value := by
  unfold dumps Writable
  cases lib.canonical value with
  | ok bytes => exact ⟨fun _ => ⟨bytes, rfl⟩, fun _ => Checks.only_ok⟩
  | error raised => cases raised <;> exact ⟨fun h => (nomatch Checks.only_error.mp h), fun ⟨_, h⟩ => (nomatch h)⟩

theorem dumps_ok : dumps lib value = .ok bytes ↔ lib.canonical value = .ok bytes := by
  unfold dumps
  cases lib.canonical value with
  | ok bytes => exact ⟨fun h => congrArg _ (Except.ok.inj h), fun h => congrArg _ (Except.ok.inj h)⟩
  | error raised => cases raised <;> exact ⟨fun h => (nomatch h), fun h => (nomatch h)⟩

theorem closed_member {all : List α} {label : α → String} :
    Closed (member lib all label value) ↔ hasHash lib value = true := by
  cases value with
  | arr | obj => exact ⟨fun h => (nomatch Checks.only_error.mp h), nofun⟩
  | null | bool | int | float => exact ⟨fun _ => rfl, fun _ => closed_refuse⟩
  | str t =>
    refine ⟨fun _ => rfl, fun _ => ?_⟩
    unfold member
    dsimp only
    split
    · exact Checks.only_ok
    · exact closed_refuse

theorem closed_limitOf : Closed (limitOf lib value) := by
  cases value with
  | int n =>
    unfold limitOf
    dsimp only
    split
    · exact Checks.only_ok
    · exact closed_refuse
  | null | bool | float | str | arr | obj => exact closed_refuse

theorem closed_queryOf : Closed (queryOf lib value) := by
  cases value with
  | null => exact Checks.only_ok
  | str t =>
    unfold queryOf
    dsimp only
    split
    · exact Checks.only_ok
    · exact closed_refuse
  | bool | int | float | arr | obj => exact closed_refuse

theorem closed_utcOf : Closed (utcOf lib value) := by
  cases value with
  | null => exact Checks.only_ok
  | str t =>
    unfold utcOf
    dsimp only
    split
    · exact closed_refuse
    · split
      · exact closed_refuse
      · split
        · exact closed_refuse
        · exact Checks.only_ok
  | bool | int | float | arr | obj => exact closed_refuse

theorem closed_closedStrings {accept : Text → Option α} {label : α → String} :
    Closed (closedStrings lib accept label value) := by
  cases value with
  | null => exact Checks.only_ok
  | arr items =>
    unfold closedStrings
    dsimp only
    split
    · exact closed_refuse
    · split
      · exact closed_refuse
      · split
        · exact closed_refuse
        · exact Checks.only_ok
  | bool | int | float | str | obj => exact closed_refuse

/-- Past the view and the link, nothing but refusals leaves the reader of a filter. -/
theorem closed_readFilter : Closed (readFilter lib fields) ↔ Comparable lib fields := by
  constructor
  · intro h hone
    obtain ⟨-, hrest⟩ := Checks.only_bind.mp h
    obtain ⟨hview, hrest⟩ := Checks.only_bind.mp (hrest () (require_ok.mpr hone))
    refine ⟨closed_member.mp hview, fun hknown => ?_⟩
    unfold isView at hknown
    cases hmember : member lib View.every View.label (get lib fields "view" (.str (text "ACTIVE"))) with
    | error e =>
      rw [hmember] at hknown
      cases hknown
    | ok view => exact closed_member.mp (Checks.only_bind.mp (hrest view hmember)).1
  · intro h
    refine Checks.only_bind.mpr ⟨closed_require, fun _ hone => ?_⟩
    obtain ⟨hview, hlink⟩ := h (require_ok.mp hone)
    refine Checks.only_bind.mpr ⟨closed_member.mpr hview, fun view hmember => ?_⟩
    refine Checks.only_bind.mpr ⟨closed_member.mpr (hlink (by rw [isView, hmember]; rfl)), fun _ _ => ?_⟩
    refine Checks.only_bind.mpr ⟨closed_limitOf, fun _ _ => ?_⟩
    refine Checks.only_bind.mpr ⟨closed_queryOf, fun _ _ => ?_⟩
    refine Checks.only_bind.mpr ⟨closed_utcOf, fun _ _ => ?_⟩
    refine Checks.only_bind.mpr ⟨closed_utcOf, fun _ _ => ?_⟩
    refine Checks.only_bind.mpr ⟨closed_require, fun _ _ => ?_⟩
    refine Checks.only_bind.mpr ⟨closed_closedStrings, fun _ _ => ?_⟩
    refine Checks.only_bind.mpr ⟨closed_closedStrings, fun _ _ => ?_⟩
    refine Checks.only_bind.mpr ⟨closed_closedStrings, fun _ _ => ?_⟩
    refine Checks.only_bind.mpr ⟨closed_closedStrings, fun _ _ => ?_⟩
    refine Checks.only_bind.mpr ⟨closed_closedStrings, fun _ _ => ?_⟩
    refine Checks.only_bind.mpr ⟨closed_closedStrings, fun _ _ => ?_⟩
    refine Checks.only_bind.mpr ⟨closed_closedStrings, fun _ _ => ?_⟩
    refine Checks.only_bind.mpr ⟨closed_closedStrings, fun _ _ => ?_⟩
    refine Checks.only_bind.mpr ⟨closed_closedStrings, fun _ _ => ?_⟩
    exact Checks.only_bind.mpr ⟨closed_closedStrings, fun _ _ => Checks.only_ok⟩

/-- What a document needs to be read without anything but refusals. -/
theorem closed_readDocument : Closed (readDocument lib bytes value) ↔ ∀ fields, value = .obj fields →
    (∀ field ∈ fields, field.1 ∈ filterKeys.map text) → Writable lib (.obj fields) ∧
      (lib.canonical (.obj fields) = .ok bytes → Comparable lib fields) := by
  cases value with
  | obj fields =>
    have hkeys : fields.all (fun field => (filterKeys.map text).contains field.1) = true ↔
        ∀ field ∈ fields, field.1 ∈ filterKeys.map text := by
      simp only [List.all_eq_true, List.contains_iff_mem]
    constructor
    · intro h fields' heq hclosed
      injection heq with heq
      subst heq
      obtain ⟨-, hrest⟩ := Checks.only_bind.mp h
      obtain ⟨hdumps, hrest⟩ := Checks.only_bind.mp (hrest () (require_ok.mpr (hkeys.mpr hclosed)))
      refine ⟨closed_dumps.mp hdumps, fun hsame => ?_⟩
      obtain ⟨-, hrest⟩ := Checks.only_bind.mp (hrest bytes (dumps_ok.mpr hsame))
      exact closed_readFilter.mp (hrest () (require_ok.mpr (beq_self_eq_true bytes)))
    · intro h
      refine Checks.only_bind.mpr ⟨closed_require, fun _ hclosed => ?_⟩
      obtain ⟨hwritable, hsame⟩ := h fields rfl (hkeys.mp (require_ok.mp hclosed))
      refine Checks.only_bind.mpr ⟨closed_dumps.mpr hwritable, fun canonical hcanonical => ?_⟩
      refine Checks.only_bind.mpr ⟨closed_require, fun _ hequal => closed_readFilter.mpr (hsame ?_)⟩
      rw [beq_iff_eq.mp (require_ok.mp hequal)]
      exact dumps_ok.mp hcanonical
  | null | bool | int | float | str | arr => exact ⟨fun _ _ h => (nomatch h), fun _ => closed_refuse⟩

/-- The filters whose reading raises nothing but a refusal. -/
theorem closed_fromEncoded : Closed (fromEncoded lib (some t)) ↔ Answerable lib t := by
  constructor
  · intro h decoded hdecoded
    obtain ⟨-, hrest⟩ := Checks.only_bind.mp h
    obtain ⟨hload, hrest⟩ := Checks.only_bind.mp (hrest decoded hdecoded)
    exact ⟨closed_load.mp hload, fun fields hfields =>
      closed_readDocument.mp (hrest (.obj fields) (load_ok.mpr hfields)) fields rfl⟩
  · intro h
    refine Checks.only_bind.mpr ⟨closed_b64DecodeText, fun decoded hdecoded => ?_⟩
    obtain ⟨hload, hobject⟩ := h decoded hdecoded
    refine Checks.only_bind.mpr ⟨closed_load.mpr hload, fun raw hraw => closed_readDocument.mpr ?_⟩
    rintro fields rfl
    exact hobject fields (load_ok.mp hraw)

theorem closed_strOf : Closed (strOf lib value) := by
  unfold strOf
  split
  · exact Checks.only_ok
  · exact closed_refuse

/-- A finite float is converted. -/
theorem closed_intOf (h : allFloats lib.finite value = true) : Closed (intOf lib value) := by
  cases value with
  | float x =>
    obtain ⟨n, hn⟩ := lib.truncate_finite x h
    unfold intOf
    simp only [hn]
    exact Checks.only_ok
  | str t =>
    unfold intOf
    dsimp only
    split
    · exact Checks.only_ok
    · exact closed_refuse
  | int | bool => exact Checks.only_ok
  | null | arr | obj => exact closed_refuse

theorem allFloats_mem {kind : lib.Double → Bool} {items : List (Item lib)}
    (h : allFloats kind (.arr items) = true) : ∀ item ∈ items, allFloats kind item = true := by
  have hall : ∀ items : List (Item lib), allFloatsItems kind items = true → ∀ item ∈ items, allFloats kind item = true := by
    intro items
    induction items with
    | nil => exact fun _ item hitem => nomatch hitem
    | cons item items ih =>
      intro h
      obtain ⟨hitem, hitems⟩ := Bool.and_eq_true_iff.mp h
      exact List.forall_mem_cons.mpr ⟨hitem, ih hitems⟩
  exact hall items h

theorem allFloats_get {kind : lib.Double → Bool} {key : String} (h : allFloats kind (.obj fields) = true) :
    allFloats kind (get lib fields key .null) = true := by
  have hall : ∀ fields : Fields lib, allFloatsFields kind fields = true →
      allFloats kind (get lib fields key .null) = true := by
    intro fields
    induction fields with
    | nil => exact fun _ => rfl
    | cons field fields ih =>
      intro h
      obtain ⟨k, v⟩ := field
      obtain ⟨hfield, hfields⟩ := Bool.and_eq_true_iff.mp h
      have hrest := ih hfields
      unfold get at hrest ⊢
      rw [List.lookup_cons]
      split
      · exact hfield
      · exact hrest
  exact hall fields h

/-- Nothing but refusals leaves the reader of a position without infinite floats. -/
theorem closed_readPosition (h : allFloats lib.finite value = true) : Closed (readPosition lib value) := by
  unfold readPosition
  split
  · rename_i rank attention seen id
    have hall := allFloats_mem h
    refine Checks.only_bind.mpr ⟨closed_utcOf, fun moment _ => ?_⟩
    cases moment with
    | none => exact closed_refuse
    | some lastSeenAt =>
      refine Checks.only_bind.mpr ⟨closed_intOf (hall rank (by simp)), fun _ _ => ?_⟩
      refine Checks.only_bind.mpr ⟨closed_intOf (hall attention (by simp)), fun _ _ => ?_⟩
      refine Checks.only_bind.mpr ⟨closed_strOf, fun _ _ => ?_⟩
      exact Checks.only_bind.mpr ⟨closed_require, fun _ _ => Checks.only_ok⟩
  · exact closed_refuse

/-- A payload with the keys of a cursor needs a canonical form. -/
theorem closed_readPayload {expected : Expected} : Closed (readPayload lib bytes value expected) ↔
    ∀ fields, value = .obj fields → hasCursorKeys lib fields = true → Writable lib value := by
  cases value with
  | obj fields =>
    constructor
    · intro h fields' heq hkeys
      injection heq with heq
      subst heq
      obtain ⟨-, hrest⟩ := Checks.only_bind.mp h
      exact closed_dumps.mp (Checks.only_bind.mp (hrest () (require_ok.mpr hkeys))).1
    · intro h
      refine Checks.only_bind.mpr ⟨closed_require, fun _ hkeys => ?_⟩
      have hwritable := h fields rfl (require_ok.mp hkeys)
      refine Checks.only_bind.mpr ⟨closed_dumps.mpr hwritable, fun canonical hcanonical => ?_⟩
      refine Checks.only_bind.mpr ⟨closed_require, fun _ _ => ?_⟩
      refine Checks.only_bind.mpr ⟨closed_require, fun _ _ => closed_readPosition (allFloats_get ?_)⟩
      exact lib.canonical_finite _ _ (dumps_ok.mp hcanonical)
  | null | bool | int | float | str | arr => exact ⟨fun _ _ h => (nomatch h), fun _ => closed_refuse⟩

theorem closed_expectedPayload {b : Binding} : Closed (expectedPayload lib b) ↔
    (encodeText b.principal).isSome = true ∧ Writable lib (scopeItem lib b.scope) := by
  unfold expectedPayload
  cases encodeText b.principal with
  | none => exact ⟨fun h => (nomatch Checks.only_error.mp (Checks.only_bind.mp h).1), fun h => (nomatch h.1)⟩
  | some bytes =>
    constructor
    · intro h
      exact ⟨rfl, closed_dumps.mp (Checks.only_bind.mp ((Checks.only_bind.mp h).2 bytes rfl)).1⟩
    · rintro ⟨-, hscope⟩
      refine Checks.only_bind.mpr ⟨Checks.only_ok, fun _ _ => ?_⟩
      exact Checks.only_bind.mpr ⟨closed_dumps.mpr hscope, fun _ _ => Checks.only_ok⟩

theorem expectedPayload_some {b : Binding} (hprincipal : (encodeText b.principal).isSome = true)
    (hscope : Writable lib (scopeItem lib b.scope)) : ∃ expected, expectedPayload lib b = .ok expected := by
  obtain ⟨principal, hencoded⟩ := Option.isSome_iff_exists.mp hprincipal
  obtain ⟨scope, hcanonical⟩ := hscope
  unfold expectedPayload
  rw [hencoded]
  exact ⟨_, Checks.bind_ok.mpr ⟨principal, rfl, Checks.bind_ok.mpr ⟨scope, dumps_ok.mpr hcanonical, rfl⟩⟩⟩

theorem closed_readBody {b : Binding} : Closed (readBody lib bytes b) ↔ Loadable lib openObject bytes ∧
    ∀ payload, lib.loads openObject bytes = .ok payload →
      (encodeText b.principal).isSome = true ∧ Writable lib (scopeItem lib b.scope) ∧
        ∀ fields, payload = .obj fields → hasCursorKeys lib fields = true → Writable lib payload := by
  constructor
  · intro h
    obtain ⟨hload, hrest⟩ := Checks.only_bind.mp h
    refine ⟨closed_load.mp hload, fun payload hpayload => ?_⟩
    obtain ⟨hexpected, hrest⟩ := Checks.only_bind.mp (hrest payload (load_ok.mpr hpayload))
    obtain ⟨hprincipal, hscope⟩ := closed_expectedPayload.mp hexpected
    obtain ⟨expected, hok⟩ := expectedPayload_some hprincipal hscope
    exact ⟨hprincipal, hscope, closed_readPayload.mp (hrest expected hok)⟩
  · rintro ⟨hload, hpayload⟩
    refine Checks.only_bind.mpr ⟨closed_load.mpr hload, fun payload hread => ?_⟩
    obtain ⟨hprincipal, hscope, hwritable⟩ := hpayload payload (load_ok.mp hread)
    refine Checks.only_bind.mpr ⟨closed_expectedPayload.mpr ⟨hprincipal, hscope⟩, fun expected _ => ?_⟩
    exact closed_readPayload.mpr hwritable

/-- The tokens whose reading raises nothing but a refusal. -/
theorem closed_decode {signingKey : List UInt8} {b : Binding} :
    Closed (decode lib signingKey (some t) b) ↔ AnswerableToken lib signingKey t b := by
  unfold decode
  dsimp only
  obtain ⟨hnone, head, hspan⟩ | ⟨head, tail, rfl, hhead, hspan⟩ := Cut.span_cases '.'.toNat t
  · rw [hspan]
    refine ⟨fun _ body hsigned => ?_, fun _ => closed_refuse⟩
    obtain ⟨head', tail, signature, rfl, -⟩ := hsigned
    exact absurd (List.mem_append_right _ List.mem_cons_self) hnone
  · rw [hspan]
    dsimp only
    constructor
    · rintro h body ⟨head', tail', signature, heq, hhead', hbody, hsignature, hsigned⟩
      obtain ⟨rfl, rfl⟩ := Cut.cut_unique heq
        ((List.count_eq_zero.mpr hhead).trans (List.count_eq_zero.mpr hhead').symm)
      obtain ⟨-, hrest⟩ := Checks.only_bind.mp h
      obtain ⟨-, hrest⟩ := Checks.only_bind.mp (hrest body hbody)
      obtain ⟨-, hrest⟩ := Checks.only_bind.mp (hrest signature hsignature)
      have hbeq : (signature == lib.hmac signingKey body) = true := beq_iff_eq.mpr hsigned
      exact closed_readBody.mp (Checks.only_bind.mp (hrest () (require_ok.mpr hbeq))).1
    · intro h
      refine Checks.only_bind.mpr ⟨closed_b64DecodeText, fun body hbody => ?_⟩
      refine Checks.only_bind.mpr ⟨closed_b64DecodeText, fun signature hsignature => ?_⟩
      refine Checks.only_bind.mpr ⟨closed_require, fun _ hsigned => ?_⟩
      refine Checks.only_bind.mpr ⟨closed_readBody.mpr (h body ?_), fun _ _ => Checks.only_ok⟩
      exact ⟨head, tail, signature, rfl, hhead, hbody, hsignature, beq_iff_eq.mp (require_ok.mp hsigned)⟩

/-- Where the readers of filters and cursors raise nothing but refusals. -/
theorem requests_closed_iff (lib : Library) (value : Text) (signingKey : List UInt8) (b : Binding) :
    (Closed (fromEncoded lib (some value)) ↔ Answerable lib value) ∧
      (Closed (decode lib signingKey (some value) b) ↔ AnswerableToken lib signingKey value b) :=
  ⟨closed_fromEncoded, closed_decode⟩

end Closed

section Example

mutual

/-- The value that JSON text stands for. -/
def ofJson {Double : Type} (double : Decimal → Double) : Json → Value Double
  | .null => .null
  | .bool b => .bool b
  | .int n => .int n
  | .float x => .float (double x)
  | .str s => .str (text s)
  | .arr items => .arr (ofItems double items)
  | .obj fields => .obj (ofFields double fields)

def ofItems {Double : Type} (double : Decimal → Double) : List Json → List (Value Double)
  | [] => []
  | j :: js => ofJson double j :: ofItems double js

def ofFields {Double : Type} (double : Decimal → Double) : List (String × Json) → List (Text × Value Double)
  | [] => []
  | f :: fs => ofField double f :: ofFields double fs

def ofField {Double : Type} (double : Decimal → Double) : String × Json → Text × Value Double
  | (k, j) => (text k, ofJson double j)

end

mutual

/-- The JSON of a value whose floats are decimals, or none for lone surrogates. -/
def toJson : Value Decimal → Option Json
  | .null => some .null
  | .bool b => some (.bool b)
  | .int n => some (.int n)
  | .float x => some (.float x)
  | .str s => (stringOf s).map .str
  | .arr items => (toItems items).map .arr
  | .obj fields => (toFields fields).map .obj

def toItems : List (Value Decimal) → Option (List Json)
  | [] => some []
  | v :: vs => (toJson v).bind fun j => (toItems vs).map (j :: ·)

def toFields : List (Text × Value Decimal) → Option (List (String × Json))
  | [] => some []
  | f :: fs => (toField f).bind fun g => (toFields fs).map (g :: ·)

def toField : Text × Value Decimal → Option (String × Json)
  | (k, v) => (stringOf k).bind fun k => (toJson v).map fun j => (k, j)

end

mutual

/-- A value with a hook called on every object, from within. -/
def hooked {Double : Type} (hook : Hook Double) : Value Double → Except LoadRaised (Value Double)
  | .arr items => (hookedItems hook items).map .arr
  | .obj fields => (hookedFields hook fields).bind fun fields =>
    match hook fields with
    | some fields => .ok (.obj fields)
    | none => .error .hook
  | .null => .ok .null
  | .bool b => .ok (.bool b)
  | .int n => .ok (.int n)
  | .float x => .ok (.float x)
  | .str s => .ok (.str s)

def hookedItems {Double : Type} (hook : Hook Double) : List (Value Double) → Except LoadRaised (List (Value Double))
  | [] => .ok []
  | v :: vs => (hooked hook v).bind fun v => (hookedItems hook vs).map (v :: ·)

def hookedFields {Double : Type} (hook : Hook Double) :
    List (Text × Value Double) → Except LoadRaised (List (Text × Value Double))
  | [] => .ok []
  | f :: fs => (hookedField hook f).bind fun f => (hookedFields hook fs).map (f :: ·)

def hookedField {Double : Type} (hook : Hook Double) : Text × Value Double → Except LoadRaised (Text × Value Double)
  | (k, v) => (hooked hook v).map (k, ·)

end

/-- The bytes of a value, where it has some. -/
def plainCanonical (value : Value Decimal) : Except CanonicalError (List UInt8) :=
  match toJson value with
  | some j => if j.plain && j.interoperable then .ok (Json.utf8 (Json.dumps j)) else .error .canonicalizationError
  | none => .error .canonicalizationError

mutual

theorem allFloats_true : (value : Value Decimal) → allFloats (fun _ => true) value = true
  | .null | .bool _ | .int _ | .float _ | .str _ => rfl
  | .arr items => allFloatsItems_true items
  | .obj fields => allFloatsFields_true fields

theorem allFloatsItems_true : (items : List (Value Decimal)) → allFloatsItems (fun _ => true) items = true
  | [] => rfl
  | v :: vs => Bool.and_eq_true_iff.mpr ⟨allFloats_true v, allFloatsItems_true vs⟩

theorem allFloatsFields_true :
    (fields : List (Text × Value Decimal)) → allFloatsFields (fun _ => true) fields = true
  | [] => rfl
  | f :: fs => Bool.and_eq_true_iff.mpr ⟨allFloatsField_true f, allFloatsFields_true fs⟩

theorem allFloatsField_true : (field : Text × Value Decimal) → allFloatsField (fun _ => true) field = true
  | (_, v) => allFloats_true v

end

/-- The part of a decimal before its point. -/
def truncated (x : Decimal) : Int :=
  let (mantissa, exponent) := x.scaled
  if 0 ≤ exponent then mantissa * 10 ^ exponent.toNat else mantissa.tdiv (10 ^ (-exponent).toNat)

/-- JSON as it is written, with a hook called on every object. -/
def plainLoads (hook : Hook Decimal) (bytes : List UInt8) : Except LoadRaised (Value Decimal) :=
  match (Json.ofUtf8 bytes).bind Json.loads with
  | some j => hooked hook (ofJson id j)
  | none => .error (.load .jsonDecodeError)

/-- Times at offset zero -/
def plainTime (t : Text) : Option Datetime := utcClock.fromisoformat (asString t)

/-- A library of decimals, for texts in ASCII and times at offset zero. -/
def plainLibrary : Library where
  Double := Decimal
  loads := plainLoads
  canonical := plainCanonical
  double := id
  finite _ := true
  canonical_finite value _ _ := allFloats_true value
  truncate x := .ok (truncated x)
  truncate_finite x _ := ⟨truncated x, rfl⟩
  equalInt x n := Json.equal (.float x) (.int n)
  intText t := Json.readInt (t.map Char.ofNat)
  str value :=
    match value with
    | .str t => some t
    | _ => none
  fromisoformat := plainTime
  space c := decide (c = 32 ∨ 9 ≤ c ∧ c ≤ 13)
  word c := decide (48 ≤ c ∧ c ≤ 57 ∨ 65 ≤ c ∧ c ≤ 90 ∨ 97 ≤ c ∧ c ≤ 122 ∨ c = 95)
  fold c := if 65 ≤ c ∧ c ≤ 90 then [c + 32] else [c]
  sha256 bytes := bytes.map UInt8.toNat
  hmac _ bytes := bytes

/-- What a reader raises, if anything. -/
def raised {α : Type} : Except Raised α → Option Raised
  | .ok _ => none
  | .error e => some e

/-- `{"view":[]}` -/
def listView : Text := text "eyJ2aWV3IjpbXX0"

theorem listView_raised : raised (fromEncoded plainLibrary (some listView)) = some .typeError := by
  decide +kernel

end Example

/-- A list in the place of a view is not refused: `[] not in _VIEWS` raises a `TypeError`. -/
theorem listView_escapes :
    ¬∀ (lib : Library) (value : Text) (signingKey : List UInt8) (b : Binding),
      Closed (fromEncoded lib (some value)) ∧ Closed (decode lib signingKey (some value) b) := by
  intro h
  obtain ⟨hclosed, -⟩ := h plainLibrary listView [] ⟨[], [], ⟨"org", "prj", "env"⟩, 1, 1, 1⟩
  have hraised := listView_raised
  unfold raised at hraised
  split at hraised
  · cases hraised
  · rename_i e heq
    obtain rfl := Option.some.inj hraised
    cases hclosed _ heq

end Solvan.Alerts.Requests
