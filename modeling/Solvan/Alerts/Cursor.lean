import Solvan.Alerts.Filter
import Solvan.Base.Base64Url
import Solvan.Base.Json.Canonical
import Solvan.Base.Json.Equal
import Solvan.Base.Keyed

/-! The cursors of the alert list, and whose they are. -/
namespace Solvan.Alerts

open Solvan.Base

inductive AlertError where
  /-- `AlertFilterError("INVALID_ALERT_FILTER")` -/
  | invalidAlertFilter
  /-- The canonical form has no such integer. -/
  | integerDomain
deriving DecidableEq, Repr

/-- What the codec is given: canonical JSON, hashes, and what `int` and `str` make
of the values of JSON. -/
structure Codec extends Clock where
  dumps : Json → Option (List UInt8)
  canonical : ∀ j : Json, j.plain = true →
    dumps j = if j.interoperable then some (Json.utf8 (Json.dumps j)) else none
  /-- `hashlib.sha256(…).hexdigest()` -/
  sha256 : List UInt8 → String
  hexdigest : ∀ bytes, (sha256 bytes).toList.length = 64
  /-- `hmac.digest(self._key, …, "sha256")` -/
  hmac : List UInt8 → List UInt8
  digest : ∀ bytes, (hmac bytes).length = 32
  int : Json → Option Int
  int_int : ∀ n, int (.int n) = some n
  str : Json → String
  str_str : ∀ s, str (.str s) = s

def scopeDict (scope : Scope) : Json :=
  .obj [("organization_id", .str scope.organizationId), ("project_id", .str scope.projectId),
    ("environment_id", .str scope.environmentId)]

/-- `digest`. A validated filter has a canonical form. -/
def AlertListFilter.digest (codec : Codec) (f : AlertListFilter) : String :=
  "sha256:" ++ codec.sha256 ((codec.dumps f.canonicalDict).getD [])

/-- The reader, and the epochs of what the reader may see. -/
structure Audience where
  principal : String
  scope : Scope
  placementEpoch : Int
  policyEpoch : Int
  membershipEpoch : Int

structure AlertCursorPosition where
  severityRank : Int
  attentionRank : Int
  lastSeenAt : Datetime
  alertEpisodeId : String
deriving DecidableEq

/-- `_SAFE_EPISODE_ID`, which the table checks as well -/
def safeEpisodeId (id : String) : Bool :=
  match id.toList with
  | 'a' :: 'e' :: 'p' :: '_' :: first :: rest =>
    "01234567".toList.contains first && rest.length == 25 &&
      rest.all (fun c => "0123456789ABCDEFGHJKMNPQRSTVWXYZ".toList.contains c)
  | _ => false

/-- `_payload` without a position -/
def expectedPayload (codec : Codec) (filterDigest : String) (a : Audience) : List (String × Json) :=
  [("schema_version", .int 1), ("filter_digest", .str filterDigest),
    ("principal_hash", .str ("sha256:" ++ codec.sha256 (Json.utf8 a.principal))),
    ("scope_hash", .str ("sha256:" ++ codec.sha256 ((codec.dumps (scopeDict a.scope)).getD []))),
    ("placement_epoch", .int a.placementEpoch), ("policy_epoch", .int a.policyEpoch),
    ("membership_epoch", .int a.membershipEpoch)]

def AlertCursorPosition.material (p : AlertCursorPosition) : Json :=
  .arr [.int p.severityRank, .int p.attentionRank, .str (zuluText p.lastSeenAt), .str p.alertEpisodeId]

/-- `_payload` -/
def payload (codec : Codec) (filterDigest : String) (a : Audience) (p : AlertCursorPosition) : Json :=
  .obj (expectedPayload codec filterDigest a ++ [("position", p.material)])

/-- `encode` -/
def encode (codec : Codec) (p : AlertCursorPosition) (filterDigest : String) (a : Audience) :
    Except AlertError String :=
  match codec.dumps (payload codec filterDigest a p) with
  | none => .error .integerDomain
  | some body =>
    .ok (String.ofList (Base64Url.encode body ++ '.' :: Base64Url.encode (codec.hmac body)))

/-- `_b64_decode` -/
def b64Decode (value : List Char) : Option (List UInt8) :=
  if value.isEmpty || decide (8192 < value.length) || !value.all (Base64Url.alphabet.contains ·) then none
  else Base64Url.decode value

/-- The position of a payload whose audience was checked. -/
def readPosition (codec : Codec) (position : Json) : Except AlertError AlertCursorPosition :=
  match position with
  | .arr [rank, attention, .str seen, id] =>
    match utc codec.toClock seen, codec.int rank, codec.int attention with
    | some lastSeenAt, some severityRank, some attentionRank =>
      if (rank matches .bool _) || (attention matches .bool _) || !([1, 2, 3, 4].contains severityRank) ||
          !([0, 1].contains attentionRank) || !safeEpisodeId (codec.str id) then
        .error .invalidAlertFilter
      else .ok ⟨severityRank, attentionRank, lastSeenAt, codec.str id⟩
    | _, _, _ => .error .invalidAlertFilter
  | _ => .error .invalidAlertFilter

/-- The checks of `decode` on a signed body. A text that is no canonical one is
not its value's, and refused for that if for nothing else. -/
def readBody (codec : Codec) (body : List UInt8) (filterDigest : String) (a : Audience) :
    Except AlertError AlertCursorPosition :=
  match (Json.ofUtf8 body).bind Json.loads with
  | some (.obj fields) =>
    let fields := Keyed.dict Prod.fst fields
    let expected := expectedPayload codec filterDigest a
    let names := "position" :: expected.map Prod.fst
    if !fields.all (fun field => names.contains field.1) ||
        !names.all (fun name => (fields.map Prod.fst).contains name) then
      .error .invalidAlertFilter
    else
      match codec.dumps (.obj fields) with
      | none => .error .integerDomain
      | some canonical =>
        if body ≠ canonical || expected.any (fun (name, item) =>
            !(fields.lookup name).any (fun value => Json.equal value item)) then
          .error .invalidAlertFilter
        else readPosition codec ((fields.lookup "position").getD .null)
  | _ => .error .invalidAlertFilter

/-- `decode` -/
def decode (codec : Codec) (value : Option String) (filterDigest : String) (a : Audience) :
    Except AlertError (Option AlertCursorPosition) :=
  match value with
  | none => .ok none
  | some token =>
    match token.toList.span (· != '.') with
    | (_, []) => .error .invalidAlertFilter
    | (head, _ :: tail) =>
      match b64Decode head, b64Decode tail with
      | some body, some signature =>
        if signature ≠ codec.hmac body then .error .invalidAlertFilter
        else (readBody codec body filterDigest a).map some
      | _, _ => .error .invalidAlertFilter

section Codec

variable {codec : Codec} {p : AlertCursorPosition} {filterDigest : String} {a : Audience}

/-- The fields of the payload with their keys in order. -/
def sortedPayload (codec : Codec) (filterDigest : String) (a : Audience) (p : AlertCursorPosition) :
    List (String × Json) :=
  [("filter_digest", .str filterDigest), ("membership_epoch", .int a.membershipEpoch),
    ("placement_epoch", .int a.placementEpoch), ("policy_epoch", .int a.policyEpoch),
    ("position", p.material),
    ("principal_hash", .str ("sha256:" ++ codec.sha256 (Json.utf8 a.principal))),
    ("schema_version", .int 1),
    ("scope_hash", .str ("sha256:" ++ codec.sha256 ((codec.dumps (scopeDict a.scope)).getD [])))]

theorem payload_sorted :
    (payload codec filterDigest a p).sorted = .obj (sortedPayload codec filterDigest a p) := by
  simp [payload, expectedPayload, sortedPayload, AlertCursorPosition.material, Json.sorted,
    Json.sortedFields, Json.sortedField, Json.sortedItems]

theorem sortedPayload_sorted :
    (Json.obj (sortedPayload codec filterDigest a p)).sorted = .obj (sortedPayload codec filterDigest a p) := by
  simp [sortedPayload, AlertCursorPosition.material, Json.sorted, Json.sortedFields, Json.sortedField,
    Json.sortedItems]

theorem payload_plain : (payload codec filterDigest a p).plain = true := by
  rfl

theorem sortedPayload_plain : (Json.obj (sortedPayload codec filterDigest a p)).plain = true := by
  rfl

/-- Epochs that have a canonical form. -/
def Audience.interoperable (a : Audience) : Bool :=
  Json.interoperable (.arr [.int a.placementEpoch, .int a.policyEpoch, .int a.membershipEpoch])

/-- A position such as the list gives: a rank of a severity, attention or none, and an
identifier the table admits. -/
structure AlertCursorPosition.Valid (p : AlertCursorPosition) : Prop where
  severity : [1, 2, 3, 4].contains p.severityRank = true
  attention : [0, 1].contains p.attentionRank = true
  episode : safeEpisodeId p.alertEpisodeId = true

theorem AlertCursorPosition.Valid.interoperable (h : p.Valid) : p.material.interoperable = true := by
  have hseverity := h.severity
  have hattention := h.attention
  simp at hseverity hattention
  simp [AlertCursorPosition.material, Json.interoperable, Json.interoperableItems]
  omega

theorem payload_interoperable (h : p.Valid) :
    (payload codec filterDigest a p).interoperable = a.interoperable := by
  have hmaterial := h.interoperable
  simp [payload, expectedPayload, Json.interoperable, Json.interoperableFields, Json.interoperableField,
    Json.interoperableItems, hmaterial, Audience.interoperable]

theorem sortedPayload_interoperable (h : p.Valid) :
    (Json.obj (sortedPayload codec filterDigest a p)).interoperable = a.interoperable := by
  have hmaterial := h.interoperable
  simp [sortedPayload, Json.interoperable, Json.interoperableFields, Json.interoperableField,
    Json.interoperableItems, hmaterial, Audience.interoperable]
  grind

/-- The bytes a cursor signs. -/
def cursorBody (codec : Codec) (filterDigest : String) (a : Audience) (p : AlertCursorPosition) : List UInt8 :=
  Json.utf8 (Json.dumps (payload codec filterDigest a p))

def cursorToken (codec : Codec) (body : List UInt8) : String :=
  String.ofList (Base64Url.encode body ++ '.' :: Base64Url.encode (codec.hmac body))

theorem encode_eq (h : p.Valid) : encode codec p filterDigest a =
    if a.interoperable then .ok (cursorToken codec (cursorBody codec filterDigest a p))
    else .error .integerDomain := by
  unfold encode
  rw [codec.canonical _ payload_plain, payload_interoperable h]
  cases a.interoperable <;> rfl

theorem equal_str (s : String) : Json.equal (.str s) (.str s) = true := by
  simp [Json.equal]

theorem equal_int (n : Int) : Json.equal (.int n) (.int n) = true := by
  simp [Json.equal, Json.sameNumbers, Json.number, Json.sameNumber]

/-- A body the codec wrote is read as the position it was written for. -/
theorem readBody_cursorBody (h : p.Valid) (hepochs : a.interoperable = true) :
    readBody codec (cursorBody codec filterDigest a p) filterDigest a = readPosition codec p.material := by
  have hloads : (Json.ofUtf8 (cursorBody codec filterDigest a p)).bind Json.loads =
      some (.obj (sortedPayload codec filterDigest a p)) := by
    rw [cursorBody, Json.ofUtf8_utf8, Option.bind_some, Json.loads_dumps, payload_sorted]
  have hdict : Keyed.dict Prod.fst (sortedPayload codec filterDigest a p) = sortedPayload codec filterDigest a p :=
    Keyed.dict_eq (by simp [sortedPayload])
  have hdumps : codec.dumps (.obj (sortedPayload codec filterDigest a p)) =
      some (cursorBody codec filterDigest a p) := by
    have hsame : Json.dumps (.obj (sortedPayload codec filterDigest a p)) =
        Json.dumps (payload codec filterDigest a p) := by
      rw [Json.dumps, Json.dumps, sortedPayload_sorted, payload_sorted]
    rw [codec.canonical _ sortedPayload_plain, sortedPayload_interoperable h, hepochs, hsame]
    rfl
  unfold readBody
  simp only [hloads, hdict, hdumps]
  simp [sortedPayload, expectedPayload, equal_str, equal_int, List.lookup_cons]

theorem readPosition_material (h : p.Valid) (hoffset : p.lastSeenAt.utcoffset = some 0) :
    readPosition codec p.material = .ok p := by
  unfold AlertCursorPosition.material readPosition
  simp only [utc_zuluText codec.toClock hoffset, codec.int_int, codec.str_str, h.severity, h.attention,
    h.episode]
  rfl

theorem readPosition_refused {offset : Int} (hoffset : p.lastSeenAt.utcoffset = some offset)
    (hne : offset ≠ 0) : readPosition codec p.material = .error .invalidAlertFilter := by
  unfold AlertCursorPosition.material readPosition
  simp only [utc_refused codec.toClock hoffset hne]

theorem weight_int {n : Int} (h : n.natAbs < 2 ^ 53) : Json.weight (Json.int n).text ≤ 68 := by
  rw [Json.text]
  have hweight := Json.weight_le (Json.intText n)
  have hlength := Json.length_intText h
  omega

theorem weight_hash (codec : Codec) (bytes : List UInt8) :
    Json.weight (Json.str ("sha256:" ++ codec.sha256 bytes)).text ≤ 428 := by
  have hquote := Json.weight_quote ("sha256:" ++ codec.sha256 bytes)
  have hlength : ("sha256:" ++ codec.sha256 bytes).toList.length = 71 := by
    rw [String.toList_append, List.length_append, codec.hexdigest]
    rfl
  rw [Json.text]
  omega

theorem length_episodeId {id : String} (h : safeEpisodeId id = true) : id.toList.length = 30 := by
  unfold safeEpisodeId at h
  split at h
  · rename_i first rest heq
    simp only [Bool.and_eq_true, beq_iff_eq] at h
    simp only [heq, List.length_cons, h.1.2]
  · cases h

theorem weight_material {offset : Int} (h : p.Valid) (hoffset : p.lastSeenAt.utcoffset = some offset)
    (hbounded : offset.natAbs < day) : Json.weight p.material.text ≤ 600 := by
  have hseen := Json.weight_quote (zuluText p.lastSeenAt)
  have htime := length_zuluText hoffset hbounded
  have hid := Json.weight_quote p.alertEpisodeId
  have hlength := length_episodeId h.episode
  have hnumbers := h.interoperable
  simp only [AlertCursorPosition.material, Json.interoperable, Json.interoperableItems, Bool.and_true,
    Bool.and_eq_true, decide_eq_true_eq] at hnumbers
  have hrank := weight_int hnumbers.1
  have hattention := weight_int hnumbers.2
  have hopen : ('[').utf8Size = 1 := by decide
  have hclose : (']').utf8Size = 1 := by decide
  have hcomma : (',').utf8Size = 1 := by decide
  rw [Json.text] at hrank hattention
  simp only [AlertCursorPosition.material, Json.text, Json.itemsText, Json.itemsTail, Json.weight_cons,
    Json.weight_append, Json.weight_nil, hopen, hclose, hcomma]
  omega

/-- A cursor fits where `_b64_decode` reads it. -/
theorem length_cursorBody {offset : Int} (h : p.Valid) (hepochs : a.interoperable = true)
    (hdigest : filterDigest.toList.length = 71) (hoffset : p.lastSeenAt.utcoffset = some offset)
    (hbounded : offset.natAbs < day) : (cursorBody codec filterDigest a p).length ≤ 6143 := by
  have hfilter : Json.weight (Json.str filterDigest).text ≤ 428 := by
    have hquote := Json.weight_quote filterDigest
    rw [Json.text]
    omega
  have hmaterial := weight_material h hoffset hbounded
  have hprincipal := weight_hash codec (Json.utf8 a.principal)
  have hscope := weight_hash codec ((codec.dumps (scopeDict a.scope)).getD [])
  simp only [Audience.interoperable, Json.interoperable, Json.interoperableItems, Bool.and_true,
    Bool.and_eq_true, decide_eq_true_eq] at hepochs
  obtain ⟨hplacement, hpolicy, hmembership⟩ := hepochs
  have hplacement' := weight_int hplacement
  have hpolicy' := weight_int hpolicy
  have hmembership' := weight_int hmembership
  have hone := weight_int (show (1 : Int).natAbs < 2 ^ 53 by decide)
  have hkey : ∀ k : String, k.toList.length ≤ 16 → Json.weight (Json.quote k) ≤ 98 := fun k hk => by
    have hquote := Json.weight_quote k
    omega
  have hsize := Json.weight_obj (Json.weight_field (hkey "filter_digest" (by decide)) hfilter)
    (.cons (Json.weight_field (hkey "membership_epoch" (by decide)) hmembership')
      (.cons (Json.weight_field (hkey "placement_epoch" (by decide)) hplacement')
        (.cons (Json.weight_field (hkey "policy_epoch" (by decide)) hpolicy')
          (.cons (Json.weight_field (hkey "position" (by decide)) hmaterial)
            (.cons (Json.weight_field (hkey "principal_hash" (by decide)) hprincipal)
              (.cons (Json.weight_field (hkey "schema_version" (by decide)) hone)
                (.cons (Json.weight_field (hkey "scope_hash" (by decide)) hscope) .nil)))))))
  rw [cursorBody, Json.length_utf8, Json.dumps, payload_sorted, String.toList_ofList]
  refine hsize.trans ?_
  simp only [List.sum_cons, List.sum_nil, List.length_cons, List.length_nil]
  omega

theorem b64Decode_encode {bytes : List UInt8} (hne : bytes ≠ []) (hlength : bytes.length ≤ 6144) :
    b64Decode (Base64Url.encode bytes) = some bytes := by
  have hsize := Base64Url.length_encode bytes
  have hpos := List.length_pos_of_ne_nil hne
  have hnonempty : (Base64Url.encode bytes).isEmpty = false := by
    rw [List.isEmpty_eq_false_iff, ← List.length_pos_iff_ne_nil]
    omega
  have hshort : decide (8192 < (Base64Url.encode bytes).length) = false := decide_eq_false (by omega)
  have hall : (Base64Url.encode bytes).all (Base64Url.alphabet.contains ·) = true :=
    List.all_eq_true.mpr (fun c hc => List.contains_iff_mem.mpr (Base64Url.encode_alphabet bytes c hc))
  rw [b64Decode, hnonempty, hshort, hall]
  exact Base64Url.decode_encode bytes

theorem span_token (body signature : List UInt8) :
    (Base64Url.encode body ++ '.' :: Base64Url.encode signature).span (· != '.') =
      (Base64Url.encode body, '.' :: Base64Url.encode signature) := by
  have hdot : '.' ∉ Base64Url.alphabet := by decide +kernel
  have hall : ∀ c ∈ Base64Url.encode body, (c != '.') = true := fun c hc =>
    bne_iff_ne.mpr (fun heq => hdot (heq ▸ Base64Url.encode_alphabet body c hc))
  rw [List.span_eq_takeWhile_dropWhile, List.takeWhile_append_of_pos hall, List.dropWhile_append_of_pos hall]
  simp

/-- What `decode` makes of a cursor of its own. -/
theorem decode_cursorToken {offset : Int} (h : p.Valid) (hepochs : a.interoperable = true)
    (hdigest : filterDigest.toList.length = 71) (hoffset : p.lastSeenAt.utcoffset = some offset)
    (hbounded : offset.natAbs < day) :
    decode codec (some (cursorToken codec (cursorBody codec filterDigest a p))) filterDigest a =
      (readPosition codec p.material).map some := by
  have hbody : cursorBody codec filterDigest a p ≠ [] := by
    intro hnil
    have hread := Json.ofUtf8_utf8 (Json.dumps (payload codec filterDigest a p))
    rw [← cursorBody, hnil] at hread
    have hloads := Json.loads_dumps (payload codec filterDigest a p)
    rw [← Option.some.inj hread] at hloads
    cases hloads
  have hsignature : codec.hmac (cursorBody codec filterDigest a p) ≠ [] := fun hnil => by
    have hlength := codec.digest (cursorBody codec filterDigest a p)
    rw [hnil] at hlength
    cases hlength
  have hread := b64Decode_encode hbody
    ((length_cursorBody h hepochs hdigest hoffset hbounded).trans (by decide))
  have hsigned := b64Decode_encode hsignature (by rw [codec.digest]; decide)
  unfold decode cursorToken
  simp only [String.toList_ofList, span_token, hread, hsigned, readBody_cursorBody h hepochs]
  exact if_neg (fun hne => hne rfl)

/-- A cursor of a moment at offset zero is read as what it was written for. -/
theorem decode_encoded (h : p.Valid) (hepochs : a.interoperable = true)
    (hdigest : filterDigest.toList.length = 71) (hoffset : p.lastSeenAt.utcoffset = some 0) :
    decode codec (some (cursorToken codec (cursorBody codec filterDigest a p))) filterDigest a =
      .ok (some p) := by
  rw [decode_cursorToken h hepochs hdigest hoffset (by decide), readPosition_material h hoffset]
  rfl

/-- A cursor of any other is refused. -/
theorem decode_refused {offset : Int} (h : p.Valid) (hepochs : a.interoperable = true)
    (hdigest : filterDigest.toList.length = 71) (hoffset : p.lastSeenAt.utcoffset = some offset)
    (hbounded : offset.natAbs < day) (hne : offset ≠ 0) :
    decode codec (some (cursorToken codec (cursorBody codec filterDigest a p))) filterDigest a =
      .error .invalidAlertFilter := by
  rw [decode_cursorToken h hepochs hdigest hoffset hbounded, readPosition_refused hoffset hne]
  rfl

end Codec

end Solvan.Alerts
