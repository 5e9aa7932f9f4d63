import Solvan.Base.Checks
import Solvan.Base.Hex
import Solvan.Base.Json.Text
import Solvan.Domain.Values
import Solvan.Repair.Paths

/-! The digests of signed Relay material, and which texts pass for one. -/
namespace Solvan.Relay

inductive RelayError where
  /-- `RelayContractError` -/
  | contract (message : String)
  /-- `IdentifierError` -/
  | identifier (message : String)
deriving DecidableEq, Repr

/-- `if not condition: raise RelayContractError(message)` -/
def require (condition : Bool) (message : String) : Except RelayError Unit :=
  if condition then .ok () else .error (.contract message)

def digestPrefix : String := "sha256:"

/-- `require_digest`. Only texts of ASCII get to the last comparison. -/
def requireDigest (value field : String) : Except RelayError String :=
  let refusal : RelayError := .contract (field ++ " must be a lowercase SHA-256 digest")
  if value.length ≠ 71 || !digestPrefix.toList.isPrefixOf value.toList then .error refusal
  else
    match Hex.fromhex (value.toList.drop 7) with
    | none => .error refusal
    | some _ => if value.toList ≠ value.toList.map Char.toLower then .error refusal else .ok value

/-- Canonical JSON, or none where there is no such form, and SHA-256. -/
structure Hashing where
  canonical : Json → Option (List UInt8)
  sha256 : List UInt8 → List UInt8
  digestSize : ∀ bytes, (sha256 bytes).length = 32

/-- `canonical_digest` -/
def canonicalDigest (hashing : Hashing) (value : Json) : Except RelayError String :=
  match hashing.canonical value with
  | none => .error (.contract "Relay material is not RFC-8785 canonicalizable")
  | some payload => .ok (digestPrefix ++ String.ofList (Hex.hexdigest (hashing.sha256 payload)))

def isCrockford (c : Char) : Bool := "0123456789ABCDEFGHJKMNPQRSTVWXYZ".toList.contains c

/-- `validate_identifier` -/
def validateIdentifier (value expectedPrefix : String) : Except RelayError Unit :=
  let front := value.toList.takeWhile Char.isLower
  match value.toList.dropWhile Char.isLower with
  | '_' :: first :: rest =>
    if 2 ≤ front.length ∧ front.length ≤ 4 ∧ '0' ≤ first ∧ first ≤ '7' ∧ rest.length = 25 ∧ rest.all isCrockford then
      if front = expectedPrefix.toList then .ok ()
      else .error (.identifier ("identifier prefix " ++ String.ofList front ++ " does not match " ++ expectedPrefix))
    else .error (.identifier "identifier must be a type-prefixed uppercase ULID")
  | _ => .error (.identifier "identifier must be a type-prefixed uppercase ULID")

/-- `_OPERATIONS` -/
def operations : List String :=
  ["monitoring.time-series.read.v1", "monitoring.metric-descriptors.read.v1", "prometheus.registered-range.read.v1",
    "logging.entries.read.v1", "trace.spans.read.v1", "kubernetes.metadata.list.v1"]

/-- What a collection job is checked by before it can be signed. -/
structure CollectionJobMaterial where
  collectionJobId : String
  enrollmentId : String
  enrollmentEpoch : Int
  relayConnectionEpoch : Int
  sourceConnectionEpoch : Int
  placementEpoch : Int
  toolArgumentsHash : String
  profileMaterialHash : String
  profileOrdinal : Int
  capabilityReceiptHash : String
  connectorCatalogDigest : String
  operation : String
  typedParameters : List (String × Json)
  parametersHash : String
  resourceBindingId : String
  graphSnapshotId : String
  resourceBindingHash : String
  windowStart : Option Datetime
  windowEnd : Option Datetime
  maximumPages : Int
  maximumItems : Int
  maximumBytes : Int
  maximumCalls : Int
  maximumAttempts : Int
  inputHash : String
  issuedAt : Datetime
  expiresAt : Datetime
  jobDigest : String

namespace CollectionJobMaterial

/-- The identifiers that are checked, with the prefix of each. -/
def identifiers (m : CollectionJobMaterial) : List (String × String) :=
  [(m.collectionJobId, "rcj"), (m.enrollmentId, "ren"), (m.resourceBindingId, "pgn"), (m.graphSnapshotId, "pgs")]

/-- The digests that are checked, with the name of each. -/
def digests (m : CollectionJobMaterial) : List (String × String) :=
  [(m.toolArgumentsHash, "tool_arguments_hash"), (m.profileMaterialHash, "profile_material_hash"),
    (m.capabilityReceiptHash, "capability_receipt_hash"), (m.connectorCatalogDigest, "connector_catalog_digest"),
    (m.parametersHash, "parameters_hash"), (m.resourceBindingHash, "resource_binding_hash"),
    (m.inputHash, "input_hash"), (m.jobDigest, "job_digest")]

/-- The window that evidence is read from. -/
def checkWindow (m : CollectionJobMaterial) : Except RelayError Unit := do
  require (m.windowStart.isNone == m.windowEnd.isNone) "Relay evidence window must be complete or absent"
  match m.windowStart, m.windowEnd with
  | some start, some finish => do
    require (start.aware && finish.aware) "Relay evidence window must be timezone-aware"
    require (start.instant ≤ finish.instant) "Relay evidence window is reversed"
  | _, _ => return ()

/-- `__post_init__` -/
def postInit (hashing : Hashing) (m : CollectionJobMaterial) : Except RelayError Unit := do
  m.identifiers.forM (fun identifier => validateIdentifier identifier.1 identifier.2)
  m.digests.forM (fun digest => (requireDigest digest.1 digest.2).map (fun _ => ()))
  require (operations.contains m.operation) "Relay operation is outside the closed catalog"
  let parametersHash ← canonicalDigest hashing (.obj m.typedParameters)
  require (parametersHash == m.parametersHash) "typed parameters do not match parameters_hash"
  require ([m.enrollmentEpoch, m.relayConnectionEpoch, m.sourceConnectionEpoch, m.placementEpoch,
    m.profileOrdinal].all (1 ≤ ·)) "Relay epochs and ordinals must be positive"
  require (1 ≤ m.maximumPages && m.maximumPages ≤ 20) "maximum_pages is outside the closed bound"
  require (1 ≤ m.maximumItems && m.maximumItems ≤ 1000) "maximum_items is outside the closed bound"
  require (1 ≤ m.maximumBytes && m.maximumBytes ≤ 1048576) "maximum_bytes is outside the closed bound"
  require (1 ≤ m.maximumCalls && m.maximumCalls ≤ 20 && (1 ≤ m.maximumAttempts && m.maximumAttempts ≤ 2))
    "Relay call or attempt budget is outside the closed bound"
  require (m.issuedAt.aware && m.expiresAt.aware) "Relay job times must be timezone-aware"
  let lifetime := m.expiresAt.instant - m.issuedAt.instant
  require (0 < lifetime && lifetime ≤ 120000000) "Relay job lifetime must be within 120 seconds"
  m.checkWindow

end CollectionJobMaterial

/-- A job that was constructed. -/
structure CollectionJob (hashing : Hashing) extends CollectionJobMaterial where
  checked : toCollectionJobMaterial.postInit hashing = .ok ()

/-- `sha256:` and 64 lower-case digits -/
def Canonical (value : String) : Prop :=
  ∃ digits, digits.length = 64 ∧ (∀ c ∈ digits, c ∈ Hex.lowerDigits) ∧ value.toList = digestPrefix.toList ++ digits

/-- `sha256:` and 64 characters that are bytes in lower case and some blanks between them -/
def Blanked (value : String) : Prop :=
  ∃ rest, rest.length = 64 ∧ Hex.Bytes rest ∧ (∃ c ∈ rest, Hex.isSpace c = true) ∧
    value.toList = digestPrefix.toList ++ rest

/-- The bytes that a digest stands for. -/
def digestBytes (value : String) : List UInt8 := (Hex.fromhex (value.toList.drop 7)).getD []

variable {value other field : String} {rest : List Char}

/-- What `require_digest` accepts. -/
theorem requireDigest_ok : requireDigest value field = .ok value ↔
    ∃ rest, rest.length = 64 ∧ Hex.Bytes rest ∧ value.toList = digestPrefix.toList ++ rest := by
  have hlower : digestPrefix.toList.map Char.toLower = digestPrefix.toList := by decide
  constructor
  · intro h
    unfold requireDigest at h
    split at h
    · cases h
    · rename_i hshape
      rw [Bool.or_eq_true, not_or, decide_eq_true_eq, not_not, Bool.not_eq_true, Bool.not_eq_false'] at hshape
      obtain ⟨hlength, hprefix⟩ := hshape
      obtain ⟨rest, hvalue⟩ := List.isPrefixOf_iff_prefix.mp hprefix
      have hdrop : value.toList.drop 7 = rest := by
        rw [← hvalue]
        exact List.drop_left' rfl
      rw [hdrop] at h
      split at h
      · cases h
      · rename_i bytes hread
        split at h
        · cases h
        · rename_i hcase
          refine ⟨rest, ?_, Hex.bytes_iff.mpr ⟨by rw [hread]; rfl, ?_⟩, hvalue.symm⟩
          · have hseven : digestPrefix.toList.length = 7 := rfl
            have hsize : 7 + rest.length = 71 := by
              rw [← hseven, ← List.length_append, hvalue, String.length_toList, hlength]
            omega
          · rw [not_not, ← hvalue, List.map_append, hlower] at hcase
            exact (List.append_cancel_left hcase).symm
  · rintro ⟨rest, hlength, hbytes, hvalue⟩
    have hdrop : value.toList.drop 7 = rest := by
      rw [hvalue]
      exact List.drop_left' rfl
    obtain ⟨bytes, hread⟩ := Option.isSome_iff_exists.mp (Hex.bytes_iff.mp hbytes).1
    have hsize : value.length = 71 := by
      rw [← String.length_toList, hvalue, List.length_append, hlength]
      rfl
    have hprefix : digestPrefix.toList.isPrefixOf value.toList = true :=
      List.isPrefixOf_iff_prefix.mpr ⟨rest, hvalue.symm⟩
    have hcase : value.toList = value.toList.map Char.toLower := by
      rw [hvalue, List.map_append, hlower, hbytes.lower]
    unfold requireDigest
    rw [if_neg (by simp [hsize, hprefix]), hdrop, hread]
    exact if_neg (not_not.mpr hcase)

/-- A digest that is accepted is its prefix and bytes. -/
theorem digestBytes_eq (h : value.toList = digestPrefix.toList ++ rest) (hbytes : Hex.Bytes rest) :
    Hex.fromhex rest = some (digestBytes value) := by
  have hdrop : value.toList.drop 7 = rest := by
    rw [h]
    exact List.drop_left' rfl
  obtain ⟨bytes, hread⟩ := Option.isSome_iff_exists.mp (Hex.bytes_iff.mp hbytes).1
  rw [digestBytes, hdrop, hread, Option.getD_some]

/-- The canonical texts are the accepted ones without blanks. -/
theorem canonical_iff : Canonical value ↔ requireDigest value field = .ok value ∧ ¬Blanked value := by
  constructor
  · rintro ⟨digits, hlength, hdigits, hvalue⟩
    refine ⟨requireDigest_ok.mpr ⟨digits, hlength, Hex.bytes_of_digits (n := 32) hlength hdigits, hvalue⟩, ?_⟩
    rintro ⟨rest, -, -, ⟨c, hc, hblank⟩, hrest⟩
    obtain rfl := List.append_cancel_left (hvalue.symm.trans hrest)
    rw [Hex.not_space (hdigits c hc)] at hblank
    cases hblank
  · rintro ⟨haccepted, hnot⟩
    obtain ⟨rest, hlength, hbytes, hvalue⟩ := requireDigest_ok.mp haccepted
    refine ⟨rest, hlength, hbytes.digits (fun c hc => ?_), hvalue⟩
    by_contra hblank
    exact hnot ⟨rest, hlength, hbytes, ⟨c, hc, by simpa using hblank⟩, hvalue⟩

theorem Blanked.accepted (h : Blanked value) : requireDigest value field = .ok value := by
  obtain ⟨rest, hlength, hbytes, -, hvalue⟩ := h
  exact requireDigest_ok.mpr ⟨rest, hlength, hbytes, hvalue⟩

/-- An accepted digest stands for 32 bytes where it has no blanks, and for fewer where it has. -/
theorem length_digestBytes (h : requireDigest value field = .ok value) :
    (digestBytes value).length = 32 ↔ ¬Blanked value := by
  obtain ⟨rest, hlength, hbytes, hvalue⟩ := requireDigest_ok.mp h
  have hsize := hbytes.length (digestBytes_eq hvalue hbytes)
  constructor
  · rintro hfull ⟨rest', -, -, hblank, hvalue'⟩
    obtain rfl := List.append_cancel_left (hvalue.symm.trans hvalue')
    have hpos := List.countP_pos_iff.mpr hblank
    omega
  · intro hnot
    have hnone : rest.countP Hex.isSpace = 0 := List.countP_eq_zero.mpr (fun c hc hblank =>
      hnot ⟨rest, hlength, hbytes, ⟨c, hc, hblank⟩, hvalue⟩)
    omega

/-- Canonical texts of the same bytes are one text. -/
theorem canonical_unique (hvalue : Canonical value) (hother : Canonical other) :
    value = other ↔ digestBytes value = digestBytes other := by
  refine ⟨congrArg digestBytes, fun hsame => ?_⟩
  obtain ⟨digits, hlength, hdigits, hvalue⟩ := hvalue
  obtain ⟨digits', hlength', hdigits', hother⟩ := hother
  have hread := digestBytes_eq hvalue (Hex.bytes_of_digits (n := 32) hlength hdigits)
  have hread' := digestBytes_eq hother (Hex.bytes_of_digits (n := 32) hlength' hdigits')
  have heq : digits = digits' := Hex.digits_unique hdigits hdigits' (hlength.trans hlength'.symm) (by omega)
    (by rw [hread, hread', hsame])
  rw [← String.toList_inj, hvalue, hother, heq]

/-- The hash that is made here is canonical. -/
theorem canonicalDigest_canonical {hashing : Hashing} {material : Json}
    (h : canonicalDigest hashing material = .ok value) : Canonical value := by
  unfold canonicalDigest at h
  split at h
  · cases h
  · rename_i payload _
    obtain rfl := Except.ok.inj h
    refine ⟨_, ?_, fun c => Hex.hexdigest_digits c, by rw [String.toList_append, String.toList_ofList]⟩
    rw [Hex.length_hexdigest, hashing.digestSize]

theorem requireDigest_value {result : String} (h : requireDigest value field = .ok result) : result = value := by
  unfold requireDigest at h
  split at h
  · cases h
  · split at h
    · cases h
    · split at h
      · cases h
      · exact (Except.ok.inj h).symm

/-- What the constructor lets pass. -/
theorem CollectionJob.accepted {hashing : Hashing} (job : CollectionJob hashing) :
    ∀ digest ∈ job.digests, requireDigest digest.1 digest.2 = .ok digest.1 := by
  intro digest hmem
  obtain ⟨_, -, hchecked⟩ := Checks.bind_ok.mp job.checked
  obtain ⟨_, hdigests, -⟩ := Checks.bind_ok.mp hchecked
  have hone := Checks.forM_ok hdigests digest hmem
  cases hresult : requireDigest digest.1 digest.2 with
  | error e =>
    rw [hresult] at hone
    cases hone
  | ok result => rw [requireDigest_value hresult]

/-- The hash of the parameters is one that was made here. -/
theorem CollectionJob.parameters_canonical {hashing : Hashing} (job : CollectionJob hashing) :
    Canonical job.parametersHash := by
  obtain ⟨_, -, hchecked⟩ := Checks.bind_ok.mp job.checked
  obtain ⟨_, -, hchecked⟩ := Checks.bind_ok.mp hchecked
  obtain ⟨_, -, hchecked⟩ := Checks.bind_ok.mp hchecked
  obtain ⟨digest, hdigest, hchecked⟩ := Checks.bind_ok.mp hchecked
  obtain ⟨_, hsame, -⟩ := Checks.bind_ok.mp hchecked
  unfold require at hsame
  split at hsame
  · rename_i hequal
    rw [← beq_iff_eq.mp hequal]
    exact canonicalDigest_canonical hdigest
  · cases hsame

theorem validateHash_canonical : Repair.validateHash value = .ok () ↔ Canonical value := by
  have hseven : digestPrefix.toList.length = 7 := rfl
  rw [Repair.validateHash, Repair.require_ok, Bool.and_eq_true, Bool.and_eq_true, beq_iff_eq]
  constructor
  · rintro ⟨⟨hlength, hstart⟩, hdigits⟩
    obtain ⟨rest, hvalue⟩ := List.isPrefixOf_iff_prefix.mp hstart
    have hdrop : value.toList.drop 7 = rest := by
      rw [← hvalue]
      exact List.drop_left' rfl
    rw [hdrop] at hdigits
    refine ⟨rest, ?_, fun c hc => List.contains_iff_mem.mp (List.all_eq_true.mp hdigits c hc), hvalue.symm⟩
    have hsize : 7 + rest.length = 71 := by
      rw [← hlength, ← String.length_toList, ← hvalue, List.length_append]
      rfl
    omega
  · rintro ⟨digits, hlength, hdigits, hvalue⟩
    have hdrop : value.toList.drop 7 = digits := by
      rw [hvalue]
      exact List.drop_left' rfl
    refine ⟨⟨?_, List.isPrefixOf_iff_prefix.mpr ⟨digits, hvalue.symm⟩⟩, ?_⟩
    · rw [← String.length_toList, hvalue, List.length_append, hlength, hseven]
    · rw [hdrop]
      exact List.all_eq_true.mpr (fun c hc => List.contains_iff_mem.mpr (hdigits c hc))

/-- What the guards accept is what is canonical, but for the texts with blanks, which only one of them refuses. -/
theorem requireDigest_canonical_iff (value other field : String) (hashing : Hashing) (job : CollectionJob hashing) :
    ((requireDigest value field = .ok value ↔ Canonical value) ↔ ¬Blanked value) ∧
      (requireDigest value field = .ok value → requireDigest other field = .ok other →
        ((digestBytes value).length = 32 ∧ (digestBytes other).length = 32 ∧
          (value = other ↔ digestBytes value = digestBytes other) ↔ ¬Blanked value ∧ ¬Blanked other)) ∧
      (Repair.validateHash value = .ok () ↔ Canonical value) ∧
      ∀ digest ∈ job.digests, Canonical digest.1 ↔ ¬Blanked digest.1 := by
  refine ⟨⟨fun hsame hblank => ?_, fun hnot => ?_⟩, fun haccepted hother => ⟨?_, ?_⟩, validateHash_canonical, ?_⟩
  · exact ((@canonical_iff value field).mp (hsame.mp hblank.accepted)).2 hblank
  · exact ⟨fun haccepted => canonical_iff.mpr ⟨haccepted, hnot⟩, fun hcanonical => (canonical_iff.mp hcanonical).1⟩
  · rintro ⟨hfull, hfull', -⟩
    exact ⟨(length_digestBytes haccepted).mp hfull, (length_digestBytes hother).mp hfull'⟩
  · rintro ⟨hnot, hnot'⟩
    exact ⟨(length_digestBytes haccepted).mpr hnot, (length_digestBytes hother).mpr hnot',
      canonical_unique (canonical_iff.mpr ⟨haccepted, hnot⟩) (canonical_iff.mpr ⟨hother, hnot'⟩)⟩
  · intro digest hmem
    rw [@canonical_iff digest.1 digest.2, job.accepted digest hmem]
    exact and_iff_right rfl

/-- Two blanks and 31 bytes pass for a digest. -/
theorem blanked_accepted :
    ¬∀ value field : String, requireDigest value field = .ok value ↔ Canonical value := by
  intro h
  have haccepted : requireDigest ("sha256:  " ++ String.ofList (List.replicate 62 '0')) "job_digest" =
      .ok ("sha256:  " ++ String.ofList (List.replicate 62 '0')) := by decide +kernel
  have hrefused : Repair.validateHash ("sha256:  " ++ String.ofList (List.replicate 62 '0')) ≠ .ok () := by
    decide +kernel
  exact hrefused (validateHash_canonical.mpr ((h _ _).mp haccepted))

end Solvan.Relay
