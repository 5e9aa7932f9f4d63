import Solvan.Alerts.Times
import Solvan.Base.Keyed
import Solvan.Relay.Digests

/-! The attempts that a Relay remembers at the customer's, and the evidence it keeps of them. -/
namespace Solvan.Relay.Attempts
open Base

inductive Raised where
  | relayLedgerError (message : String)
  | relayRuntimeError (message : String)
  | redactionError (message : String)
  | relayContractError (error : RelayError)
  | valueError (message : String)
  | unicodeEncodeError
  | overflowError
  /-- Any other exception of a party that is asked -/
  | other
deriving DecidableEq, Repr

inductive AttemptState where
  | started | localResultStored | acknowledged
  /-- A text that no Relay writes -/
  | unknown (text : String)
deriving DecidableEq, Repr

/-- What an `AttemptRecord` is constructed of. -/
structure AttemptFields where
  collectionJobId : String
  attemptId : String
  attemptNumber : Int
  jobDigest : String
  claimToken : String
  processBootId : String
  state : AttemptState
  inputHash : String
  outcomeHash : Option String
  localResultHash : Option String
  createdAt : Datetime
  updatedAt : Datetime
  terminalAt : Option Datetime
  acknowledgedAt : Option Datetime

/-- `if not condition: raise RelayLedgerError(message)` -/
def requireLedger (condition : Bool) (message : String) : Except Raised Unit :=
  if condition then .ok () else .error (.relayLedgerError message)

/-- `value.startswith(prefix) and len(value) == 30` -/
def identified (front value : String) : Bool := front.toList.isPrefixOf value.toList && value.toList.length == 30

/-- `require_digest`, with the error it raises here. -/
def checkDigest (value field : String) : Except Raised Unit :=
  match requireDigest value field with
  | .ok _ => .ok ()
  | .error error => .error (.relayContractError error)

/-- `if hash is not None: require_digest(hash, field=field)` -/
def checkHash (hash : Option String) (field : String) : Except Raised Unit :=
  match hash with
  | some hash => checkDigest hash field
  | none => .ok ()

/-- `__post_init__` -/
def AttemptFields.postInit (record : AttemptFields) : Except Raised Unit := do
  requireLedger (identified "rcj_" record.collectionJobId && identified "rat_" record.attemptId)
    "attempt record identifier is invalid"
  requireLedger (1 ≤ record.attemptNumber && record.attemptNumber ≤ 2) "attempt number is outside the closed bound"
  checkDigest record.jobDigest "job_digest"
  checkDigest record.inputHash "input_hash"
  checkHash record.outcomeHash "outcome_hash"
  checkHash record.localResultHash "local_result_hash"
  requireLedger (record.createdAt.aware && record.updatedAt.aware) "attempt record timestamps must be timezone-aware"
  requireLedger (record.createdAt.instant ≤ record.updatedAt.instant) "attempt record update precedes creation"

/-- A record that was constructed. -/
structure AttemptRecord extends AttemptFields where
  checked : toAttemptFields.postInit = .ok ()

/-- `AttemptRecord(…)` -/
def AttemptFields.construct (fields : AttemptFields) : Except Raised AttemptRecord :=
  match h : fields.postInit with
  | .ok _ => .ok { toAttemptFields := fields, checked := h }
  | .error error => .error error

/-- A row of the index, or none where no record can be constructed of it. -/
abbrev Row := String × Option AttemptRecord

/-- `attempts.json` -/
inductive Index where
  | absent
  /-- A file that is read with an error -/
  | unreadable (error : Raised)
  | rows (rows : List Row)

/-- AES-GCM under the key of a ledger, and the text that is written of it. -/
structure Vault where
  encrypt : List UInt8 → List UInt8 → String → List UInt8
  decrypt : List UInt8 → String → Option (List UInt8)
  decrypt_encrypt : ∀ nonce bytes attemptId, decrypt (encrypt nonce bytes attemptId) attemptId = some bytes

/-- A vault that keeps what it is given as it is. -/
def plainVault : Vault := ⟨fun _ bytes _ => bytes, fun bytes _ => some bytes, fun _ _ _ => rfl⟩

structure EncryptedAttemptLedger where
  index : Index
  /-- The files of results, by their attempts -/
  results : List (String × List UInt8)
  maxRecords : Nat
  bounded : 1 ≤ maxRecords ∧ maxRecords ≤ 4096

theorem one_bounded : 1 ≤ 1 ∧ 1 ≤ 4096 := by decide

/-- `astimezone(UTC)` -/
def toUtc (time : Datetime) : Except Raised Datetime :=
  if h : 0 ≤ time.instant + epoch ∧ time.instant + epoch < Calendar.maxMicros then
    .ok ⟨(time.instant + epoch).toNat, some 0, by omega⟩
  else .error .overflowError

def isAscii (s : String) : Bool := s.toList.all (fun c => decide (c.toNat < 128))

/-- `attempt_id.encode("ascii")` -/
def encodeAscii (attemptId : String) : Except Raised Unit :=
  if isAscii attemptId then .ok () else .error .unicodeEncodeError

/-- `if time.tzinfo is None: raise ValueError(message)` -/
def requireAware (time : Datetime) (message : String) : Except Raised Unit :=
  if time.aware then .ok () else .error (.valueError message)

namespace EncryptedAttemptLedger

/-- `_load` -/
def load (ledger : EncryptedAttemptLedger) : Except Raised (List Row) :=
  match ledger.index with
  | .absent => .ok []
  | .unreadable error => .error error
  | .rows rows => .ok rows

/-- `_result_path` -/
def checkPath (attemptId : String) : Except Raised Unit :=
  requireLedger (identified "rat_" attemptId) "attempt identifier is invalid"

/-- `_write_result` -/
def writeResult (vault : Vault) (nonce : List UInt8) (ledger : EncryptedAttemptLedger) (attemptId : String)
    (resultBytes : List UInt8) : Except Raised EncryptedAttemptLedger := do
  requireLedger (!resultBytes.isEmpty && resultBytes.length ≤ 1048576) "local result bytes are outside the closed bound"
  encodeAscii attemptId
  checkPath attemptId
  return { ledger with
    results := Keyed.put Prod.fst ledger.results (attemptId, vault.encrypt nonce resultBytes attemptId) }

/-- `read_result` -/
def readResult (vault : Vault) (ledger : EncryptedAttemptLedger) (attemptId : String) :
    Except Raised (Option (List UInt8)) := do
  checkPath attemptId
  match Keyed.get Prod.fst ledger.results attemptId with
  | none => return none
  | some (_, raw) =>
    match if isAscii attemptId then vault.decrypt raw attemptId else none with
    | some bytes => return some bytes
    | none => .error (.relayLedgerError "local attempt result cannot be decrypted")

end EncryptedAttemptLedger

/-- Two records of one claim. -/
def sameAuthority (prior record : AttemptFields) : Bool :=
  prior.collectionJobId == record.collectionJobId && prior.jobDigest == record.jobDigest &&
    prior.claimToken == record.claimToken

/-- What `replace` makes of a record that is acknowledged. -/
def AttemptFields.acknowledged (fields : AttemptFields) (moment : Datetime) : AttemptFields :=
  { fields with
    state := .acknowledged
    terminalAt := some (fields.terminalAt.getD moment)
    acknowledgedAt := some moment
    updatedAt := moment }

namespace EncryptedAttemptLedger

/-- The check of the row that an attempt has. -/
def admission (ledger : EncryptedAttemptLedger) (rows : List Row) (record : AttemptRecord) : Except Raised Unit :=
  match Keyed.get Prod.fst rows record.attemptId with
  | none => requireLedger (rows.length < ledger.maxRecords) "local attempt ledger is full; refusing a new claim"
  | some (_, none) => .error .other
  | some (_, some prior) =>
    requireLedger (sameAuthority prior.toAttemptFields record.toAttemptFields) "attempt identifier is already bound to different authority"

/-- The ledger with the result of a record, if there is one. -/
def keepResult (vault : Vault) (nonce : List UInt8) (ledger : EncryptedAttemptLedger) (record : AttemptRecord)
    (resultBytes : Option (List UInt8)) : Except Raised EncryptedAttemptLedger :=
  match resultBytes with
  | none => .ok ledger
  | some bytes => do
    requireLedger (!(record.localResultHash.getD "").isEmpty) "encrypted result requires a local result hash"
    writeResult vault nonce ledger record.attemptId bytes

/-- `upsert` -/
def upsert (vault : Vault) (nonce : List UInt8) (ledger : EncryptedAttemptLedger) (record : AttemptRecord)
    (resultBytes : Option (List UInt8)) : Except Raised EncryptedAttemptLedger := do
  let rows ← ledger.load
  ledger.admission rows record
  let ledger ← ledger.keepResult vault nonce record resultBytes
  return { ledger with index := .rows (Keyed.put Prod.fst rows (record.attemptId, some record)) }

/-- `acknowledge` -/
def acknowledge (vault : Vault) (nonce : List UInt8) (ledger : EncryptedAttemptLedger) (record : AttemptRecord)
    (at' : Datetime) : Except Raised EncryptedAttemptLedger := do
  requireAware at' "acknowledgement time must be timezone-aware"
  let moment ← toUtc at'
  let record ← (record.acknowledged moment).construct
  ledger.upsert vault nonce record none

/-- What the ledger holds of an attempt. -/
def Holds (ledger : EncryptedAttemptLedger) (attemptId : String) (record : AttemptRecord) : Prop :=
  ∃ rows, ledger.index = .rows rows ∧ Keyed.get Prod.fst rows attemptId = some (attemptId, some record)

/-- As many attempts as there may be. -/
def Full (ledger : EncryptedAttemptLedger) : Prop := ∃ rows, ledger.index = .rows rows ∧ ledger.maxRecords ≤ rows.length

/-- A ledger that can be read, and that has room for an attempt or holds it under the same claim. -/
def Admits (ledger : EncryptedAttemptLedger) (record : AttemptFields) : Prop :=
  ∃ rows, ledger.load = .ok rows ∧ (∀ found, Keyed.get Prod.fst rows record.attemptId = some found →
    ∃ prior : AttemptRecord, found.2 = some prior ∧ sameAuthority prior.toAttemptFields record = true) ∧
      (Keyed.get Prod.fst rows record.attemptId = none → rows.length < ledger.maxRecords)

end EncryptedAttemptLedger

section Checks

variable {record : AttemptFields} {value field message : String}

theorem requireLedger_ok {condition : Bool} : requireLedger condition message = .ok () ↔ condition = true := by
  cases condition with
  | false => exact ⟨nofun, nofun⟩
  | true => exact ⟨fun _ => rfl, fun _ => rfl⟩

theorem checkDigest_ok : checkDigest value field = .ok () ↔ requireDigest value field = .ok value := by
  unfold checkDigest
  cases h : requireDigest value field with
  | error e => exact ⟨nofun, nofun⟩
  | ok result =>
    rw [requireDigest_value h]
    exact ⟨fun _ => rfl, fun _ => rfl⟩

theorem checkHash_ok {hash : Option String} :
    checkHash hash field = .ok () ↔ ∀ h ∈ hash, requireDigest h field = .ok h := by
  cases hash with
  | none => exact ⟨fun _ h hh => (nomatch hh), fun _ => rfl⟩
  | some h =>
    refine checkDigest_ok.trans ⟨fun hok h' hh' => ?_, fun hall => hall h rfl⟩
    obtain rfl := Option.some.inj hh'
    exact hok

/-- The fields of a record that can be constructed. -/
structure AttemptFields.Proper (record : AttemptFields) : Prop where
  job : identified "rcj_" record.collectionJobId = true
  attempt : identified "rat_" record.attemptId = true
  number : 1 ≤ record.attemptNumber ∧ record.attemptNumber ≤ 2
  jobDigest : requireDigest record.jobDigest "job_digest" = .ok record.jobDigest
  inputHash : requireDigest record.inputHash "input_hash" = .ok record.inputHash
  outcome : ∀ hash ∈ record.outcomeHash, requireDigest hash "outcome_hash" = .ok hash
  localResult : ∀ hash ∈ record.localResultHash, requireDigest hash "local_result_hash" = .ok hash
  aware : record.createdAt.aware = true ∧ record.updatedAt.aware = true
  ordered : record.createdAt.instant ≤ record.updatedAt.instant

theorem postInit_ok : record.postInit = .ok () ↔ record.Proper := by
  unfold AttemptFields.postInit
  constructor
  · intro h
    obtain ⟨_, hids, h⟩ := Checks.bind_ok.mp h
    obtain ⟨_, hnumber, h⟩ := Checks.bind_ok.mp h
    obtain ⟨_, hdigest, h⟩ := Checks.bind_ok.mp h
    obtain ⟨_, hinput, h⟩ := Checks.bind_ok.mp h
    obtain ⟨_, houtcome, h⟩ := Checks.bind_ok.mp h
    obtain ⟨_, hresult, h⟩ := Checks.bind_ok.mp h
    obtain ⟨_, haware, h⟩ := Checks.bind_ok.mp h
    obtain ⟨hjob, hattempt⟩ := Bool.and_eq_true_iff.mp (requireLedger_ok.mp hids)
    obtain ⟨hlow, hhigh⟩ := Bool.and_eq_true_iff.mp (requireLedger_ok.mp hnumber)
    exact ⟨hjob, hattempt, ⟨of_decide_eq_true hlow, of_decide_eq_true hhigh⟩, checkDigest_ok.mp hdigest,
      checkDigest_ok.mp hinput, checkHash_ok.mp houtcome, checkHash_ok.mp hresult,
      Bool.and_eq_true_iff.mp (requireLedger_ok.mp haware), of_decide_eq_true (requireLedger_ok.mp h)⟩
  · intro h
    refine Checks.bind_ok.mpr ⟨(), requireLedger_ok.mpr (Bool.and_eq_true_iff.mpr ⟨h.job, h.attempt⟩), ?_⟩
    refine Checks.bind_ok.mpr ⟨(), requireLedger_ok.mpr (Bool.and_eq_true_iff.mpr
      ⟨decide_eq_true h.number.1, decide_eq_true h.number.2⟩), ?_⟩
    refine Checks.bind_ok.mpr ⟨(), checkDigest_ok.mpr h.jobDigest, ?_⟩
    refine Checks.bind_ok.mpr ⟨(), checkDigest_ok.mpr h.inputHash, ?_⟩
    refine Checks.bind_ok.mpr ⟨(), checkHash_ok.mpr h.outcome, ?_⟩
    refine Checks.bind_ok.mpr ⟨(), checkHash_ok.mpr h.localResult, ?_⟩
    refine Checks.bind_ok.mpr ⟨(), requireLedger_ok.mpr (Bool.and_eq_true_iff.mpr h.aware), ?_⟩
    exact requireLedger_ok.mpr (decide_eq_true h.ordered)

theorem construct_ok {made : AttemptRecord} : record.construct = .ok made ↔ made.toAttemptFields = record := by
  unfold AttemptFields.construct
  split
  · rename_i h
    constructor
    · intro hmade
      obtain rfl := Except.ok.inj hmade
      rfl
    · rintro rfl
      rfl
  · rename_i error h
    refine ⟨nofun, ?_⟩
    rintro rfl
    rw [made.checked] at h
    cases h

theorem construct_proper (h : record.Proper) : ∃ made, record.construct = .ok made ∧ made.toAttemptFields = record :=
  ⟨⟨record, postInit_ok.mpr h⟩, construct_ok.mpr rfl, rfl⟩

theorem AttemptRecord.proper (record : AttemptRecord) : record.toAttemptFields.Proper := postInit_ok.mp record.checked

theorem toUtc_ok {time moment : Datetime} (h : toUtc time = .ok moment) :
    moment.utcoffset = some 0 ∧ moment.instant = time.instant := by
  unfold toUtc at h
  split at h
  · rename_i hrange
    obtain rfl := Except.ok.inj h
    refine ⟨rfl, ?_⟩
    show ((time.instant + epoch).toNat : Int) - 0 - epoch = time.instant
    omega
  · cases h

theorem sameAuthority_iff {prior record : AttemptFields} : sameAuthority prior record = true ↔
    prior.collectionJobId = record.collectionJobId ∧ prior.jobDigest = record.jobDigest ∧
      prior.claimToken = record.claimToken := by
  unfold sameAuthority
  rw [Bool.and_eq_true, Bool.and_eq_true, beq_iff_eq, beq_iff_eq, beq_iff_eq, and_assoc]

theorem sameAuthority_refl : sameAuthority record record = true := sameAuthority_iff.mpr ⟨rfl, rfl, rfl⟩

theorem sameAuthority_trans {prior later : AttemptFields} (h : sameAuthority prior record = true)
    (h' : sameAuthority record later = true) : sameAuthority prior later = true := by
  obtain ⟨hjob, hdigest, htoken⟩ := sameAuthority_iff.mp h
  obtain ⟨hjob', hdigest', htoken'⟩ := sameAuthority_iff.mp h'
  exact sameAuthority_iff.mpr ⟨hjob.trans hjob', hdigest.trans hdigest', htoken.trans htoken'⟩

end Checks

namespace EncryptedAttemptLedger

variable {vault : Vault} {nonce bytes : List UInt8} {ledger ledger' : EncryptedAttemptLedger}
  {record prior : AttemptRecord} {rows : List Row} {attemptId : String}

theorem Holds.load (h : ledger.Holds attemptId record) : ∃ rows, ledger.load = .ok rows ∧
    Keyed.get Prod.fst rows attemptId = some (attemptId, some record) := by
  obtain ⟨rows, hindex, hget⟩ := h
  refine ⟨rows, ?_, hget⟩
  unfold EncryptedAttemptLedger.load
  rw [hindex]

/-- What is held of an attempt is one record. -/
theorem Holds.unique (h : ledger.Holds attemptId record) (hother : ledger.Holds attemptId prior) : record = prior := by
  obtain ⟨rows, hindex, hget⟩ := h
  obtain ⟨rows', hindex', hget'⟩ := hother
  obtain rfl := Index.rows.inj (hindex.symm.trans hindex')
  have hrow := Option.some.inj (hget.symm.trans hget')
  exact Option.some.inj (Prod.mk.inj hrow).2

/-- A ledger admits what it holds under the same claim. -/
theorem Holds.admits {fields : AttemptFields} (h : ledger.Holds fields.attemptId prior)
    (hsame : sameAuthority prior.toAttemptFields fields = true) : ledger.Admits fields := by
  obtain ⟨rows, hload, hget⟩ := h.load
  refine ⟨rows, hload, fun found hfound => ?_, fun hnone => ?_⟩
  · obtain rfl := Option.some.inj (hget.symm.trans hfound)
    exact ⟨prior, rfl, hsame⟩
  · rw [hget] at hnone
    cases hnone

theorem admission_ok (hload : ledger.load = .ok rows) : ledger.admission rows record = .ok () ↔
    ledger.Admits record.toAttemptFields := by
  unfold admission
  constructor
  · intro h
    refine ⟨rows, hload, fun found hfound => ?_, fun hnone => ?_⟩
    · rw [hfound] at h
      obtain ⟨id, row⟩ := found
      cases row with
      | none => cases h
      | some prior => exact ⟨prior, rfl, requireLedger_ok.mp h⟩
    · rw [hnone] at h
      exact of_decide_eq_true (requireLedger_ok.mp h)
  · rintro ⟨rows', hload', hfound, hroom⟩
    obtain rfl := Except.ok.inj (hload.symm.trans hload')
    cases hget : Keyed.get Prod.fst rows record.attemptId with
    | none => exact requireLedger_ok.mpr (decide_eq_true (hroom hget))
    | some found =>
      obtain ⟨prior, hrow, hsame⟩ := hfound found hget
      obtain ⟨id, row⟩ := found
      obtain rfl := hrow
      exact requireLedger_ok.mpr hsame

/-- A record without a result is written exactly where it is admitted. -/
theorem upsert_none : ledger.upsert vault nonce record none = .ok ledger' ↔ ledger.Admits record.toAttemptFields ∧
    ∃ rows, ledger.load = .ok rows ∧
      ledger' = { ledger with index := .rows (Keyed.put Prod.fst rows (record.attemptId, some record)) } := by
  constructor
  · intro h
    obtain ⟨rows, hload, h⟩ := Checks.bind_ok.mp h
    obtain ⟨_, hadmits, h⟩ := Checks.bind_ok.mp h
    exact ⟨(admission_ok hload).mp hadmits, rows, hload, (Except.ok.inj h).symm⟩
  · rintro ⟨hadmits, rows, hload, rfl⟩
    refine Checks.bind_ok.mpr ⟨rows, hload, ?_⟩
    exact Checks.bind_ok.mpr ⟨(), (admission_ok hload).mpr hadmits, rfl⟩

theorem holds_put (rows : List Row) : Holds { ledger with
    index := .rows (Keyed.put Prod.fst rows (record.attemptId, some record)) } record.attemptId record :=
  ⟨_, rfl, @Keyed.get_put_self _ _ _ Prod.fst rows (record.attemptId, some record)⟩

theorem upsert_none_holds (h : ledger.upsert vault nonce record none = .ok ledger') :
    ledger'.Holds record.attemptId record ∧ ledger'.results = ledger.results := by
  obtain ⟨-, rows, -, rfl⟩ := upsert_none.mp h
  exact ⟨holds_put rows, rfl⟩

theorem upsert_admitted (h : ledger.Admits record.toAttemptFields) :
    ∃ ledger', ledger.upsert vault nonce record none = .ok ledger' := by
  obtain ⟨rows, hload, hrest⟩ := h
  exact ⟨_, upsert_none.mpr ⟨⟨rows, hload, hrest⟩, rows, hload, rfl⟩⟩

/-- A result in its bounds is written with its record, and read again. -/
theorem upsert_bytes (h : ledger.Admits record.toAttemptFields) (hhash : (record.localResultHash.getD "").isEmpty = false)
    (hbytes : bytes ≠ [] ∧ bytes.length ≤ 1048576) (hascii : isAscii record.attemptId = true)
    (hpath : identified "rat_" record.attemptId = true) : ∃ ledger',
      ledger.upsert vault nonce record (some bytes) = .ok ledger' ∧ ledger'.Holds record.attemptId record ∧
        ledger'.readResult vault record.attemptId = .ok (some bytes) := by
  obtain ⟨rows, hload, hrest⟩ := h
  have hbound : (!bytes.isEmpty && decide (bytes.length ≤ 1048576)) = true := by
    rw [Bool.and_eq_true, Bool.not_eq_true', List.isEmpty_eq_false_iff, decide_eq_true_eq]
    exact hbytes
  have hwrite : writeResult vault nonce ledger record.attemptId bytes = .ok { ledger with
      results := Keyed.put Prod.fst ledger.results (record.attemptId, vault.encrypt nonce bytes record.attemptId) } := by
    refine Checks.bind_ok.mpr ⟨(), requireLedger_ok.mpr hbound, ?_⟩
    refine Checks.bind_ok.mpr ⟨(), if_pos hascii, ?_⟩
    exact Checks.bind_ok.mpr ⟨(), requireLedger_ok.mpr hpath, rfl⟩
  refine ⟨_, ?_, @holds_put { ledger with
    results := Keyed.put Prod.fst ledger.results (record.attemptId, vault.encrypt nonce bytes record.attemptId) }
    record rows, ?_⟩
  · refine Checks.bind_ok.mpr ⟨rows, hload, ?_⟩
    refine Checks.bind_ok.mpr ⟨(), (admission_ok hload).mpr ⟨rows, hload, hrest⟩, ?_⟩
    have hkeep : ledger.keepResult vault nonce record (some bytes) = _ :=
      Checks.bind_ok.mpr ⟨(), requireLedger_ok.mpr (by rw [hhash]; rfl), hwrite⟩
    exact Checks.bind_ok.mpr ⟨_, hkeep, rfl⟩
  · refine Checks.bind_ok.mpr ⟨(), requireLedger_ok.mpr hpath, ?_⟩
    dsimp only
    rw [@Keyed.get_put_self _ _ _ Prod.fst ledger.results
      (record.attemptId, vault.encrypt nonce bytes record.attemptId)]
    dsimp only
    rw [if_pos hascii, vault.decrypt_encrypt]
    rfl

/-- A result is kept from no attempt whose identifier leaves ASCII. -/
theorem upsert_bytes_ascii (h : ledger.upsert vault nonce record (some bytes) = .ok ledger') :
    isAscii record.attemptId = true := by
  obtain ⟨rows, -, h⟩ := Checks.bind_ok.mp h
  obtain ⟨_, -, h⟩ := Checks.bind_ok.mp h
  obtain ⟨written, hwritten, -⟩ := Checks.bind_ok.mp h
  obtain ⟨_, -, hwritten⟩ := Checks.bind_ok.mp hwritten
  obtain ⟨_, -, hwritten⟩ := Checks.bind_ok.mp hwritten
  obtain ⟨_, hascii, -⟩ := Checks.bind_ok.mp hwritten
  unfold encodeAscii at hascii
  split at hascii
  · assumption
  · cases hascii

/-- What is held under a claim is acknowledged. -/
theorem acknowledge_held {time moment : Datetime} (haware : time.aware = true) (hmoment : toUtc time = .ok moment)
    (hupdated : record.updatedAt.instant = time.instant) (h : ledger.Holds record.attemptId prior)
    (hsame : sameAuthority prior.toAttemptFields record.toAttemptFields = true) : ∃ ledger' made,
      ledger.acknowledge vault nonce record time = .ok ledger' ∧
        made.toAttemptFields = record.acknowledged moment ∧ ledger'.Holds record.attemptId made := by
  obtain ⟨hoffset, hinstant⟩ := toUtc_ok hmoment
  have hproper : (record.acknowledged moment).Proper := by
    refine { record.proper with aware := ⟨record.proper.aware.1, ?_⟩, ordered := ?_ }
    · show moment.utcoffset.isSome = true
      rw [hoffset]
      rfl
    · exact (record.proper.ordered.trans hupdated.le).trans hinstant.ge
  obtain ⟨made, hmade, hfields⟩ := construct_proper hproper
  have hadmits : ledger.Admits made.toAttemptFields := by
    rw [hfields]
    exact @Holds.admits _ _ (record.acknowledged moment) h hsame
  obtain ⟨ledger', hledger'⟩ := @upsert_admitted vault nonce ledger made hadmits
  have hid : made.attemptId = record.attemptId := by
    rw [hfields]
    rfl
  refine ⟨ledger', made, ?_, hfields, hid ▸ (upsert_none_holds hledger').1⟩
  refine Checks.bind_ok.mpr ⟨(), if_pos haware, ?_⟩
  refine Checks.bind_ok.mpr ⟨moment, hmoment, ?_⟩
  exact Checks.bind_ok.mpr ⟨made, hmade, hledger'⟩

end EncryptedAttemptLedger

def zeroDigest : String := "sha256:" ++ String.ofList (List.replicate 64 '0')

end Solvan.Relay.Attempts
