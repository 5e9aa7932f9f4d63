import Solvan.Base.Program
import Solvan.Liaison.Claims
import Solvan.Liaison.Questions

/-! The reader that a turn reads through: each read is authorized by the grant, kept to the records of its
anchor, watched for loops, and counted. -/
namespace Solvan.Liaison.Turn
open Solvan.Base

inductive Audience where
  | projectionApi | coordinatorInbox
deriving DecidableEq, Repr

structure ConversationReadGrant where
  principal : String
  anchorLabel : String
  allowedMethods : List String
  expiresAt : Int
  anchorEntitySetDigest : String
  audience : Audience
deriving DecidableEq, Repr

/-- `ConversationReadGrant.authorize`, where none is no complaint -/
def ConversationReadGrant.authorize (grant : ConversationReadGrant) (moment : Int) (method : String) :
    Option String :=
  if grant.expiresAt ≤ moment then some "the conversation read grant has expired"
  else if grant.audience ≠ .projectionApi then some "this grant is not addressed to the projection API"
  else if !grant.allowedMethods.contains method then some ("the grant does not authorize " ++ method)
  else none

/-- `ANCHORABLE_RECORD_TYPES` -/
def anchorableRecordTypes : List String :=
  ["incident", "reliability_case", "action", "evidence_item", "verification_run", "patch_artifact",
    "workspace", "tenant_connection", "alert_episode"]

/-- `_anchor_from_label` -/
def anchorFromLabel (label : String) : Option Anchor :=
  if label = "scope" then some .scope
  else if "service:".toList <+: label.toList then none
  else
    let recordType := label.toList.takeWhile (· != ':')
    let recordId := (label.toList.dropWhile (· != ':')).tail
    if recordType.isEmpty || recordId.isEmpty then none
    else if anchorableRecordTypes.contains (String.ofList recordType) then
      some (.record (String.ofList recordType, String.ofList recordId))
    else none

/-- The filters of a search. -/
structure RecordSearch where
  serviceKey : Option String
  state : Option String
  recordType : Option String
  windowStart : Option Int
  windowEnd : Option Int
deriving DecidableEq, Repr

/-- The reader inside a granted one, with the methods it has. -/
structure ProjectionStore where
  read : ProjectionReader
  authorizedRecordsForAnchor : Option (Anchor → List RecordKey)
  authorizedRecords : Option (List RecordKey)
  searchRecords : Option (RecordSearch → List RecordKey → List Value)

structure TurnUsage where
  toolCalls : Nat
  modelCalls : Nat
  tokens : Nat
  verificationReads : Nat
deriving DecidableEq, Repr

/-- The arguments of a read, by which it is told from others. -/
inductive Arguments where
  | read (recordType recordId : String)
  | search (query : RecordSearch)
deriving DecidableEq, Repr

def Arguments.method : Arguments → String
  | .read _ _ => "read_projection"
  | .search _ => "search_records"

structure DoomLoopGuard where
  last : Option Arguments
  repeats : Nat
deriving DecidableEq, Repr

/-- The default of `threshold` -/
def threshold : Nat := 3

/-- `DoomLoopGuard.observe`. The method goes with the arguments. -/
def DoomLoopGuard.observe (guard : DoomLoopGuard) (current : Arguments) : DoomLoopGuard :=
  if guard.last = some current then { guard with repeats := guard.repeats + 1 }
  else ⟨some current, 1⟩

structure CompositionDefects where
  suppressed : Nat
  held : Nat
  unresolvedCitations : Nat
  unknownTemplates : Nat
  providerDegraded : Nat
  reasons : List String
deriving DecidableEq, Repr

/-- What changes while a turn reads. -/
structure Session where
  /-- How often the grant has been asked. -/
  authorizations : Nat
  usage : TurnUsage
  guard : DoomLoopGuard
  looped : Bool
  /-- The authorized set that the verifying reader keeps. -/
  authorized : Option (List RecordKey)
  defects : CompositionDefects
deriving DecidableEq, Repr

def Session.start : Session where
  authorizations := 0
  usage := ⟨0, 0, 0, 0⟩
  guard := ⟨none, 0⟩
  looped := false
  authorized := none
  defects := ⟨0, 0, 0, 0, 0, []⟩

/-- What a turn has to do with. The clock tells the time at which the grant is asked for the `n`th time. -/
structure Surroundings where
  platform : Platform
  store : ProjectionStore
  grant : ConversationReadGrant
  clock : Nat → Int

namespace Surroundings

variable (env : Surroundings)

/-- The records that the store gives for the grant, before the grant's digest is looked at. -/
def anchorRecords : Option (List RecordKey) := do
  let records ← env.store.authorizedRecordsForAnchor
  let anchor ← anchorFromLabel env.grant.anchorLabel
  return records anchor

/-- `_resolve_authorized_records` -/
def resolveAuthorizedRecords : List RecordKey :=
  match env.anchorRecords with
  | some records =>
    if env.grant.anchorEntitySetDigest != "" &&
        env.grant.anchorEntitySetDigest != env.platform.recordsDigest records then []
    else records
  | none => env.store.authorizedRecords.getD []

/-- What the grant says of one more read. -/
def complaint (s : Session) (arguments : Arguments) : Option String :=
  env.grant.authorize (env.clock s.authorizations) arguments.method

end Surroundings

/-- What a drafter asks of its reader. -/
inductive Drafting where
  | read (recordType recordId : String)
  | search (query : RecordSearch)
deriving DecidableEq, Repr

def Drafting.arguments : Drafting → Arguments
  | .read recordType recordId => .read recordType recordId
  | .search query => .search query

abbrev Drafting.Answer : Drafting → Type
  | .read _ _ => Option Record
  | .search _ => List Value

/-- What the gate asks of its reader, and what it counts. -/
inductive Gating where
  | read (recordType recordId : String)
  | unresolvedCitations (count : Nat)
  | unknownTemplate
  | record (outcome : ClaimOutcome) (reason : String)
deriving DecidableEq, Repr

abbrev Gating.Answer : Gating → Type
  | .read _ _ => Option Record
  | _ => Unit

/-- `CompositionDefects.record` -/
def CompositionDefects.record (defects : CompositionDefects) (outcome : ClaimOutcome) (reason : String) :
    CompositionDefects :=
  let counted :=
    match outcome with
    | .suppressed => { defects with suppressed := defects.suppressed + 1 }
    | .held => { defects with held := defects.held + 1 }
    | .verified => defects
  if reason = "" then counted else { counted with reasons := counted.reasons ++ [reason] }

/-- The counts that the gate keeps. -/
def CompositionDefects.count (defects : CompositionDefects) : Gating → CompositionDefects
  | .read _ _ => defects
  | .unresolvedCitations count => { defects with unresolvedCitations := defects.unresolvedCitations + count }
  | .unknownTemplate => { defects with unknownTemplates := defects.unknownTemplates + 1 }
  | .record outcome reason => defects.record outcome reason

/-- What the grant has been asked once more. -/
def Session.asked (s : Session) : Session := { s with authorizations := s.authorizations + 1 }

/-- A read of the drafter: watched by the guard and charged to the tool calls. -/
def Session.drafted (s : Session) (arguments : Arguments) : Session :=
  { s.asked with
    guard := s.guard.observe arguments
    looped := s.looped || decide (threshold ≤ (s.guard.observe arguments).repeats)
    usage := { s.usage with toolCalls := s.usage.toolCalls + 1 } }

/-- A read of the gate, which keeps the authorized set. -/
def Session.verified (s : Session) (records : List RecordKey) : Session :=
  { s.asked with
    authorized := some records
    usage := { s.usage with verificationReads := s.usage.verificationReads + 1 } }

namespace Surroundings

variable (env : Surroundings)

/-- `GrantedReader.read` once the read is authorized -/
def readWithin (records : List RecordKey) : ProjectionReader := fun recordType recordId =>
  if records.contains (recordType, recordId) then env.store.read recordType recordId else none

/-- What an authorized read or search of the drafter gives. -/
def draftingAnswer : (call : Drafting) → call.Answer
  | .read recordType recordId => env.readWithin env.resolveAuthorizedRecords recordType recordId
  | .search query => (env.store.searchRecords.map (fun search => search query env.resolveAuthorizedRecords)).getD []

/-- `GrantedReader` -/
def granted : Handler Drafting Drafting.Answer String Session := fun call s =>
  match env.complaint s call.arguments with
  | some message => (.error message, s.asked)
  | none => (.ok (env.draftingAnswer call), s.drafted call.arguments)

/-- `GrantedReader.for_verification`, and the counts of the gate -/
def forVerification : Handler Gating Gating.Answer String Session
  | .read recordType recordId, s =>
    match env.complaint s (.read recordType recordId) with
    | some message => (.error message, s.asked)
    | none =>
      let records := s.authorized.getD env.resolveAuthorizedRecords
      (.ok (env.readWithin records recordType recordId), s.verified records)
  | .unresolvedCitations count, s => (.ok (), { s with defects := s.defects.count (.unresolvedCitations count) })
  | .unknownTemplate, s => (.ok (), { s with defects := s.defects.count .unknownTemplate })
  | .record outcome reason, s => (.ok (), { s with defects := s.defects.count (.record outcome reason) })

/-- The reader that gives the records of the anchor and no others. -/
def contained : ProjectionReader := env.readWithin env.resolveAuthorizedRecords

end Surroundings

/-- What a gate is answered by a reader. -/
def gatingAnswer (reader : ProjectionReader) : (call : Gating) → call.Answer
  | .read recordType recordId => reader recordType recordId
  | .unresolvedCitations _ | .unknownTemplate | .record _ _ => ()

/-- The set that the verifying reader keeps is the grant's. -/
def Session.Pinned (env : Surroundings) (s : Session) : Prop :=
  ∀ records, s.authorized = some records → records = env.resolveAuthorizedRecords

section Reads

variable {env : Surroundings} {s : Session}

theorem Session.Pinned.getD (h : s.Pinned env) :
    s.authorized.getD env.resolveAuthorizedRecords = env.resolveAuthorizedRecords := by
  cases hauthorized : s.authorized with
  | none => rfl
  | some records => exact h records hauthorized

/-- The grant lets every read of this kind through, whenever it is asked. -/
def Surroundings.Covers (env : Surroundings) (arguments : Arguments) : Prop :=
  ∀ n, env.grant.authorize (env.clock n) arguments.method = none

theorem granted_covered {call : Drafting} (h : env.Covers call.arguments) :
    env.granted call s = (.ok (env.draftingAnswer call), s.drafted call.arguments) := by
  unfold Surroundings.granted Surroundings.complaint
  rw [h s.authorizations]

/-- A session after the same read so many times. -/
def Session.repeated (arguments : Arguments) (count : Nat) : Session :=
  { Session.start with
    authorizations := count
    usage := ⟨count, 0, 0, 0⟩
    guard := if count = 0 then ⟨none, 0⟩ else ⟨some arguments, count⟩
    looped := decide (threshold ≤ count) }

theorem repeated_drafted (arguments : Arguments) (count : Nat) :
    (Session.repeated arguments count).drafted arguments = Session.repeated arguments (count + 1) := by
  unfold Session.drafted Session.asked Session.repeated
  cases count with
  | zero => rfl
  | succ count =>
    have hlooped : (decide (threshold ≤ count + 1) || decide (threshold ≤ count + 1 + 1)) =
        decide (threshold ≤ count + 1 + 1) := by
      rw [← Bool.decide_or, decide_eq_decide]
      omega
    simp only [DoomLoopGuard.observe, Nat.add_one_ne_zero, if_false, if_true, hlooped]

/-- The guard counts how often one thing is read. -/
theorem drafted_repeatedly (call : Drafting) (count : Nat) :
    (List.replicate count call).foldl (fun s call => s.drafted call.arguments) .start =
      Session.repeated call.arguments count := by
  induction count with
  | zero => rfl
  | succ count ih =>
    rw [List.replicate_succ', List.foldl_append, ih]
    exact repeated_drafted call.arguments count

theorem granted_moves {call : Drafting} {answer : call.Answer} {s' : Session}
    (h : env.granted call s = (.ok answer, s')) :
    answer = env.draftingAnswer call ∧ s' = s.drafted call.arguments := by
  unfold Surroundings.granted at h
  split at h
  · cases h
  · obtain ⟨hanswer, rfl⟩ := Prod.mk.inj h
    exact ⟨(Except.ok.inj hanswer).symm, rfl⟩

/-- A drafter that is not refused comes to what the grant's records make of it, and has read what it asked
for. -/
theorem granted_run {α : Type} {p : Program Drafting Drafting.Answer α} {a : α} {s' : Session}
    (h : p.run env.granted s = (.ok a, s')) :
    a = p.value env.draftingAnswer ∧
      s' = (p.asked env.draftingAnswer).foldl (fun s call => s.drafted call.arguments) s :=
  Program.run_ok env.draftingAnswer (fun call s => s.drafted call.arguments)
    (fun _ _ _ _ hanswer => granted_moves hanswer) h

theorem verification_pinned (call : Gating) (h : s.Pinned env) : (env.forVerification call s).2.Pinned env := by
  cases call with
  | read recordType recordId =>
    simp only [Surroundings.forVerification]
    split
    · exact h
    · rw [h.getD]
      exact fun records hrecords => (Option.some.inj hrecords).symm
  | unresolvedCitations count => exact h
  | unknownTemplate => exact h
  | record outcome reason => exact h

/-- So is the gate. -/
theorem verification_honest (call : Gating) {answer : call.Answer} (hpinned : s.Pinned env)
    (h : (env.forVerification call s).1 = .ok answer) : answer = gatingAnswer env.contained call := by
  cases call with
  | read recordType recordId =>
    simp only [Surroundings.forVerification] at h
    split at h
    · cases h
    · rw [hpinned.getD] at h
      exact (Except.ok.inj h).symm
  | unresolvedCitations count => rfl
  | unknownTemplate => rfl
  | record outcome reason => rfl

end Reads

end Solvan.Liaison.Turn
