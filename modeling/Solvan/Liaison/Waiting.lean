import Mathlib.Data.List.MinMax
import Solvan.Alerts.Times
import Solvan.Context.TurnManifest

/-! Turns that wait in their thread: how one is prepared, moved up and claimed. -/
namespace Solvan.Liaison.Waiting

open Context Checks

inductive TurnStatus where
  | queued | ready | running | parked | completed | interrupted | failed
deriving DecidableEq, Repr

inductive GrantKind where
  | conversationRead | projectionRead | steerSubmission
deriving DecidableEq, Repr

/-- A row of `liaison_turns`. -/
structure TurnRow where
  messageId : String
  threadId : String
  requestHash : String
  conversationIntent : String
  authorityRoute : String
  attempt : Nat
  generation : Nat
  queueSequence : Option Nat
  status : TurnStatus
  terminalReason : Option String := none
  leaseOwner : Option String := none
  leaseToken : Option String := none
  leaseExpiresAt : Option Int := none

/-- A row of `liaison_turn_input_manifests`. -/
structure ManifestRow where
  messageId : String
  attempt : Nat
  generation : Nat
  manifest : TurnManifest
  manifestHash : String
  policyEpoch : Nat
  membershipEpoch : Nat

/-- A row of `liaison_grant_receipts`. -/
structure GrantReceipt where
  id : String
  kind : GrantKind
  principal : String
  threadId : String
  messageId : String
  attempt : Nat
  generation : Nat
  classificationCeiling : String
  membershipEpoch : Nat
  policyEpoch : Nat
  grantDigest : String
  issuedAt : Int
  expiresAt : Int

structure Participant where
  threadId : String
  principal : String
  membershipEpoch : Nat
  removed : Bool

structure Thread where
  id : String
  anchorKind : String
  anchorRef : String
  nextTurnQueueSequence : Nat

/-- An answer, and the message that it answers. -/
structure AnswerMessage where
  id : String
  threadId : String
  inReplyToMessageId : String

structure ProviderRequest where
  id : String
  messageId : String
  attempt : Nat
  generation : Nat
  manifestHash : String
  providerInputDigest : String
  modelResource : String
  serviceRevision : String
  processBootId : String

/-- The tables of one scope. -/
structure Store where
  scope : Scope
  threads : List Thread
  userMessages : List UserMessage
  answers : List AnswerMessage
  turns : List TurnRow
  manifests : List ManifestRow
  grants : List GrantReceipt
  participants : List Participant
  /-- `current_policy_epoch`, which looks at the roles that hold at a time -/
  policyEpoch : String → Int → Nat
  /-- The current placement of the tenant. -/
  placement : Option Placement
  nextSequence : Option Nat
  /-- The bindings of the compiler, the newest first. -/
  bindings : List CompilerBinding
  providerRequests : List ProviderRequest

/-- Five minutes, in microseconds. -/
def fiveMinutes : Int := 5 * 60 * 1000000

def TurnStatus.inLane : TurnStatus → Bool
  | .ready | .running => true
  | _ => false

/-- The turns that occupy the lane of a thread. -/
def Store.lane (s : Store) (threadId : String) : List TurnRow :=
  s.turns.filter (fun turn => turn.threadId == threadId && turn.status.inLane)

def Store.membershipEpoch (s : Store) (threadId principal : String) : Option Nat :=
  (s.participants.find? (fun participant => participant.threadId == threadId &&
    participant.principal == principal && !participant.removed)).map (fun row => row.membershipEpoch)

/-- `COALESCE(next_sequence - 1, 0)` -/
def Store.highWater (s : Store) : Nat := (s.nextSequence.map (· - 1)).getD 0

/-- An identifier that a message or a row about one has already. -/
def Store.mentions (s : Store) (messageId : String) : Bool :=
  s.answers.any (·.id == messageId) || s.turns.any (·.messageId == messageId) ||
    s.manifests.any (·.messageId == messageId) || s.grants.any (·.messageId == messageId)

/-- The arguments of `prepare_turn`, with what is read of the conversation. -/
structure PrepareCall where
  principal : String
  policyEpoch : Nat
  threadId : String
  userMessageId : String
  intent : String
  authorityRoute : String
  resolvedReferences : List Json
  sourceVersions : List (List (String × String))
  history : List TranscriptMessage
  compactions : List CompactionCandidate
  references : List ReferenceCandidate
  /-- The identifiers that are made for the answer and for the grant. -/
  answerMessageId : String
  readGrantId : String
  /-- `now()` of the transaction, and `datetime.now(UTC)` of the service. -/
  now : Int
  moment : Datetime

structure PreparedTurn where
  threadId : String
  userMessageId : String
  answerMessageId : String
  attempt : Nat
  generation : Nat
  state : TurnStatus
  queueSequence : Option Nat

def PrepareCall.manifestCall (call : PrepareCall) : ManifestCall where
  threadId := call.threadId
  answerMessageId := call.answerMessageId
  intent := call.intent
  authorityRoute := call.authorityRoute
  resolvedReferences := call.resolvedReferences
  sourceVersions := call.sourceVersions
  readerPrincipal := call.principal
  history := call.history
  compactions := call.compactions
  references := call.references

def found {α : Type} (row : Option α) (message : String) : Except String α :=
  row.elim (.error message) .ok

/-- The rows that `compile_manifest` reads, and the membership epoch of the author. -/
def Store.manifestRows (s : Store) (thread : Thread) (userMessageId : String) :
    Except String (ManifestRows × Nat) := do
  let unbound := "turn input cannot be bound to an active participant"
  let message ← found ((s.userMessages.find? (fun message => message.id == userMessageId)).filter
    (fun message => message.threadId == thread.id)) unbound
  let membershipEpoch ← found (s.membershipEpoch thread.id message.authorPrincipal) unbound
  let placement ← found (s.placement.filter (fun placement =>
    ["ACTIVE", "SUSPENDING", "SUSPENDED", "MOVING"].contains placement.lifecycle))
    "turn input has no current tenant placement"
  let binding ← found s.bindings.head? "no active Liaison context compiler revision"
  let revision ← found binding.activated "no active Liaison context compiler revision"
  return ({
    scope := s.scope
    anchorKind := thread.anchorKind
    anchorRef := thread.anchorRef
    message := message
    scopeSequenceHighWater := s.highWater
    placement := placement
    bindingEpoch := binding.bindingEpoch
    revision := revision }, membershipEpoch)

variable (lib : ManifestLibrary)

/-- The digest of the grant that a turn is prepared with. -/
def PrepareCall.readGrantDigest (call : PrepareCall) (ceiling : String) (membershipEpoch : Nat) : String :=
  lib.canonicalHash (.obj [("grant_id", .str call.readGrantId), ("principal", .str call.principal),
    ("message_id", .str call.answerMessageId), ("attempt", .int 1), ("generation", .int 1),
    ("purpose", .str "incident-investigation"), ("classification_ceiling", .str ceiling),
    ("membership_epoch", .int membershipEpoch), ("policy_epoch", .int call.policyEpoch),
    ("audience", .str "PROJECTION_API"),
    ("allowed_projection_methods", .arr [.str "read_projection", .str "recall_conversation"])])

/-- What is written of a turn, apart from its place in the lane. -/
structure TurnMaterial where
  manifest : TurnManifest
  readGrantDigest : String
  manifestHash : String
  membershipEpoch : Nat

def PrepareCall.material (call : PrepareCall) (rows : ManifestRows) (membershipEpoch : Nat)
    (compiled : TurnManifest) : TurnMaterial :=
  let digest := call.readGrantDigest lib compiled.classificationCeiling membershipEpoch
  let manifest := bindProviderInput lib (compiled.granted digest) rows.message.sentence
  ⟨manifest, digest, manifestHash lib manifest call.policyEpoch membershipEpoch, membershipEpoch⟩

def PrepareCall.turn (call : PrepareCall) (material : TurnMaterial) (state : TurnStatus)
    (queueSequence : Option Nat) : TurnRow where
  messageId := call.answerMessageId
  threadId := call.threadId
  requestHash := material.manifestHash
  conversationIntent := call.intent
  authorityRoute := call.authorityRoute
  attempt := 1
  generation := 1
  queueSequence := queueSequence
  status := state

def PrepareCall.grant (call : PrepareCall) (material : TurnMaterial) : GrantReceipt where
  id := call.readGrantId
  kind := .conversationRead
  principal := call.principal
  threadId := call.threadId
  messageId := call.answerMessageId
  attempt := 1
  generation := 1
  classificationCeiling := material.manifest.classificationCeiling
  membershipEpoch := material.membershipEpoch
  policyEpoch := call.policyEpoch
  grantDigest := material.readGrantDigest
  issuedAt := call.now
  expiresAt := material.manifest.workingContext.expiresAt.instant

def PrepareCall.manifestRow (call : PrepareCall) (material : TurnMaterial) : ManifestRow where
  messageId := call.answerMessageId
  attempt := 1
  generation := 1
  manifest := material.manifest
  manifestHash := material.manifestHash
  policyEpoch := call.policyEpoch
  membershipEpoch := material.membershipEpoch

/-- The rows that `prepare_turn` writes. -/
def Store.prepared (s : Store) (call : PrepareCall) (material : TurnMaterial) (occupied : Bool)
    (queueSequence : Option Nat) : Store :=
  { s with
    threads := s.threads.map (fun thread =>
      if occupied && thread.id == call.threadId then
        { thread with nextTurnQueueSequence := thread.nextTurnQueueSequence + 1 }
      else thread)
    answers := s.answers ++ [⟨call.answerMessageId, call.threadId, call.userMessageId⟩]
    turns := s.turns ++ [call.turn material (if occupied then .queued else .ready) queueSequence]
    grants := s.grants ++ [call.grant material]
    manifests := s.manifests ++ [call.manifestRow material] }

/-- `prepare_turn` -/
def prepareTurn (s : Store) (call : PrepareCall) : Except String (Store × PreparedTurn) := do
  let thread ← found (s.threads.find? (fun thread => thread.id == call.threadId))
    "thread disappeared before turn submission"
  let occupied := !(s.lane call.threadId).isEmpty
  let queueSequence := if occupied then some thread.nextTurnQueueSequence else none
  -- The key of the messages, which every row about one refers to.
  if s.mentions call.answerMessageId then
    throw "duplicate key value violates unique constraint"
  let (rows, membershipEpoch) ← s.manifestRows thread call.userMessageId
  let compiled ← compileManifest lib rows call.manifestCall call.moment
  let material := call.material lib rows membershipEpoch compiled
  return (s.prepared call material occupied queueSequence,
    ⟨call.threadId, call.userMessageId, call.answerMessageId, 1, 1,
      if occupied then .queued else .ready, queueSequence⟩)

/-- The renewal of the newest read grant of a message. -/
def Store.renewal (s : Store) (messageId renewalId : String) (now : Int) : Option GrantReceipt :=
  ((s.grants.filter (fun grant => grant.messageId == messageId && grant.kind = .conversationRead)).maxOn?
    (fun grant => grant.issuedAt)).map (fun grant =>
      { grant with id := renewalId, issuedAt := now, expiresAt := now + fiveMinutes })

def TurnRow.moveUp (messageId : String) (turn : TurnRow) : TurnRow :=
  if turn.messageId = messageId ∧ turn.status = .queued then { turn with status := .ready } else turn

/-- `promote_next_turn` -/
def promoteNextTurn (s : Store) (threadId renewalId : String) (now : Int) : Store × Option String :=
  if !(s.lane threadId).isEmpty then (s, none)
  else
    match (s.turns.filter (fun turn => turn.threadId == threadId && turn.status = .queued)).argmin
        (fun turn => turn.queueSequence.getD 0) with
    | none => (s, none)
    | some next =>
      ({ s with
          turns := s.turns.map (TurnRow.moveUp next.messageId)
          grants := s.grants ++ (s.renewal next.messageId renewalId now).toList },
        some next.messageId)

/-- `fail_invalid_manifest` -/
def failInvalidManifest (s : Store) (messageId renewalId : String) (now : Int) : Store :=
  let failed := { s with
    turns := s.turns.map (fun turn =>
      if turn.messageId = messageId ∧ turn.status = .ready then
        { turn with status := .failed, terminalReason := some "MANIFEST_INVALID" }
      else turn) }
  match s.turns.find? (fun turn => turn.messageId == messageId) with
  | none => failed
  | some turn => (promoteNextTurn failed turn.threadId renewalId now).1

/-- `interrupt_turn` -/
def interruptTurn (s : Store) (threadId messageId : String) (attempt generation : Nat)
    (expectedState : TurnStatus) (reason renewalId : String) (now : Int) : Store × Bool :=
  let selected (turn : TurnRow) : Bool := turn.threadId == threadId && turn.messageId == messageId &&
    turn.attempt == attempt && turn.generation == generation && turn.status = expectedState
  if s.turns.any selected then
    ((promoteNextTurn { s with
        turns := s.turns.map (fun turn =>
          if selected turn then
            { turn with status := .interrupted, terminalReason := some reason, leaseOwner := none,
                        leaseToken := none, leaseExpiresAt := none }
          else turn) } threadId renewalId now).1, true)
  else (s, false)

/-- The READY turn of a thread, with the rows that are joined to it. -/
structure ReadyRow where
  turn : TurnRow
  row : ManifestRow
  message : UserMessage

def Store.readyRow (s : Store) (threadId : String) : Option ReadyRow := do
  let turn ← s.turns.find? (fun turn => turn.threadId == threadId && turn.status = .ready)
  let row ← s.manifests.find? (fun row => row.messageId == turn.messageId && row.attempt == turn.attempt)
  let answer ← s.answers.find? (fun answer => answer.id == turn.messageId)
  let message ← s.userMessages.find? (fun message => message.id == answer.inReplyToMessageId)
  return ⟨turn, row, message⟩

inductive Refusal where
  | manifestInvalid | policyRevoked
deriving DecidableEq, Repr

def demand (valid : Bool) (refusal : Refusal) : Except Refusal Unit :=
  if valid then .ok () else .error refusal

def bound {α : Type} (row : Option α) : Except Refusal α := row.elim (.error .manifestInvalid) .ok

/-- The exceptions that the claim of a turn catches. -/
def caught (result : Except String Unit) : Except Refusal Unit :=
  match result with
  | .ok () => .ok ()
  | .error _ => .error .manifestInvalid

def required : List String :=
  ["schema_version", "thread_id", "liaison_message_id", "user_message_id", "reader_principal", "scope",
    "cell_id", "placement_epoch", "purpose", "classification_ceiling", "region", "anchor_ref",
    "conversation_intent", "authority_route", "resolved_references", "source_versions",
    "scope_sequence_high_water", "working_context"]

/-- The newest activation of a compiler. -/
def Store.compiler (s : Store) : Option (Nat × CompilerRevision) :=
  s.bindings.findSome? (fun binding => binding.activated.map (fun revision => (binding.bindingEpoch, revision)))

/-- A receipt for an attempt that has not expired; which one, where there are several, is not said. -/
def Store.grant (s : Store) (turn : TurnRow) (principal : String) (now : Int) : Option GrantReceipt :=
  s.grants.find? (fun grant => grant.messageId == turn.messageId && grant.attempt == turn.attempt &&
    grant.generation == turn.generation && grant.principal == principal && decide (now < grant.expiresAt))

def ReadyRow.expectations (r : ReadyRow) (s : Store) (placement : Placement)
    (compiler : Nat × CompilerRevision) (grant : GrantReceipt) : Expectations where
  hash := r.row.manifestHash
  policyEpoch := r.row.policyEpoch
  membershipEpoch := r.row.membershipEpoch
  scope := s.scope
  cellId := placement.cellId
  placementEpoch := placement.placementEpoch
  readerPrincipal := r.message.authorPrincipal
  purpose := "incident-investigation"
  region := placement.homeRegion
  compilerVersion := compiler.2.compilerVersion
  compilerBindingEpoch := compiler.1
  -- The digests of the revision are overwritten with those of the service.
  bindings := localContextBindings lib
  modelResource := "gemini-3.6-flash"
  readGrantDigest := grant.grantDigest
  scopeSequenceHighWater := r.row.manifest.scopeSequenceHighWater

/-- What a READY turn has to pass, in the order of the source. -/
def ReadyRow.fences (r : ReadyRow) (s : Store) (now : Int) (moment : Datetime) : Except Refusal Unit := do
  let manifest := r.row.manifest
  demand (decide (((manifest.fields lib).map Prod.fst).Perm required) &&
      r.turn.requestHash == r.row.manifestHash &&
      r.row.manifestHash == manifestHash lib manifest r.row.policyEpoch r.row.membershipEpoch)
    .manifestInvalid
  demand (s.membershipEpoch r.turn.threadId r.message.authorPrincipal == some r.row.membershipEpoch)
    .manifestInvalid
  demand (s.policyEpoch r.message.authorPrincipal now == r.row.policyEpoch) .policyRevoked
  let placement ← bound (s.placement.filter (fun placement => placement.lifecycle == "ACTIVE"))
  demand (s.highWater == manifest.scopeSequenceHighWater) .manifestInvalid
  let compiler ← bound s.compiler
  let grant ← bound (s.grant r.turn r.message.authorPrincipal now)
  caught (validateManifestFreshness manifest moment)
  caught (validateManifest lib manifest (r.expectations lib s placement compiler grant))
  demand (manifest.workingContext.contextDigest == providerInputDigest lib manifest r.message.sentence)
    .manifestInvalid

/-- The arguments of `claim_ready_turn`, and what is made for it. -/
structure ClaimCall where
  threadId : String
  owner : String
  serviceRevision : String
  processBootId : String
  providerRequestId : String
  leaseToken : String
  renewalId : String
  /-- `now()` of the transaction, and `datetime.now(UTC)` of the service. -/
  now : Int
  moment : Datetime
  utc : moment.aware = true

structure TurnClaim where
  threadId : String
  userMessageId : String
  answerMessageId : String
  attempt : Nat
  generation : Nat
  leaseToken : String
  principal : String
  question : String
  providerInput : String
  providerInputDigest : String
  providerRequestId : String
  conversationIntent : String
  authorityRoute : String
  policyEpoch : Nat
  resolvedReferences : List Json
  sourceVersions : List (List (String × String))
  scopeSequenceHighWater : Nat

def TurnRow.same (turn other : TurnRow) : Bool :=
  other.messageId == turn.messageId && other.attempt == turn.attempt &&
    other.generation == turn.generation && other.status = .ready

/-- The request to the provider, and the lease. -/
def ReadyRow.start (r : ReadyRow) (s : Store) (call : ClaimCall) : Store :=
  { s with
    providerRequests := s.providerRequests ++ [{
      id := call.providerRequestId
      messageId := r.turn.messageId
      attempt := r.turn.attempt
      generation := r.turn.generation
      manifestHash := r.row.manifestHash
      providerInputDigest := providerInputDigest lib r.row.manifest r.message.sentence
      modelResource := r.row.manifest.workingContext.modelResource
      serviceRevision := call.serviceRevision
      processBootId := call.processBootId }]
    turns := s.turns.map (fun turn =>
      if r.turn.same turn then
        { turn with status := .running, leaseOwner := some call.owner, leaseToken := some call.leaseToken,
                    leaseExpiresAt := some (call.now + fiveMinutes) }
      else turn) }

def ReadyRow.claim (r : ReadyRow) (call : ClaimCall) : TurnClaim where
  threadId := call.threadId
  userMessageId := r.message.id
  answerMessageId := r.turn.messageId
  attempt := r.turn.attempt
  generation := r.turn.generation
  leaseToken := call.leaseToken
  principal := r.message.authorPrincipal
  question := r.message.sentence
  providerInput := providerInputFromManifest lib r.row.manifest r.message.sentence
  providerInputDigest := providerInputDigest lib r.row.manifest r.message.sentence
  providerRequestId := call.providerRequestId
  conversationIntent := r.turn.conversationIntent
  authorityRoute := r.turn.authorityRoute
  policyEpoch := r.row.policyEpoch
  resolvedReferences := r.row.manifest.resolvedReferences
  sourceVersions := r.row.manifest.sourceVersions
  scopeSequenceHighWater := r.row.manifest.scopeSequenceHighWater

/-- `claim_ready_turn` -/
def claimReadyTurn (s : Store) (call : ClaimCall) : Store × Option TurnClaim :=
  match s.readyRow call.threadId with
  | none => (s, none)
  | some r =>
    match r.fences lib s call.now call.moment with
    | .error .manifestInvalid =>
      (failInvalidManifest s r.turn.messageId call.renewalId call.now, none)
    | .error .policyRevoked =>
      ((interruptTurn s call.threadId r.turn.messageId r.turn.attempt r.turn.generation .ready
        "POLICY_REVOKED" call.renewalId call.now).1, none)
    | .ok () => (r.start lib s call, some (r.claim lib call))

variable {lib} {s s' : Store}

theorem found_ok {α : Type} {row : Option α} {message : String} {a : α} :
    found row message = .ok a ↔ row = some a := by
  cases row <;> simp [found]

theorem demand_ok {valid : Bool} {refusal : Refusal} : demand valid refusal = .ok () ↔ valid = true := by
  cases valid <;> simp [demand]

theorem bound_ok {α : Type} {row : Option α} {a : α} : bound row = .ok a ↔ row = some a := by
  cases row <;> simp [bound]

theorem caught_ok {result : Except String Unit} : caught result = .ok () ↔ result = .ok () := by
  cases result <;> simp [caught]

/-- What is found of a turn that passes. -/
theorem ReadyRow.fences_ok {r : ReadyRow} {now : Int} {moment : Datetime} :
    r.fences lib s now moment = .ok () ↔
      (((r.row.manifest.fields lib).map Prod.fst).Perm required ∧ r.turn.requestHash = r.row.manifestHash ∧
        r.row.manifestHash =
          manifestHash lib r.row.manifest r.row.policyEpoch r.row.membershipEpoch) ∧
      s.membershipEpoch r.turn.threadId r.message.authorPrincipal = some r.row.membershipEpoch ∧
      s.policyEpoch r.message.authorPrincipal now = r.row.policyEpoch ∧
      ∃ placement, s.placement.filter (fun placement => placement.lifecycle == "ACTIVE") = some placement ∧
        s.highWater = r.row.manifest.scopeSequenceHighWater ∧
        ∃ compiler, s.compiler = some compiler ∧
          ∃ grant, s.grant r.turn r.message.authorPrincipal now = some grant ∧
            validateManifestFreshness r.row.manifest moment = .ok () ∧
            validateManifest lib r.row.manifest (r.expectations lib s placement compiler grant) = .ok () ∧
            r.row.manifest.workingContext.contextDigest =
              providerInputDigest lib r.row.manifest r.message.sentence := by
  have hunit : ∀ {x : Except Refusal Unit} {f : Unit → Except Refusal Unit},
      x >>= f = .ok () ↔ x = .ok () ∧ f () = .ok () := fun {_ _} =>
    bind_ok.trans ⟨fun ⟨_, h⟩ => h, fun h => ⟨(), h⟩⟩
  simp only [fences, hunit, bind_ok, demand_ok, bound_ok, caught_ok, Bool.and_eq_true, beq_iff_eq,
    decide_eq_true_eq, and_assoc]

/-- Where the rows of a manifest were read. -/
structure RowsRead (s : Store) (threadId userMessageId : String) (rows : ManifestRows)
    (membershipEpoch : Nat) : Prop where
  scope : rows.scope = s.scope
  message : s.userMessages.find? (fun message => message.id == userMessageId) = some rows.message
  membership : s.membershipEpoch threadId rows.message.authorPrincipal = some membershipEpoch
  highWater : rows.scopeSequenceHighWater = s.highWater
  placement : s.placement = some rows.placement
  compiler : s.compiler = some (rows.bindingEpoch, rows.revision)

theorem Store.manifestRows_ok {thread : Thread} {userMessageId : String} {rows : ManifestRows}
    {membershipEpoch : Nat} (h : s.manifestRows thread userMessageId = .ok (rows, membershipEpoch)) :
    RowsRead s thread.id userMessageId rows membershipEpoch := by
  simp only [Store.manifestRows, bind_ok, found_ok, Option.filter_eq_some_iff] at h
  obtain ⟨message, ⟨hmessage, -⟩, epoch, hepoch, placement, ⟨hplacement, -⟩, binding, hbinding, revision,
    hrevision, hrows⟩ := h
  cases hrows
  refine ⟨rfl, hmessage, hepoch, rfl, hplacement, ?_⟩
  obtain ⟨rest, hrest⟩ := List.head?_eq_some_iff.mp hbinding
  simp [Store.compiler, hrest, hrevision]

/-- How a turn was prepared. -/
structure Preparation (lib : ManifestLibrary) (s : Store) (call : PrepareCall) (rows : ManifestRows)
    (membershipEpoch : Nat) (compiled : TurnManifest) (s' : Store) (prepared : PreparedTurn) : Prop where
  unused : s.mentions call.answerMessageId = false
  read : RowsRead s call.threadId call.userMessageId rows membershipEpoch
  made : compileManifest lib rows call.manifestCall call.moment = .ok compiled
  written : s' = s.prepared call (call.material lib rows membershipEpoch compiled)
    (!(s.lane call.threadId).isEmpty) prepared.queueSequence
  thread : prepared.threadId = call.threadId
  user : prepared.userMessageId = call.userMessageId
  answer : prepared.answerMessageId = call.answerMessageId
  state : prepared.state = if !(s.lane call.threadId).isEmpty then .queued else .ready

theorem prepareTurn_ok {call : PrepareCall} {prepared : PreparedTurn}
    (h : prepareTurn lib s call = .ok (s', prepared)) :
    ∃ rows membershipEpoch compiled, Preparation lib s call rows membershipEpoch compiled s' prepared := by
  obtain ⟨thread, hthread, h⟩ := bind_ok.mp h
  have hid : thread.id = call.threadId := by simpa using List.find?_some (found_ok.mp hthread)
  dsimp only at h
  split at h
  · cases h
  · rename_i hunused
    obtain ⟨⟨rows, membershipEpoch⟩, hrows, h⟩ := bind_ok.mp h
    obtain ⟨compiled, hcompiled, h⟩ := bind_ok.mp h
    cases h
    exact ⟨rows, membershipEpoch, compiled, by simpa using hunused, hid ▸ Store.manifestRows_ok hrows,
      hcompiled, rfl, rfl, rfl, rfl, rfl⟩

/-- The rows about a turn, of which it has one each, and the rows its claim compares it with. -/
structure Standing (s : Store) (call : PrepareCall) (rows : ManifestRows) (material : TurnMaterial)
    (turn : TurnRow) (grants : List GrantReceipt) : Prop where
  turns : s.turns.filter (fun turn => turn.messageId == call.answerMessageId) = [turn]
  manifests : s.manifests.filter (fun row => row.messageId == call.answerMessageId) =
    [call.manifestRow material]
  answers : s.answers.filter (fun answer => answer.id == call.answerMessageId) =
    [⟨call.answerMessageId, call.threadId, call.userMessageId⟩]
  grants : s.grants.filter (fun grant => grant.messageId == call.answerMessageId) = grants
  message : s.userMessages.find? (fun message => message.id == call.userMessageId) = some rows.message
  membership : rows.message.authorPrincipal = call.principal →
    s.membershipEpoch call.threadId call.principal = some material.membershipEpoch
  scope : s.scope = rows.scope
  highWater : s.highWater = rows.scopeSequenceHighWater
  placement : s.placement = some rows.placement
  compiler : s.compiler = some (rows.bindingEpoch, rows.revision)

/-- Nothing has changed that the claim of a turn looks at. -/
structure Unchanged (prepared : PreparedTurn) (principal : String) (s s' : Store) : Prop where
  turns : s'.turns.filter (fun turn => turn.messageId == prepared.answerMessageId) =
    s.turns.filter (fun turn => turn.messageId == prepared.answerMessageId)
  manifests : s'.manifests.filter (fun row => row.messageId == prepared.answerMessageId) =
    s.manifests.filter (fun row => row.messageId == prepared.answerMessageId)
  answers : s'.answers.filter (fun answer => answer.id == prepared.answerMessageId) =
    s.answers.filter (fun answer => answer.id == prepared.answerMessageId)
  grants : s'.grants.filter (fun grant => grant.messageId == prepared.answerMessageId) =
    s.grants.filter (fun grant => grant.messageId == prepared.answerMessageId)
  message : s'.userMessages.find? (fun message => message.id == prepared.userMessageId) =
    s.userMessages.find? (fun message => message.id == prepared.userMessageId)
  membership : s'.membershipEpoch prepared.threadId principal = s.membershipEpoch prepared.threadId principal
  scope : s'.scope = s.scope
  sequence : s'.nextSequence = s.nextSequence
  placement : s'.placement = s.placement
  bindings : s'.bindings = s.bindings

variable {call : PrepareCall} {rows : ManifestRows} {material : TurnMaterial} {turn : TurnRow}
  {grants : List GrantReceipt} {prepared : PreparedTurn} {compiled : TurnManifest} {membershipEpoch : Nat}

/-- Rows that no key stands for are not found. -/
theorem filter_key_append {α : Type} {key : α → String} {rows : List α} {id : String} {row : α}
    (hunused : rows.any (fun row => key row == id) = false) (hkey : key row = id) :
    (rows ++ [row]).filter (fun row => key row == id) = [row] := by
  have hrows : rows.filter (fun row => key row == id) = [] := by
    rw [List.filter_eq_nil_iff]
    intro other hother
    simpa using List.any_eq_false.mp hunused other hother
  simp [List.filter_append, hrows, hkey]

theorem Preparation.standing
    (h : Preparation lib s call rows membershipEpoch compiled s' prepared) :
    Standing s' call rows (call.material lib rows membershipEpoch compiled)
      (call.turn (call.material lib rows membershipEpoch compiled)
        (if !(s.lane call.threadId).isEmpty then .queued else .ready) prepared.queueSequence)
      [call.grant (call.material lib rows membershipEpoch compiled)] := by
  have hunused := h.unused
  simp only [Store.mentions, Bool.or_eq_false_iff] at hunused
  obtain ⟨⟨⟨hanswers, hturns⟩, hmanifests⟩, hgrants⟩ := hunused
  rw [h.written]
  exact {
    turns := filter_key_append hturns rfl
    manifests := filter_key_append hmanifests rfl
    answers := filter_key_append hanswers rfl
    grants := filter_key_append hgrants rfl
    message := h.read.message
    membership := fun hauthor => hauthor ▸ h.read.membership
    scope := h.read.scope.symm
    highWater := h.read.highWater.symm
    placement := h.read.placement
    compiler := h.read.compiler }

theorem Standing.unchanged (h : Standing s call rows material turn grants)
    (hthread : prepared.threadId = call.threadId) (huser : prepared.userMessageId = call.userMessageId)
    (hanswer : prepared.answerMessageId = call.answerMessageId)
    (hunchanged : Unchanged prepared call.principal s s') : Standing s' call rows material turn grants := by
  have hu := hunchanged
  obtain ⟨hturns, hmanifests, hanswers, hgrants, hmessage, hmembership, hscope, hsequence, hplacement,
    hbindings⟩ := hu
  rw [hanswer] at hturns hmanifests hanswers hgrants
  rw [huser] at hmessage
  rw [hthread] at hmembership
  exact {
    turns := hturns.trans h.turns
    manifests := hmanifests.trans h.manifests
    answers := hanswers.trans h.answers
    grants := hgrants.trans h.grants
    message := hmessage.trans h.message
    membership := fun hauthor => hmembership.trans (h.membership hauthor)
    scope := hscope.trans h.scope
    highWater := by rw [Store.highWater, hsequence]; exact h.highWater
    placement := hplacement.trans h.placement
    compiler := by rw [Store.compiler, hbindings]; exact h.compiler }

theorem promoteNextTurn_some {threadId renewalId messageId : String} {now : Int}
    (h : promoteNextTurn s threadId renewalId now = (s', some messageId)) :
    s.lane threadId = [] ∧
      (∃ next ∈ s.turns, next.threadId = threadId ∧ next.status = .queued ∧ next.messageId = messageId) ∧
      s' = { s with
        turns := s.turns.map (TurnRow.moveUp messageId)
        grants := s.grants ++ (s.renewal messageId renewalId now).toList } := by
  unfold promoteNextTurn at h
  split at h
  · cases h
  · rename_i hlane
    split at h
    · cases h
    · rename_i next hnext
      cases h
      have hmem := List.mem_filter.mp (List.argmin_mem hnext)
      exact ⟨by simpa using hlane, ⟨next, hmem.1, by simpa using hmem.2⟩, rfl⟩

@[simp] theorem TurnRow.moveUp_messageId {messageId : String} (turn : TurnRow) :
    (turn.moveUp messageId).messageId = turn.messageId := by
  unfold moveUp
  split <;> rfl

/-- A receipt with a new window. -/
def GrantReceipt.renewed (grant : GrantReceipt) (renewalId : String) (now : Int) : GrantReceipt :=
  { grant with id := renewalId, issuedAt := now, expiresAt := now + fiveMinutes }

theorem filter_and {α : Type} {p q : α → Bool} (rows : List α) :
    rows.filter (fun row => p row && q row) = (rows.filter p).filter q := by
  rw [List.filter_filter]
  exact List.filter_congr (fun row _ => Bool.and_comm _ _)

theorem Standing.renewal {grant : GrantReceipt} {renewalId : String} {now : Int}
    (h : Standing s call rows material turn [grant]) (hkind : grant.kind = .conversationRead) :
    s.renewal call.answerMessageId renewalId now = some (grant.renewed renewalId now) := by
  rw [Store.renewal, filter_and, h.grants, List.filter_singleton, decide_eq_true hkind]
  rfl

/-- A turn that is moved up has the lane to itself, and the renewed grant. -/
theorem Standing.promoted {grant : GrantReceipt} {threadId renewalId : String} {now : Int}
    (h : Standing s call rows material turn [grant]) (hgrant : grant = call.grant material)
    (hpromoted : promoteNextTurn s threadId renewalId now = (s', some call.answerMessageId)) :
    Standing s' call rows material { turn with status := .ready } [grant, grant.renewed renewalId now] ∧
      s'.lane threadId = [{ turn with status := .ready }] ∧ turn.threadId = threadId := by
  obtain ⟨hlane, ⟨next, hnext, hthread, hstatus, hid⟩, rfl⟩ := promoteNextTurn_some hpromoted
  obtain rfl : next = turn := by
    have hmem : next ∈ s.turns.filter (fun turn => turn.messageId == call.answerMessageId) :=
      List.mem_filter.mpr ⟨hnext, beq_iff_eq.mpr hid⟩
    rw [h.turns] at hmem
    exact List.mem_singleton.mp hmem
  have hmoved : next.moveUp call.answerMessageId = { next with status := .ready } :=
    if_pos ⟨hid, hstatus⟩
  refine ⟨?_, ?_, hthread⟩
  · refine { h with
      turns := ?_
      grants := ?_ }
    · dsimp only
      rw [List.filter_map]
      simp only [Function.comp_def, TurnRow.moveUp_messageId, h.turns, List.map_singleton, hmoved]
    · dsimp only
      rw [h.renewal (by rw [hgrant]; rfl), List.filter_append, h.grants]
      simp [GrantReceipt.renewed, hgrant, PrepareCall.grant]
  · have hwaiting : s.turns.filter (fun turn => turn.messageId == call.answerMessageId &&
        (turn.threadId == threadId && turn.status = .queued)) = [next] := by
      rw [filter_and, h.turns, List.filter_singleton]
      simp [hthread, hstatus]
    -- Only the turn that is moved up comes into the lane, which was empty.
    have hmoves : s.turns.filter (fun turn => (turn.moveUp call.answerMessageId).threadId == threadId &&
        (turn.moveUp call.answerMessageId).status.inLane) =
        s.turns.filter (fun turn => turn.messageId == call.answerMessageId &&
          (turn.threadId == threadId && turn.status = .queued)) := by
      refine List.filter_congr (fun other hother => ?_)
      have hout := List.filter_eq_nil_iff.mp hlane other hother
      unfold TurnRow.moveUp
      by_cases hup : other.messageId = call.answerMessageId ∧ other.status = .queued
      · simp [hup, TurnStatus.inLane]
      · rw [if_neg hup, eq_false_of_ne_true hout]
        grind
    rw [Store.lane]
    dsimp only
    rw [List.filter_map]
    simp only [Function.comp_def, hmoves, hwaiting, List.map_singleton, hmoved]

theorem find_of_filter {α : Type} {p q : α → Bool} {l : List α} {a : α} (h : l.filter p = [a])
    (hq : ∀ b, q b = true → p b = true) (ha : q a = true) : l.find? q = some a := by
  have hfilter : l.filter q = (l.filter p).filter q := by
    rw [← filter_and]
    exact List.filter_congr (fun b _ => by cases hb : q b <;> simp [hb, hq])
  rw [← List.head?_filter, hfilter, h, List.filter_singleton, ha]
  rfl

/-- The one turn in the lane of its thread, with the rows of its message. -/
theorem Standing.readyRow {state : Option Nat} {status : TurnStatus}
    (h : Standing s call rows material (call.turn material status state) grants)
    (hlane : s.lane call.threadId = [call.turn material status state]) (hready : status = .ready) :
    s.readyRow call.threadId =
      some ⟨call.turn material status state, call.manifestRow material, rows.message⟩ := by
  subst hready
  have hturn : s.turns.find? (fun turn => turn.threadId == call.threadId && turn.status = .ready) =
      some (call.turn material .ready state) := by
    refine find_of_filter hlane (fun turn hturn => ?_) (by simp [PrepareCall.turn])
    simp only [Bool.and_eq_true, decide_eq_true_eq] at hturn
    rw [hturn.1, hturn.2]
    rfl
  have hrow : s.manifests.find? (fun row => row.messageId == call.answerMessageId && row.attempt == 1) =
      some (call.manifestRow material) :=
    find_of_filter h.manifests (fun row hrow => (Bool.and_eq_true_iff.mp hrow).1)
      (by simp [PrepareCall.manifestRow])
  have hanswer := find_of_filter h.answers (fun _ hanswer => hanswer) (beq_self_eq_true _)
  rw [Store.readyRow, hturn]
  simp only [Option.bind_eq_bind, Option.bind_some]
  rw [show (call.turn material .ready state).messageId = call.answerMessageId from rfl,
    show (call.turn material .ready state).attempt = 1 from rfl, hrow, hanswer]
  simp only [Option.bind_some, h.message]
  rfl

section Claim

variable {renewalId : String} {promotedAt now : Int} {queueSequence : Option Nat} {status : TurnStatus}

theorem Standing.mem_grants (h : Standing s call rows material turn
      [call.grant material, (call.grant material).renewed renewalId promotedAt])
    {grant : GrantReceipt} (hgrant : grant ∈ s.grants) (hid : grant.messageId = call.answerMessageId) :
    grant.principal = call.principal ∧ grant.grantDigest = material.readGrantDigest := by
  have hmem : grant ∈ s.grants.filter (fun grant => grant.messageId == call.answerMessageId) :=
    List.mem_filter.mpr ⟨hgrant, beq_iff_eq.mpr hid⟩
  rw [h.grants] at hmem
  rcases List.mem_cons.mp hmem with rfl | hrenewed
  · exact ⟨rfl, rfl⟩
  · rw [List.mem_singleton.mp hrenewed]
    exact ⟨rfl, rfl⟩

/-- A receipt that is found is one for the reader. -/
theorem Standing.grant_some (h : Standing s call rows material turn
      [call.grant material, (call.grant material).renewed renewalId promotedAt]) {principal : String}
    {grant : GrantReceipt} (hgrant : s.grant (call.turn material status queueSequence) principal now = some grant) :
    principal = call.principal ∧ grant.grantDigest = material.readGrantDigest := by
  have hfound := List.find?_some hgrant
  simp only [Bool.and_eq_true, beq_iff_eq] at hfound
  obtain ⟨⟨⟨⟨hid, -⟩, -⟩, hprincipal⟩, -⟩ := hfound
  obtain ⟨hreader, hdigest⟩ := h.mem_grants (List.mem_of_find?_eq_some hgrant) hid
  exact ⟨hprincipal.symm.trans hreader, hdigest⟩

/-- As long as the renewed grant has not expired, there is a receipt. -/
theorem Standing.grant_exists (h : Standing s call rows material turn
      [call.grant material, (call.grant material).renewed renewalId promotedAt])
    (hunexpired : now < promotedAt + fiveMinutes) :
    ∃ grant, s.grant (call.turn material status queueSequence) call.principal now = some grant := by
  have hmem : (call.grant material).renewed renewalId promotedAt ∈
      s.grants.filter (fun grant => grant.messageId == call.answerMessageId) := by
    rw [h.grants]
    simp
  refine Option.isSome_iff_exists.mp (List.find?_isSome.mpr ⟨_, (List.mem_filter.mp hmem).1, ?_⟩)
  simp [GrantReceipt.renewed, PrepareCall.grant, PrepareCall.turn, hunexpired]

/-- What a turn that waited has to be for its claim to succeed. -/
structure Claimable (lib : ManifestLibrary) (s : Store) (call : PrepareCall) (moment : Datetime) : Prop where
  author : ∀ message, s.userMessages.find? (fun message => message.id == call.userMessageId) = some message →
    message.authorPrincipal = call.principal
  active : ∀ placement, s.placement = some placement → placement.lifecycle = "ACTIVE"
  schema : ∀ row ∈ s.manifests, row.messageId = call.answerMessageId →
    lib.schema (.obj (row.manifest.fields lib)) = true
  sources : ∀ row ∈ s.manifests, row.messageId = call.answerMessageId → row.manifest.sourceKeys.Nodup
  fresh : moment.instant < call.moment.instant + fiveMinutes

theorem Standing.claimable_iff {moment : Datetime} (h : Standing s call rows material turn grants)
    (hexpiry : material.manifest.workingContext.expiresAt.instant = call.moment.instant + fiveMinutes) :
    Claimable lib s call moment ↔ rows.message.authorPrincipal = call.principal ∧
      rows.placement.lifecycle = "ACTIVE" ∧
      lib.schema (.obj (material.manifest.fields lib)) = true ∧ material.manifest.sourceKeys.Nodup ∧
      moment.instant < material.manifest.workingContext.expiresAt.instant := by
  have hrow : ∀ row, row ∈ s.manifests ∧ row.messageId = call.answerMessageId ↔
      row = call.manifestRow material := by
    intro row
    have hmem : row ∈ [call.manifestRow material] ↔ _ := h.manifests ▸ List.mem_filter
    rw [List.mem_singleton, beq_iff_eq] at hmem
    exact hmem.symm
  rw [hexpiry]
  constructor
  · rintro ⟨hauthor, hactive, hschema, hsources, hfresh⟩
    obtain ⟨hmem, hid⟩ := (hrow _).mpr rfl
    exact ⟨hauthor _ h.message, hactive _ h.placement, hschema _ hmem hid, hsources _ hmem hid, hfresh⟩
  · rintro ⟨hauthor, hactive, hschema, hsources, hfresh⟩
    refine ⟨fun message hmessage => ?_, fun placement hplacement => ?_, fun row hmem hid => ?_,
      fun row hmem hid => ?_, hfresh⟩
    · rw [h.message] at hmessage
      cases hmessage
      exact hauthor
    · rw [h.placement] at hplacement
      cases hplacement
      exact hactive
    · rw [(hrow row).mp ⟨hmem, hid⟩]
      exact hschema
    · rw [(hrow row).mp ⟨hmem, hid⟩]
      exact hsources

/-- The fences of a turn that has waited. -/
theorem Preparation.fences_iff {s₀ s₁ : Store} {moment : Datetime} (status : TurnStatus)
    (queueSequence : Option Nat)
    (h : Preparation lib s₀ call rows membershipEpoch compiled s₁ prepared)
    (standing : Standing s call rows (call.material lib rows membershipEpoch compiled) turn
      [call.grant (call.material lib rows membershipEpoch compiled),
        (call.grant (call.material lib rows membershipEpoch compiled)).renewed renewalId promotedAt])
    (hpolicy : s.policyEpoch call.principal now = call.policyEpoch)
    (hunexpired : now < promotedAt + fiveMinutes) (hutc : moment.aware = true) :
    (ReadyRow.fences lib ⟨call.turn (call.material lib rows membershipEpoch compiled) status queueSequence,
        call.manifestRow (call.material lib rows membershipEpoch compiled), rows.message⟩ s now moment = .ok ()) ↔
      Claimable lib s call moment := by
  obtain ⟨ceiling, context, hcompiled⟩ := compileManifest_ok h.made
  have hexpiry : (call.material lib rows membershipEpoch compiled).manifest.workingContext.expiresAt.instant =
      call.moment.instant + fiveMinutes := hcompiled.expiry
  rw [standing.claimable_iff hexpiry, ReadyRow.fences_ok]
  -- What was compared at the preparation is compared again, and is the same.
  have hvalid : ∀ grant : GrantReceipt, rows.message.authorPrincipal = call.principal →
      grant.grantDigest = (call.material lib rows membershipEpoch compiled).readGrantDigest →
      (validateManifest lib (call.material lib rows membershipEpoch compiled).manifest
        (ReadyRow.expectations lib
          ⟨call.turn (call.material lib rows membershipEpoch compiled) status queueSequence,
            call.manifestRow (call.material lib rows membershipEpoch compiled), rows.message⟩
          s rows.placement (rows.bindingEpoch, rows.revision) grant) = .ok () ↔
        lib.schema (.obj ((call.material lib rows membershipEpoch compiled).manifest.fields lib)) = true ∧
          (call.material lib rows membershipEpoch compiled).manifest.sourceKeys.Nodup) := by
    intro grant hauthor hdigest
    have hmade := hcompiled.made
    refine validateManifest_iff hcompiled.accepted (hcompiled.agrees {
      hash := rfl
      scope := standing.scope
      cell := rfl
      placementEpoch := rfl
      reader := by rw [hmade]; exact hauthor
      purpose := rfl
      region := rfl
      compilerVersion := rfl
      bindingEpoch := rfl
      bindings := rfl
      model := rfl
      grant := hdigest
      highWater := by rw [hmade]; rfl })
  have hplacement : ∀ placement, s.placement.filter (fun placement => placement.lifecycle == "ACTIVE") =
      some placement ↔ placement = rows.placement ∧ placement.lifecycle = "ACTIVE" := by
    intro placement
    rw [standing.placement, Option.filter_eq_some_iff, Option.some_inj, beq_iff_eq]
    exact and_congr_left (fun _ => eq_comm)
  constructor
  · rintro ⟨-, -, -, placement, hactive, -, compiler, hcompiler, grant, hgrant, hfresh, hmanifest, -⟩
    obtain ⟨rfl, hactive⟩ := (hplacement placement).mp hactive
    obtain ⟨hauthor, hdigest⟩ := standing.grant_some hgrant
    rw [standing.compiler] at hcompiler
    cases hcompiler
    obtain ⟨hschema, hsources⟩ := (hvalid grant hauthor hdigest).mp hmanifest
    have hfresh := firstFailure_ok.mp hfresh
    exact ⟨hauthor, hactive, hschema, hsources,
      of_decide_eq_true (hfresh _ (List.mem_cons_of_mem _ List.mem_cons_self))⟩
  · rintro ⟨hauthor, hactive, hschema, hsources, hfresh⟩
    obtain ⟨grant, hgrant⟩ := standing.grant_exists hunexpired
    refine ⟨⟨List.Perm.of_eq rfl, rfl, rfl⟩, ?_, ?_, rows.placement, (hplacement _).mpr ⟨rfl, hactive⟩, ?_,
      _, standing.compiler, grant, hauthor ▸ hgrant, ?_, ?_, rfl⟩
    · exact hauthor ▸ standing.membership hauthor
    · exact hauthor ▸ hpolicy
    · rw [standing.highWater]
      exact congrArg TurnManifest.scopeSequenceHighWater hcompiled.made.symm
    · rw [validateManifestFreshness, firstFailure_ok]
      simpa using ⟨hutc, hfresh⟩
    · exact (hvalid grant hauthor (standing.grant_some hgrant).2).mpr ⟨hschema, hsources⟩

/-- The claim of a turn came back with it, and did not end it as invalid. -/
def Answered (messageId : String) (outcome : Store × Option TurnClaim) : Prop :=
  (∃ claim, outcome.2 = some claim ∧ claim.answerMessageId = messageId) ∧
    ∀ turn ∈ outcome.1.turns, turn.messageId = messageId → turn.terminalReason ≠ some "MANIFEST_INVALID"

theorem claimReadyTurn_claimed {r : ReadyRow} {claimCall : ClaimCall} {claim : TurnClaim}
    (hready : s.readyRow claimCall.threadId = some r) (h : (claimReadyTurn lib s claimCall).2 = some claim) :
    r.fences lib s claimCall.now claimCall.moment = .ok () := by
  unfold claimReadyTurn at h
  simp only [hready] at h
  cases hfences : r.fences lib s claimCall.now claimCall.moment with
  | ok => rfl
  | error refusal => cases refusal <;> simp only [hfences, reduceCtorEq] at h

theorem claimReadyTurn_of_fences {r : ReadyRow} {claimCall : ClaimCall}
    (hready : s.readyRow claimCall.threadId = some r)
    (hfences : r.fences lib s claimCall.now claimCall.moment = .ok ()) :
    claimReadyTurn lib s claimCall = (r.start lib s claimCall, some (r.claim lib claimCall)) := by
  unfold claimReadyTurn
  simp only [hready, hfences]

theorem Standing.start_reason {r : ReadyRow} {claimCall : ClaimCall}
    (h : Standing s call rows material (call.turn material status queueSequence) grants) :
    ∀ turn ∈ (r.start lib s claimCall).turns, turn.messageId = call.answerMessageId →
      turn.terminalReason = none := by
  intro turn hturn hid
  obtain ⟨before, hbefore, rfl⟩ := List.mem_map.mp hturn
  have hbeforeId : before.messageId = call.answerMessageId := by
    split at hid <;> exact hid
  have hmem : before ∈ s.turns.filter (fun turn => turn.messageId == call.answerMessageId) :=
    List.mem_filter.mpr ⟨hbefore, beq_iff_eq.mpr hbeforeId⟩
  rw [h.turns, List.mem_singleton] at hmem
  subst hmem
  split <;> rfl

/-- A turn that waited in the queue is claimed under its renewed grant exactly when less than
five minutes have passed since it was prepared, its schema, its sources, its author and the
placement being such that it could be claimed at all. -/
theorem waited_claimed_iff {s₀ s₁ s₂ s₃ s₄ : Store} {claimCall : ClaimCall}
    (hprepared : prepareTurn lib s₀ call = .ok (s₁, prepared))
    (hwaited : Unchanged prepared call.principal s₁ s₂)
    (hpromoted : promoteNextTurn s₂ prepared.threadId renewalId promotedAt =
      (s₃, some prepared.answerMessageId))
    (hkept : Unchanged prepared call.principal s₃ s₄)
    (hlane : s₄.lane prepared.threadId = s₃.lane prepared.threadId)
    (hthread : claimCall.threadId = prepared.threadId)
    (hpolicy : s₄.policyEpoch call.principal claimCall.now = call.policyEpoch)
    (hunexpired : claimCall.now < promotedAt + fiveMinutes) :
    Answered prepared.answerMessageId (claimReadyTurn lib s₄ claimCall) ↔
      Claimable lib s₁ call claimCall.moment := by
  obtain ⟨rows, membershipEpoch, compiled, preparation⟩ := prepareTurn_ok hprepared
  have hcall := preparation.thread
  have hanswer := preparation.answer
  have standing₂ := preparation.standing.unchanged hcall preparation.user hanswer hwaited
  rw [hanswer] at hpromoted
  obtain ⟨standing₃, hlane₃, -⟩ := standing₂.promoted rfl hpromoted
  have standing₄ := standing₃.unchanged hcall preparation.user hanswer hkept
  rw [hlane₃, hcall] at hlane
  have hready := Standing.readyRow standing₄ hlane rfl
  -- The rows are those of the preparation, before the wait and after it.
  obtain ⟨ceiling, context, hcompiled⟩ := compileManifest_ok preparation.made
  have hclaimable : Claimable lib s₁ call claimCall.moment ↔ Claimable lib s₄ call claimCall.moment :=
    (preparation.standing.claimable_iff hcompiled.expiry).trans
      (standing₄.claimable_iff hcompiled.expiry).symm
  have hfences := Preparation.fences_iff .ready prepared.queueSequence preparation standing₄ hpolicy
    hunexpired claimCall.utc
  rw [← hcall, ← hthread] at hready
  rw [hclaimable, ← hfences, hanswer]
  constructor
  · rintro ⟨⟨claim, hclaim, -⟩, -⟩
    exact claimReadyTurn_claimed hready hclaim
  · intro hok
    rw [claimReadyTurn_of_fences hready hok]
    refine ⟨⟨_, rfl, rfl⟩, fun turn hturn hid hreason => ?_⟩
    rw [Standing.start_reason standing₄ turn hturn hid] at hreason
    cases hreason

end Claim

section Example

/-- The digests of what is hashed below, told by its shape. -/
def exampleDigest : Json → String
  | .obj [(_, .str revision)] =>
    -- The compiler, the estimator of tokens and the stable prefix.
    if revision.length = 46 then "5925664d93bf85988250484fcb9ee6b5cd2274b15266e002a6bdb7094b61fe82"
    else if revision.length = 24 then "42c5f1895b007e8036306b2154a6fb945744fb725844b771847d621ff6ca3b67"
    else "2ced8d9e726a8c94fdd3f54f634f57a0eec907368d78b5e23f605937a1399c80"
  | .obj [(_, .arr _)] => "ed0bce0c1847f3cf93f410f49a394ee9a404da3ca78693b182c18c88601547af"
  | .obj [_, _] => "272f95c8e6b6a2c430dd25a74e999397a1c5ddb94fca0a1f116bc485af164acc"
  | .obj [_, _, _] => "f0fd82d355417f29acb21d8fa8ea2d005c05f46bda814caf95589484f47555de"
  | .obj _ => "5335a327c44836d0963c1c080de20be5b8a67745898ec2150cf84396477d6c79"
  | _ => "becd738e4bc810dbd33de9fe06b61d2d5d25ef83639b9f71e5add5653afb2c83"

def exampleLibrary : ManifestLibrary where
  canonicalHash j := "sha256:" ++ exampleDigest j
  rfc8785 j := Json.utf8 (Json.dumps j)
  -- Digests of texts are compared only with themselves here.
  sha256 _ := "af13e056a6982b590089d91ebde66d75177f749f5360a6cacf0db73c2d5f4b3e"
  dumps := Json.dumps
  isoformat d := String.ofList (Alerts.timeText d)
  schema _ := true
  templateRegistryDigest := "sha256:d316cd6321de42ab7d94c89cbc20063c70a08781bf0d59ff2166e9326aab23c8"

def exampleStore : Store where
  scope := ⟨"org_demo", "prj_demo", "env_demo"⟩
  threads := [⟨"thr_demo", "RECORD", "incident:INC-1042", 1⟩]
  userMessages := [{
    id := "msg_user"
    threadId := "thr_demo"
    authorPrincipal := "user:operator"
    classification := "INTERNAL"
    contentHash := ""
    payload := [("sentence", .str "And the impact?"), ("authored", .bool true), ("mentions", .arr [])] }]
  answers := [⟨"msg_first", "thr_demo", "msg_earlier"⟩]
  turns := [{
    messageId := "msg_first"
    threadId := "thr_demo"
    requestHash := "sha256:"
    conversationIntent := "LEDGER_QUERY"
    authorityRoute := "ASK"
    attempt := 1
    generation := 1
    queueSequence := none
    status := .running
    leaseOwner := some "api"
    leaseToken := some "lease"
    leaseExpiresAt := some 300000000 }]
  manifests := []
  grants := []
  participants := [⟨"thr_demo", "user:operator", 1, false⟩]
  policyEpoch _ _ := 1
  placement := some ⟨"cell_eu_1", 7, "europe-west1", "CONFIDENTIAL", "ACTIVE"⟩
  nextSequence := some 5
  bindings := [⟨1, some ⟨"liaison-context-v2",
    "sha256:5925664d93bf85988250484fcb9ee6b5cd2274b15266e002a6bdb7094b61fe82",
    "sha256:42c5f1895b007e8036306b2154a6fb945744fb725844b771847d621ff6ca3b67"⟩⟩]
  providerRequests := []

/-- A number of seconds after 1970. -/
def exampleMoment (seconds : Nat) (h : seconds < 1000000) : Datetime where
  wall := 62135596800000000 + seconds * 1000000
  utcoffset := some 0
  inRange := by
    unfold Calendar.maxMicros
    omega

def exampleCall : PrepareCall where
  principal := "user:operator"
  policyEpoch := 1
  threadId := "thr_demo"
  userMessageId := "msg_user"
  intent := "LEDGER_QUERY"
  authorityRoute := "ASK"
  resolvedReferences := []
  sourceVersions := []
  history := []
  compactions := []
  references := []
  answerMessageId := "msg_answer"
  readGrantId := "grt_first"
  now := 0
  moment := exampleMoment 0 (by decide)

/-- The other turns of the thread have come to their end. -/
def exampleWait (s : Store) : Store :=
  { s with
    turns := s.turns.map (fun turn =>
      if turn.messageId = "msg_answer" then turn
      else { turn with status := .completed, terminalReason := some "ANSWER_COMPLETED", leaseOwner := none,
                       leaseToken := none, leaseExpiresAt := none }) }

def exampleClaim (seconds : Nat) (h : seconds < 1000000) : ClaimCall where
  threadId := "thr_demo"
  owner := "api"
  serviceRevision := "revision"
  processBootId := "boot"
  providerRequestId := "prq_first"
  leaseToken := "lease"
  renewalId := "grt_third"
  now := seconds * 1000000
  moment := exampleMoment seconds h
  utc := rfl

/-- The turn that is moved up when the first one has ended, and the one that is claimed then. -/
def exampleOutcome (promoted : Nat) (claim : ClaimCall) : Option (Option String × Option String) :=
  match prepareTurn exampleLibrary exampleStore exampleCall with
  | .error _ => none
  | .ok (s₁, _) =>
    let (s₃, next) := promoteNextTurn (exampleWait s₁) "thr_demo" "grt_second" (promoted * 1000000)
    some (next, (claimReadyTurn exampleLibrary s₃ claim).2.map TurnClaim.answerMessageId)

theorem Unchanged.refl (prepared : PreparedTurn) (principal : String) (s : Store) :
    Unchanged prepared principal s s := ⟨rfl, rfl, rfl, rfl, rfl, rfl, rfl, rfl, rfl, rfl⟩

/-- Other turns may end while one waits. -/
theorem exampleWait_unchanged {prepared : PreparedTurn} (s : Store) (principal : String)
    (hanswer : prepared.answerMessageId = "msg_answer") :
    Unchanged prepared principal s (exampleWait s) := by
  refine { Unchanged.refl prepared principal s with turns := ?_ }
  rw [hanswer, exampleWait]
  dsimp only
  rw [List.filter_map, List.filter_congr (q := fun turn => turn.messageId == "msg_answer")]
  · refine (List.map_congr_left (fun turn hturn => ?_)).trans (List.map_id _)
    exact if_pos (beq_iff_eq.mp (List.mem_filter.mp hturn).2)
  · intro turn _
    dsimp only [Function.comp_apply]
    split <;> rfl

/-- A run of the example up to the claim. -/
theorem example_run {promoted : Nat} {claim : ClaimCall} {claimed : Option String}
    (h : exampleOutcome promoted claim = some (some "msg_answer", claimed)) :
    ∃ s₁ prepared s₃, prepareTurn exampleLibrary exampleStore exampleCall = .ok (s₁, prepared) ∧
      promoteNextTurn (exampleWait s₁) prepared.threadId "grt_second" (promoted * 1000000) =
        (s₃, some prepared.answerMessageId) ∧
      prepared.threadId = "thr_demo" ∧ prepared.answerMessageId = "msg_answer" ∧
      s₃.policyEpoch = (fun _ _ => 1) ∧
      (claimReadyTurn exampleLibrary s₃ claim).2.map TurnClaim.answerMessageId = claimed := by
  unfold exampleOutcome at h
  cases hprepared : prepareTurn exampleLibrary exampleStore exampleCall with
  | error e => rw [hprepared] at h; cases h
  | ok result =>
    obtain ⟨s₁, prepared⟩ := result
    obtain ⟨rows, membershipEpoch, compiled, preparation⟩ := prepareTurn_ok hprepared
    have hthread : prepared.threadId = "thr_demo" := preparation.thread
    have hanswer : prepared.answerMessageId = "msg_answer" := preparation.answer
    rw [hprepared] at h
    simp only [Option.some.injEq, Prod.mk.injEq] at h
    have hpromoted : promoteNextTurn (exampleWait s₁) "thr_demo" "grt_second" (promoted * 1000000) =
        ((promoteNextTurn (exampleWait s₁) "thr_demo" "grt_second" (promoted * 1000000)).1,
          some "msg_answer") := Prod.ext rfl h.1
    refine ⟨s₁, prepared, _, rfl, by rw [hthread, hanswer]; exact hpromoted, hthread, hanswer, ?_, h.2⟩
    obtain ⟨-, -, hwritten⟩ := promoteNextTurn_some hpromoted
    rw [hwritten, preparation.written]
    rfl

theorem example_claimable {s₁ : Store} {prepared : PreparedTurn} {moment : Datetime}
    (hprepared : prepareTurn exampleLibrary exampleStore exampleCall = .ok (s₁, prepared))
    (hfresh : moment.instant < exampleCall.moment.instant + fiveMinutes) :
    Claimable exampleLibrary s₁ exampleCall moment := by
  obtain ⟨rows, membershipEpoch, compiled, preparation⟩ := prepareTurn_ok hprepared
  obtain ⟨ceiling, context, hcompiled⟩ := compileManifest_ok preparation.made
  rw [preparation.written]
  refine ⟨fun message hmessage => ?_, fun placement hplacement => ?_, fun _ _ _ => rfl,
    fun row hrow _ => ?_, hfresh⟩
  · rw [List.mem_singleton.mp (List.mem_of_find?_eq_some hmessage)]
    rfl
  · cases hplacement
    rfl
  · rw [List.mem_singleton.mp hrow, PrepareCall.manifestRow, PrepareCall.material, hcompiled.made]
    exact List.nodup_nil

/-- A turn that waited for a minute is claimed a minute later. -/
theorem waited_minute_claimed :
    ∃ s₁ prepared s₃, prepareTurn exampleLibrary exampleStore exampleCall = .ok (s₁, prepared) ∧
      promoteNextTurn (exampleWait s₁) prepared.threadId "grt_second" 60000000 =
        (s₃, some prepared.answerMessageId) ∧
      Answered prepared.answerMessageId (claimReadyTurn exampleLibrary s₃ (exampleClaim 120 (by decide))) := by
  obtain ⟨s₁, prepared, s₃, hprepared, hpromoted, hthread, hanswer, hpolicy, -⟩ :=
    @example_run 60 (exampleClaim 120 (by decide)) (some "msg_answer") (by decide +kernel)
  exact ⟨s₁, prepared, s₃, hprepared, hpromoted,
    (waited_claimed_iff hprepared (exampleWait_unchanged s₁ _ hanswer) hpromoted (Unchanged.refl _ _ _) rfl
      hthread.symm (congrFun (congrFun hpolicy _) _) (by decide)).mpr
      (example_claimable hprepared (by decide))⟩

/-- Moved up six minutes after it was prepared, it is not: its manifest has expired. -/
theorem waited_six_minutes_lost :
    ¬∀ (lib : ManifestLibrary) (s₀ s₁ s₂ s₃ s₄ : Store) (call : PrepareCall) (prepared : PreparedTurn)
      (claimCall : ClaimCall) (renewalId : String) (promotedAt : Int),
      prepareTurn lib s₀ call = .ok (s₁, prepared) → prepared.state = .queued →
      Unchanged prepared call.principal s₁ s₂ →
      promoteNextTurn s₂ prepared.threadId renewalId promotedAt = (s₃, some prepared.answerMessageId) →
      Unchanged prepared call.principal s₃ s₄ → s₄.lane prepared.threadId = s₃.lane prepared.threadId →
      claimCall.threadId = prepared.threadId →
      s₄.policyEpoch call.principal claimCall.now = call.policyEpoch →
      claimCall.now < promotedAt + fiveMinutes →
      Answered prepared.answerMessageId (claimReadyTurn lib s₄ claimCall) := by
  intro h
  obtain ⟨s₁, prepared, s₃, hprepared, hpromoted, hthread, hanswer, hpolicy, hclaimed⟩ :=
    @example_run 360 (exampleClaim 400 (by decide)) none (by decide +kernel)
  obtain ⟨rows, membershipEpoch, compiled, preparation⟩ := prepareTurn_ok hprepared
  have hqueued : prepared.state = .queued := preparation.state.trans (by decide +kernel)
  obtain ⟨⟨claim, hclaim, -⟩, -⟩ := h exampleLibrary exampleStore s₁ (exampleWait s₁) s₃ s₃ exampleCall
    prepared (exampleClaim 400 (by decide)) "grt_second" 360000000 hprepared hqueued
    (exampleWait_unchanged s₁ _ hanswer) hpromoted (Unchanged.refl _ _ _) rfl hthread.symm
    (congrFun (congrFun hpolicy _) _) (by decide)
  rw [hclaim] at hclaimed
  cases hclaimed

end Example

end Solvan.Liaison.Waiting
