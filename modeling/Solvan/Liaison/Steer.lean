import Solvan.Liaison.Parked

/-! A drafted step that waits for a person, and what is submitted to the
coordinator once one has decided. -/
namespace Solvan.Liaison

/-- The typed step a principal is shown. -/
structure SteerDraft where
  purpose : String
  agent : String
  toolProfile : List String
  budget : String
  anchorRecordType : String
  anchorRecordId : String
  dependencies : List String

def SteerDraft.payload (draft : SteerDraft) : Payload :=
  [("purpose", .str draft.purpose), ("agent", .str draft.agent),
    ("tool_profile", .arr (draft.toolProfile.map .str)), ("budget", .str draft.budget),
    ("anchor_record_type", .str draft.anchorRecordType),
    ("anchor_record_id", .str draft.anchorRecordId),
    ("dependencies", .arr (draft.dependencies.map .str))]

/-- `READ_ONLY_TOOL_PROFILES` -/
def readOnlyToolProfiles : List String :=
  ["metrics.read", "logs.read", "traces.read", "config.read", "inventory.read"]

/-- `draft_is_read_only` -/
def draftIsReadOnly (draft : SteerDraft) : Bool :=
  !draft.toolProfile.isEmpty && draft.toolProfile.all readOnlyToolProfiles.contains

/-- The envelope of a `SteerSubmissionGrant` with the step it asks for. -/
structure Envelope where
  parkedRequestId : String
  decidedPayloadHash : String
  initiatingPrincipal : String
  confirmingPrincipal : String
  expectedWorkflowVersion : Option Int
  expectedPlanVersion : Option Int
  nonce : String
  step : Payload

/-- A row that `liaison.steer.submit` leaves in the operation ledger, and what
`confirm` returns. -/
structure SteerSubmission where
  parkedRequestId : String
  envelope : Envelope
  inboxId : String

/-- A row of `inbox_events`. -/
structure InboxEvent where
  id : String
  sourceEventId : String
  envelope : Envelope

structure SteerStore where
  requests : List ParkedRow
  nonces : List String
  ledger : List SteerSubmission
  inbox : List InboxEvent

/-- The arguments of `park_draft`, with the principal's epoch and the identifier
it comes to. -/
structure DraftArgs where
  requestId : String
  draft : SteerDraft
  principal : String
  expectedWorkflowVersion : Option Int
  expectedPlanVersion : Option Int
  policyEpoch : Int
  expiresAt : Int

/-- The arguments of `confirm`, with what it reads of the principal's role and
epoch and the identifiers it mints. -/
structure ConfirmArgs where
  requestId : String
  confirmingPrincipal : String
  decidedPayload : Option Payload
  idempotencyKey : Option String
  currentWorkflowVersion : Option Int
  currentPlanVersion : Option Int
  holdsOperatorRole : Bool
  policyEpoch : Int
  nonce : String
  inboxId : String
  now : Int

/-- What `park_draft` shows. -/
def DraftArgs.displayedPayload (args : DraftArgs) : Payload :=
  args.draft.payload ++
    [("kind", .str "STEER_CONFIRMATION"), ("request_id", .str args.requestId)]

def DraftArgs.request (args : DraftArgs) : ParkedRequest where
  id := args.requestId
  kind := .steerConfirmation
  payload := args.displayedPayload
  payloadHash := ""
  initiatedByPrincipal := args.principal
  answerAudience := .initiator
  namedAnswererPrincipal := none
  expectedWorkflowVersion := args.expectedWorkflowVersion
  expectedPlanVersion := args.expectedPlanVersion
  bindingId := some ("principal:" ++ args.principal)
  bindingEpoch := some args.policyEpoch
  expiresAt := args.expiresAt

/-- `park_draft` -/
def SteerStore.parkDraft (env : Rendering) (s : SteerStore) (args : DraftArgs) :
    Option SteerStore :=
  if !draftIsReadOnly args.draft then none
  else if s.requests.any (fun row => row.id == args.requestId) then none
  else some { s with requests := s.requests ++ [park env args.request] }

/-- The arguments with which `confirm` calls `decide`. -/
def ConfirmArgs.decides (args : ConfirmArgs) : DecideArgs where
  requestId := args.requestId
  principal := args.confirmingPrincipal
  accept := true
  decidedPayload := args.decidedPayload
  idempotencyKey := args.idempotencyKey
  feedback := none
  currentWorkflowVersion := args.currentWorkflowVersion
  currentPlanVersion := args.currentPlanVersion
  bindingEpoch := some args.policyEpoch
  now := args.now

/-- Whether a value counts as true. -/
def pyTruthy : Json → Bool
  | .null => false
  | .bool b => b
  | .int n => n != 0
  | .float x => x.scaled.1 != 0
  | .str s => s != ""
  | .arr items => !items.isEmpty
  | .obj fields => !fields.isEmpty

/-- `set(map(str, step.get("tool_profile") or ()))`; none where that cannot be
iterated over. -/
def toolProfile (env : Rendering) (step : Payload) : Option (List String) :=
  match step.lookup "tool_profile" with
  | none => some []
  | some value =>
    if !pyTruthy value then some []
    else
      match value with
      | .arr items => some (items.map (pyStr env))
      | .str s => some (s.toList.map String.singleton)
      | .obj fields => some (fields.map Prod.fst)
      | _ => none

/-- A step that asks for no tool but the read-only ones. -/
def requestsReadOnly (env : Rendering) (step : Payload) : Bool :=
  (toolProfile env step).any (fun tools => tools.all readOnlyToolProfiles.contains)

/-- The envelope of the grant that `confirm` mints and consumes. -/
def ConfirmArgs.envelope (args : ConfirmArgs) (row : ParkedRow) (decision : Decision) : Envelope where
  parkedRequestId := args.requestId
  decidedPayloadHash := decision.decidedPayloadHash.getD "None"
  initiatingPrincipal := row.initiatedByPrincipal
  confirmingPrincipal := args.confirmingPrincipal
  expectedWorkflowVersion := row.expectedWorkflowVersion
  expectedPlanVersion := row.expectedPlanVersion
  nonce := args.nonce
  step := decision.decidedPayload.getD []

/-- `_submit_to_coordinator_inbox` -/
def SteerStore.submit (s : SteerStore) (requestId inboxId : String) (envelope : Envelope) :
    Option (SteerStore × SteerSubmission) :=
  let ledger := if s.ledger.any (fun entry => entry.parkedRequestId == requestId) then s.ledger
    else s.ledger ++ [⟨requestId, envelope, inboxId⟩]
  match Table.find SteerSubmission.parkedRequestId requestId ledger with
  | none => none
  | some existing =>
    let inbox := if s.inbox.any (fun event => event.sourceEventId == requestId) then s.inbox
      else s.inbox ++ [⟨existing.inboxId, requestId, existing.envelope⟩]
    some ({ s with ledger := ledger, inbox := inbox }, existing)

def SteerStore.setRequest (s : SteerStore) (row : ParkedRow) : SteerStore :=
  { s with requests := Table.update (fun r => r.id == row.id) (fun _ => row) s.requests }

/-- What `confirm` does once its decision stands. -/
def SteerStore.release (env : Rendering) (s : SteerStore) (args : ConfirmArgs) (row : ParkedRow)
    (decision : Decision) : Option (SteerStore × SteerSubmission) :=
  if s.nonces.contains args.nonce then none
  else if !requestsReadOnly env (decision.decidedPayload.getD []) then none
  else
    SteerStore.submit { s with nonces := s.nonces ++ [args.nonce] } args.requestId args.inboxId
      (args.envelope row decision)

/-- What `confirm` makes of a decision. -/
def SteerStore.conclude (env : Rendering) (s : SteerStore) (args : ConfirmArgs) (row : ParkedRow)
    (decision : Decision) : Option (SteerStore × SteerSubmission) :=
  match decision.outcome with
  | .widened | .forbidden | .conflict => none
  | .replayed =>
    match Table.find SteerSubmission.parkedRequestId args.requestId s.ledger with
    | some stored => some (s, stored)
    | none => s.release env args row decision
  | .accepted => s.release env args row decision

/-- `confirm`, in the transaction that is rolled back where it is refused. -/
def SteerStore.confirm (env : Rendering) (s : SteerStore) (args : ConfirmArgs) :
    Option (SteerStore × SteerSubmission) := do
  let row ← Table.find (fun row => row.id) args.requestId s.requests
  if row.kind ≠ .steerConfirmation ∨ args.holdsOperatorRole = false then none
  else
    (s.setRequest (row.decide env args.decides).1).conclude env args row
      (row.decide env args.decides).2

inductive SteerMove where
  | parkDraft (args : DraftArgs)
  | decide (args : DecideArgs)
  | expireDue (now : Int)
  | confirm (args : ConfirmArgs)

def SteerStore.next (env : Rendering) (s : SteerStore) : SteerMove → Option SteerStore
  | .parkDraft args => s.parkDraft env args
  | .decide args => do
    let row ← Table.find (fun row => row.id) args.requestId s.requests
    some (s.setRequest (row.decide env args).1)
  | .expireDue now => some { s with requests := s.requests.map (ParkedRow.expireDue now) }
  | .confirm args => (s.confirm env args).map Prod.fst

def SteerStore.empty : SteerStore := ⟨[], [], [], []⟩

def steers (env : Rendering) : Machine SteerStore SteerMove :=
  Machine.ofFn (fun s => s = .empty) (SteerStore.next env)

end Solvan.Liaison
