import Solvan.Base.Json.Equal
import Solvan.Base.Machine
import Solvan.Base.Table

/-! Parked requests, and the statements by which one is decided or expires. -/
namespace Solvan.Liaison

abbrev Payload := List (String × Json)

inductive ParkedKind where
  | question | permission | steerConfirmation | subscriptionConfirmation
deriving DecidableEq, Repr

inductive DecisionOutcome where
  | accepted | conflict | replayed | forbidden | widened
deriving DecidableEq, Repr

inductive ParkedStatus where
  | pending | answered | rejected | expired | withdrawn
deriving DecidableEq, Repr

inductive AnswerAudience where
  | initiator | named
deriving DecidableEq, Repr

/-- How values are written out: `str` of a list or a dictionary, and the digest
of a payload. -/
structure Rendering where
  repr : Json → String
  payloadDigest : Payload → String

/-- What `park` writes of a request once and for all. -/
structure ParkedRequest where
  id : String
  kind : ParkedKind
  payload : Payload
  payloadHash : String
  initiatedByPrincipal : String
  answerAudience : AnswerAudience
  namedAnswererPrincipal : Option String
  expectedWorkflowVersion : Option Int
  expectedPlanVersion : Option Int
  bindingId : Option String
  bindingEpoch : Option Int
  expiresAt : Int

/-- A row of `liaison_parked_requests`. -/
structure ParkedRow extends ParkedRequest where
  rowVersion : Int
  status : ParkedStatus
  decidedPayload : Option Payload
  decidedPayloadHash : Option String
  feedback : Option String
  answeredByPrincipal : Option String
  decisionIdempotencyKey : Option String

structure Decision where
  outcome : DecisionOutcome
  requestId : String
  decidedPayload : Option Payload
  decidedPayloadHash : Option String
  reason : String

/-- The arguments of `decide`. -/
structure DecideArgs where
  requestId : String
  principal : String
  accept : Bool
  decidedPayload : Option Payload
  idempotencyKey : Option String
  feedback : Option String
  currentWorkflowVersion : Option Int
  currentPlanVersion : Option Int
  bindingEpoch : Option Int
  now : Int

/-- `str` -/
def pyStr (env : Rendering) : Json → String
  | .str s => s
  | .null => "None"
  | .bool true => "True"
  | .bool false => "False"
  | .int n => String.ofList (Json.intText n)
  | .float x => String.ofList x.text
  | j => env.repr j

/-- One value of `is_narrowing`. -/
def narrows (env : Rendering) (value original : Json) : Bool :=
  match value, original with
  | .arr values, .arr originals =>
    values.all (fun v => (originals.map (pyStr env)).contains (pyStr env v))
  | _, _ => value.equal original

/-- `is_narrowing` -/
def isNarrowing (env : Rendering) (displayed decided : Payload) : Bool :=
  (displayed.all (fun f => (decided.lookup f.1).isSome) &&
    decided.all (fun f => (displayed.lookup f.1).isSome)) &&
    decided.all (fun f => (displayed.lookup f.1).any (narrows env f.2))

/-- The row that `park` inserts. -/
def park (env : Rendering) (request : ParkedRequest) : ParkedRow :=
  { request with
    payloadHash := env.payloadDigest request.payload
    rowVersion := 1
    status := .pending
    decidedPayload := none
    decidedPayloadHash := none
    feedback := none
    answeredByPrincipal := none
    decisionIdempotencyKey := none }

/-- `may_answer` -/
def mayAnswer (request : ParkedRequest) (principal : String) : Bool :=
  if request.kind = .steerConfirmation then true
  else if request.answerAudience = .named then
    principal == request.initiatedByPrincipal || request.namedAnswererPrincipal == some principal
  else principal == request.initiatedByPrincipal

/-- A string that is there and not empty. -/
def truthy (key : Option String) : Bool := key.any (fun k => k != "")

/-- Whether the replay branch is entered. -/
def ParkedRow.replayable (request : ParkedRow) (call : DecideArgs) : Bool :=
  (request.status == .answered || request.status == .rejected) && truthy call.idempotencyKey

/-- What was decided, or what was shown where nothing, or an empty payload, is recorded. -/
def ParkedRow.replayed (request row : ParkedRow) : Payload :=
  match row.decidedPayload with
  | some (f :: fs) => f :: fs
  | _ => request.payload

/-- What the replay branch reads, and what it returns if the key is the recorded one. -/
def ParkedRow.replay (env : Rendering) (request row : ParkedRow) (call : DecideArgs) :
    Option Decision :=
  if row.decisionIdempotencyKey = call.idempotencyKey then
    some
      { outcome := .replayed
        requestId := call.requestId
        decidedPayload := some (request.replayed row)
        decidedPayloadHash := some (env.payloadDigest (request.replayed row))
        reason := "" }
  else none

def Decision.refused (outcome : DecisionOutcome) (call : DecideArgs) (reason : String) : Decision where
  outcome := outcome
  requestId := call.requestId
  decidedPayload := none
  decidedPayloadHash := none
  reason := reason

/-- What is refused before the database is asked. -/
def ParkedRow.refusal (env : Rendering) (request : ParkedRow) (call : DecideArgs) :
    Option Decision :=
  if mayAnswer request.toParkedRequest call.principal = false then
    some (.refused .forbidden call "this request is not addressed to you")
  else if call.decidedPayload.any (fun decided => !isNarrowing env request.payload decided) then
    some (.refused .widened call "a decision may narrow what was shown, never widen it")
  else none

/-- What a call decides: what was shown, or what it narrowed it to. -/
def DecideArgs.payload (call : DecideArgs) (request : ParkedRequest) : Payload :=
  call.decidedPayload.getD request.payload

/-- A version that a row names is presented. -/
def presents (expected current : Option Int) : Bool := expected.isNone || expected == current

/-- The `WHERE` of the conditional update. -/
def ParkedRow.admits (row request : ParkedRow) (call : DecideArgs) : Bool :=
  row.status == .pending && decide (call.now < row.expiresAt) &&
    row.rowVersion == request.rowVersion && row.payloadHash == request.payloadHash &&
    (row.bindingId.isNone && row.bindingEpoch.isNone ||
      row.bindingId.isSome && row.bindingEpoch.isSome && row.bindingEpoch == call.bindingEpoch) &&
    presents row.expectedWorkflowVersion call.currentWorkflowVersion &&
    presents row.expectedPlanVersion call.currentPlanVersion

/-- What the conditional update sets. -/
def ParkedRow.decided (env : Rendering) (row request : ParkedRow) (call : DecideArgs) : ParkedRow :=
  { row with
    status := if call.accept then .answered else .rejected
    decidedPayload := some (call.payload request.toParkedRequest)
    decidedPayloadHash := some (env.payloadDigest (call.payload request.toParkedRequest))
    feedback := call.feedback
    answeredByPrincipal := some call.principal
    decisionIdempotencyKey := call.idempotencyKey
    rowVersion := row.rowVersion + 1 }

/-- The decision of a call whose update hit the row. -/
def DecideArgs.won (env : Rendering) (call : DecideArgs) (request : ParkedRow) : Decision where
  outcome := .accepted
  requestId := call.requestId
  decidedPayload := some (call.payload request.toParkedRequest)
  decidedPayloadHash := some (env.payloadDigest (call.payload request.toParkedRequest))
  reason := if call.accept then "" else "rejected by the decider"

def DecideArgs.lost (call : DecideArgs) : Decision :=
  .refused .conflict call "the request expired, was already decided, or its context moved on"

def DecideArgs.unknown (call : DecideArgs) : Decision :=
  .refused .conflict call "no such request"

/-- `decide`, where nothing comes between its statements. -/
def ParkedRow.decide (env : Rendering) (row : ParkedRow) (call : DecideArgs) :
    ParkedRow × Decision :=
  match if row.replayable call then row.replay env row call else none with
  | some decision => (row, decision)
  | none =>
    match row.refusal env call with
    | some decision => (row, decision)
    | none =>
      if row.admits row call then (row.decided env row call, call.won env row)
      else (row, call.lost)

/-- `expire_due` on one row. -/
def ParkedRow.expireDue (now : Int) (row : ParkedRow) : ParkedRow :=
  if row.status = .pending ∧ row.expiresAt ≤ now then { row with status := .expired } else row

/-- Where a call of `decide` is: which statement it comes to next. -/
inductive DecideStage where
  | get
  | replay (request : ParkedRow)
  | update (request : ParkedRow)
  | returned (decision : Decision)

structure DecideCall where
  number : Nat
  args : DecideArgs
  stage : DecideStage

/-- One parked request and the calls on it. -/
structure Parked where
  row : Option ParkedRow
  calls : List DecideCall

inductive ParkedMove where
  | park (request : ParkedRequest)
  | call (args : DecideArgs)
  | statement (number : Nat)
  | expireDue (now : Int)

/-- After the row is read: the replay branch, or what is refused, or the update. -/
def DecideArgs.fetched (call : DecideArgs) (request : ParkedRow) : DecideStage :=
  if request.replayable call then .replay request else .update request

/-- The next statement of a call. -/
def DecideCall.next (env : Rendering) (row : Option ParkedRow) (call : DecideCall) :
    Option (Option ParkedRow × DecideStage) :=
  match call.stage with
  | .get =>
    match row with
    | none => some (none, .returned call.args.unknown)
    | some r => some (some r, call.args.fetched r)
  | .replay request =>
    match row.bind (fun r => request.replay env r call.args) with
    | some decision => some (row, .returned decision)
    | none => some (row, .update request)
  | .update request =>
    match request.refusal env call.args with
    | some decision => some (row, .returned decision)
    | none =>
      match row with
      | some r =>
        if r.admits request call.args then
          some (some (r.decided env request call.args), .returned (call.args.won env request))
        else some (some r, .returned call.args.lost)
      | none => some (none, .returned call.args.lost)
  | .returned _ => none

def Parked.next (env : Rendering) (s : Parked) : ParkedMove → Option Parked
  | .park request =>
    match s.row with
    | none => some { s with row := some (Liaison.park env request) }
    | some _ => none
  | .call args => some { s with calls := s.calls ++ [⟨s.calls.length, args, .get⟩] }
  | .statement number => do
    let call ← Table.find DecideCall.number number s.calls
    let (row, stage) ← call.next env s.row
    some
      { row := row
        calls := Table.update (fun c => c.number == number) (fun c => { c with stage := stage })
          s.calls }
  | .expireDue now => some { s with row := s.row.map (ParkedRow.expireDue now) }

def parked (env : Rendering) : Machine Parked ParkedMove :=
  Machine.ofFn (fun s => s = ⟨none, []⟩) (Parked.next env)

end Solvan.Liaison
