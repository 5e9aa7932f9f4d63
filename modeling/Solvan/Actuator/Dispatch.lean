import Solvan.Actuator.Store

namespace Solvan.Actuator
open Domain (Mapping)
open Mitigation (TargetEpochRow StandingPreauthorizationRow)
open Workflow (ActionRow ActionStatus IncidentRow)

structure TargetObservation where
  stateRef : String
  version : String
deriving DecidableEq, Repr

structure PredictedEffect where
  descriptor : Mapping
  connectorRevision : String

structure ActuatorDispatch where
  dispatchId : String
  effectReceiptId : String
  actuatorId : String
  reservation : TargetReservation
  material : ActionRow
  idempotencyKey : String
  phase : DispatchPhase
  policyHash : String
  requestHash : String
  expectedEffectHash : String
  predictedEffectHash : String
  connectorRevision : String
  beforeState : TargetObservation
  customerAuditSinkRef : String
  leaseToken : Token
  startedAt : Int
  connectorRequestId : Option String
  connectorReturnedAt : Option Int
  traceId : Option String

def check (ok : Bool) (error : ExecutionError) : Except ExecutionError Unit :=
  if ok then .ok () else .error error

variable (hash : Json → String)

def TargetObservation.contentHash (o : TargetObservation) : String :=
  hash (.obj [("state_ref", .str o.stateRef), ("version", .str o.version)])

def PredictedEffect.contentHash (p : PredictedEffect) : String := hash (.obj p.descriptor)

def requestHash (actionId actuatorId beforeStateHash connectorRevision expectedEffectHash
    idempotencyKey predictedEffectHash reservationId : String) : String :=
  hash (.obj [("action_id", .str actionId), ("actuator_id", .str actuatorId),
    ("before_state_hash", .str beforeStateHash), ("connector_revision", .str connectorRevision),
    ("expected_effect_hash", .str expectedEffectHash), ("idempotency_key", .str idempotencyKey),
    ("predicted_effect_hash", .str predictedEffectHash), ("reservation_id", .str reservationId)])

def RegistrationRow.canRemediate (r : RegistrationRow) : Bool :=
  r.status == .active && r.posture == .remediate && r.productionEligible && !r.killSwitchEngaged

/-- The policy hash and audit sink of an actuator that may remediate. -/
def remediationPolicy (db : Database) (actuatorId : String) : Option (String × String) :=
  db.registrations.findSome? (fun r =>
    if r.id == actuatorId && r.canRemediate then do
      return (← r.policyHash, ← r.customerAuditSinkRef)
    else none)

def DispatchRow.isOutstanding (d : DispatchRow) : Bool :=
  match d.status with
  | .outstanding _ => true
  | _ => false

/-- The unique indexes a new dispatch and its effect receipt could violate. -/
def dispatchTaken (db : Database) (actuatorId actionId dispatchId effectReceiptId : String) : Bool :=
  db.dispatches.any (fun d => d.id == dispatchId || d.actionId == actionId ||
    d.actuatorId == actuatorId && d.isOutstanding) ||
  db.effectReceipts.any (fun e => e.id == effectReceiptId || e.dispatchId == dispatchId)

/-- The reservation is still the caller's, expired or not. -/
def ReservationRow.ownedBy (reservation : TargetReservation) (r : ReservationRow) : Bool :=
  r.id == reservation.reservationId && r.leaseToken == reservation.leaseToken && r.active

def extended (db : Database) (reservation : TargetReservation) (ttlMs : Nat) : Database :=
  { db with
    reservations := Table.update (ReservationRow.ownedBy reservation)
      (fun r => { r with expiresAt := ttl db ttlMs }) db.reservations }

/-- `extend_reservation`, whose loss is reported differently by its callers. -/
def extendReservation (db : Database) (reservation : TargetReservation) (ttlMs : Nat)
    (message : String) : Except ExecutionError Database :=
  if db.reservations.any (ReservationRow.ownedBy reservation) then
    .ok (extended db reservation ttlMs)
  else .error (.reservationLost message)

def newDispatch (db : Database) (reservation : TargetReservation) (material : ActionRow)
    (actuatorId owner : String) (before : TargetObservation) (prediction : PredictedEffect)
    (traceId : Option String) (ttlMs : Nat) (dispatchId policyHash : String) (token : Token) :
    DispatchRow where
  id := dispatchId
  actuatorId
  actionId := reservation.actionId
  reservationId := reservation.reservationId
  dispatchedAt := db.now
  leaseExpiresAt := ttl db ttlMs
  leaseOwner := owner
  leaseToken := token
  dispatchPolicyHash := policyHash
  expectedEffectHash := material.expectedEffect.contentHash
  connectorRevision := prediction.connectorRevision
  requestHash := requestHash hash reservation.actionId actuatorId (before.contentHash hash)
    prediction.connectorRevision material.expectedEffect.contentHash material.idempotencyKey
    (prediction.contentHash hash) reservation.reservationId
  mutationStartedAt := none
  connectorRequestId := none
  connectorReturnedAt := none
  traceId
  status := .outstanding .prepared

def newEffectReceipt (db : Database) (before : TargetObservation) (prediction : PredictedEffect)
    (dispatchId effectReceiptId policyHash : String) : EffectReceiptRow where
  id := effectReceiptId
  dispatchId
  policyHash
  beforeStateRef := before.stateRef
  beforeStateHash := before.contentHash hash
  predictedEffectHash := prediction.contentHash hash
  startedAt := db.now
  executionReceiptId := none
  afterStateRef := none
  customerAuditRef := none
  completedAt := none
  errorClass := none

/-- `prepare_dispatch` -/
def prepareDispatch (db : Database) (reservation : TargetReservation) (material : ActionRow)
    (actuatorId owner : String) (before : TargetObservation) (prediction : PredictedEffect)
    (traceId : Option String) (ttlMs : Nat) (dispatchId effectReceiptId : String) (token : Token) :
    Called ActuatorDispatch :=
  transaction db do
    check (1 ≤ ttlMs) (.valueError "dispatch TTL must be positive")
    check (material.id == reservation.actionId)
      (.valueError "dispatch authority does not own the reservation")
    match remediationPolicy db actuatorId with
    | none => .error (.reservationConflict "actuator is not active for remediation")
    | some (policyHash, sink) => do
      check (db.reservations.any (fun r => r.ownedBy reservation &&
          r.actionId == reservation.actionId && r.ownerIdentity == reservation.ownerIdentity &&
          decide (db.now ≤ r.expiresAt)))
        (.reservationLost "reservation was lost before dispatch preparation")
      check (!dispatchTaken db actuatorId reservation.actionId dispatchId effectReceiptId)
        (.reservationConflict "action or actuator already has a dispatch")
      let row := newDispatch hash db reservation material actuatorId owner before prediction traceId
        ttlMs dispatchId policyHash token
      let effect := newEffectReceipt hash db before prediction dispatchId effectReceiptId policyHash
      let db ← extendReservation
        { db with
          dispatches := db.dispatches ++ [row]
          effectReceipts := db.effectReceipts ++ [effect] }
        reservation ttlMs "reservation was lost during dispatch preparation"
      return (db,
        { dispatchId
          effectReceiptId
          actuatorId
          reservation := { reservation with expiresAt := ttl db ttlMs }
          material
          idempotencyKey := material.idempotencyKey
          phase := .prepared
          policyHash
          requestHash := row.requestHash
          expectedEffectHash := row.expectedEffectHash
          predictedEffectHash := effect.predictedEffectHash
          connectorRevision := row.connectorRevision
          beforeState := before
          customerAuditSinkRef := sink
          leaseToken := token
          startedAt := db.now
          connectorRequestId := none
          connectorReturnedAt := none
          traceId })

/-- What `claim_recovery` selects: an outstanding dispatch with the rows it is
joined to. -/
structure RecoveryRow where
  dispatch : DispatchRow
  phase : DispatchPhase
  effect : EffectReceiptRow
  registration : RegistrationRow
  action : ActionRow

def recoveryRow (db : Database) (actionId actuatorId : String) : Option RecoveryRow := do
  let dispatch ← db.dispatches.find? (fun d => d.actionId == actionId &&
    d.actuatorId == actuatorId && d.isOutstanding)
  let phase ← match dispatch.status with
    | .outstanding phase => some phase
    | _ => none
  let effect ← db.effectReceipts.find? (fun e => e.dispatchId == dispatch.id)
  let registration ← db.registrations.find? (fun r => r.id == actuatorId)
  let action ← db.actions.find? (fun a => a.id == actionId)
  return ⟨dispatch, phase, effect, registration, action⟩

/-- The lease on a dispatch and on its reservation change hands. -/
def takenOver (db : Database) (actionId owner : String) (ttlMs : Nat) (row : DispatchRow)
    (dispatchToken reservationToken : Token) : Database :=
  { db with
    dispatches := Table.update
      (fun d => d.id == row.id && d.leaseToken == row.leaseToken &&
        decide (d.leaseExpiresAt < db.now) && d.isOutstanding)
      (fun d => { d with
        leaseOwner := owner
        leaseToken := dispatchToken
        leaseExpiresAt := ttl db ttlMs }) db.dispatches
    reservations := Table.update
      (fun r => r.id == row.reservationId && r.actionId == actionId && r.active)
      (fun r => { r with
        ownerIdentity := owner
        leaseToken := reservationToken
        expiresAt := ttl db ttlMs }) db.reservations }

def recoveredDispatch (db : Database) (actionId actuatorId owner : String) (ttlMs : Nat)
    (row : RecoveryRow) (reserved : ReservationRow) (dispatchToken reservationToken : Token) :
    ActuatorDispatch where
  dispatchId := row.dispatch.id
  effectReceiptId := row.effect.id
  actuatorId
  reservation :=
    { reservationId := row.dispatch.reservationId
      actionId
      targetKey := reserved.targetKey
      expectedTargetEpoch := reserved.expectedTargetEpoch
      reservationEpoch := reserved.reservationEpoch
      ownerIdentity := owner
      leaseToken := reservationToken
      expiresAt := ttl db ttlMs }
  material := row.action
  idempotencyKey := row.action.idempotencyKey
  phase := row.phase
  policyHash := row.dispatch.dispatchPolicyHash
  requestHash := row.dispatch.requestHash
  expectedEffectHash := row.dispatch.expectedEffectHash
  predictedEffectHash := row.effect.predictedEffectHash
  connectorRevision := row.dispatch.connectorRevision
  beforeState := ⟨row.effect.beforeStateRef, row.action.expectedTargetVersion⟩
  customerAuditSinkRef := row.registration.customerAuditSinkRef.getD "None"
  leaseToken := dispatchToken
  startedAt := row.dispatch.mutationStartedAt.getD row.effect.startedAt
  connectorRequestId := row.dispatch.connectorRequestId
  connectorReturnedAt := row.dispatch.connectorReturnedAt
  traceId := row.dispatch.traceId

/-- The hashes a recovered dispatch was bound to. -/
def checkDrift (actionId actuatorId : String) (row : RecoveryRow) (before : TargetObservation) :
    Except ExecutionError Unit := do
  check (before.contentHash hash == row.effect.beforeStateHash)
    (.reservationConflict "dispatch before-state hash drifted")
  check (requestHash hash actionId actuatorId (before.contentHash hash)
      row.dispatch.connectorRevision row.action.expectedEffect.contentHash
      row.action.idempotencyKey row.effect.predictedEffectHash row.dispatch.reservationId ==
        row.dispatch.requestHash)
    (.reservationConflict "dispatch request hash drifted")

/-- `claim_recovery`. The hashes are checked once the takeover is committed. -/
def claimRecovery (db : Database) (actionId actuatorId owner : String) (ttlMs : Nat)
    (dispatchToken reservationToken : Token) : Called (Option ActuatorDispatch) :=
  if ttlMs < 1 then (db, .error (.valueError "dispatch TTL must be positive"))
  else
    match recoveryRow db actionId actuatorId with
    | none => (db, .ok none)
    | some row =>
      if db.now ≤ row.dispatch.leaseExpiresAt then
        (db, .error (.reservationConflict "dispatch recovery claim was lost"))
      else
        match db.reservations.find? (fun r => r.id == row.dispatch.reservationId &&
          r.actionId == actionId && r.active) with
        | none => (db, .error (.reservationLost "recovery target reservation is not active"))
        | some reserved =>
          let dispatch := recoveredDispatch db actionId actuatorId owner ttlMs row reserved
            dispatchToken reservationToken
          (takenOver db actionId owner ttlMs row.dispatch dispatchToken reservationToken,
            (checkDrift hash actionId actuatorId row dispatch.beforeState).map
              (fun _ => some dispatch))

/-- The row is the caller's, and its lease has not expired. -/
def DispatchRow.heldBy (now : Int) (dispatch : ActuatorDispatch) (d : DispatchRow) : Bool :=
  d.id == dispatch.dispatchId && d.leaseToken == dispatch.leaseToken &&
    decide (now ≤ d.leaseExpiresAt)

def issuable (db : Database) (dispatch : ActuatorDispatch) (d : DispatchRow) : Bool :=
  d.heldBy db.now dispatch && d.status == .outstanding .prepared &&
    db.registrations.any (fun r => r.id == d.actuatorId && r.canRemediate &&
      r.policyHash == some d.dispatchPolicyHash)

def issued (db : Database) (dispatch : ActuatorDispatch) (ttlMs : Nat) : Database :=
  { db with
    dispatches := Table.update (issuable db dispatch)
      (fun d => { d with
        status := .outstanding .mutationIssued
        mutationStartedAt := some db.now
        leaseExpiresAt := ttl db ttlMs }) db.dispatches }

/-- `claim_mutation` -/
def claimMutation (db : Database) (dispatch : ActuatorDispatch) (ttlMs : Nat) :
    Called ActuatorDispatch :=
  transaction db do
    check (db.dispatches.any (issuable db dispatch))
      (.reservationLost "prepared mutation claim was lost")
    let db ← extendReservation (issued db dispatch ttlMs) dispatch.reservation ttlMs
      "target reservation lease was lost"
    return (db, { dispatch with
      phase := .mutationIssued
      startedAt := db.now
      reservation := { dispatch.reservation with expiresAt := ttl db ttlMs } })

def acknowledgeable (db : Database) (dispatch : ActuatorDispatch) (d : DispatchRow) : Bool :=
  d.heldBy db.now dispatch &&
    (d.status == .outstanding .mutationIssued || d.status == .outstanding .reconciling)

def acknowledged (db : Database) (dispatch : ActuatorDispatch) (requestId : Option String)
    (returnedAt : Option Int) (ttlMs : Nat) : Database :=
  { db with
    dispatches := Table.update (acknowledgeable db dispatch)
      (fun d => { d with
        status := .outstanding .reconciling
        connectorRequestId := d.connectorRequestId <|> requestId
        connectorReturnedAt := d.connectorReturnedAt <|> returnedAt
        leaseExpiresAt := ttl db ttlMs }) db.dispatches }

/-- `record_connector_ack` -/
def recordConnectorAck (db : Database) (dispatch : ActuatorDispatch) (requestId : Option String)
    (returnedAt : Option Int) (ttlMs : Nat) : Called ActuatorDispatch :=
  transaction db do
    match db.dispatches.find? (acknowledgeable db dispatch) with
    | none => .error (.reservationLost "connector acknowledgement lease was lost")
    | some row => do
      let db ← extendReservation (acknowledged db dispatch requestId returnedAt ttlMs)
        dispatch.reservation ttlMs "target reservation lease was lost"
      return (db, { dispatch with
        phase := .reconciling
        connectorRequestId := row.connectorRequestId <|> requestId
        connectorReturnedAt := row.connectorReturnedAt <|> returnedAt
        reservation := { dispatch.reservation with expiresAt := ttl db ttlMs } })

def ExecutionResult.actionStatus : ExecutionResult → ActionStatus
  | .succeeded => .succeeded
  | .failed => .failed
  | .ambiguous => .ambiguous

def ExecutionResult.terminal : ExecutionResult → DispatchStatus
  | .ambiguous => .ambiguous
  | _ => .executed

/-- The cooldown of the standing authority an action was taken under. -/
def cooldownMs (db : Database) (action : ActionRow) : Option Nat := do
  let (id, version) ← action.standingPreauthorization
  let standing ← db.standingPreauthorizations.find? (fun s => s.id == id && s.version == version)
  return standing.cooldownMs

def counted (db : Database) (action : ActionRow) (i : IncidentRow) : IncidentRow :=
  { i with
    actionAttemptCount := i.actionAttemptCount + 1
    cooldownUntil := match cooldownMs db action with
      | none => i.cooldownUntil
      | some ms => some (max (i.cooldownUntil.getD db.now) (db.now + milliseconds ms)) }

/-- The action's attempt is counted in its incident. -/
def countAttempt (db : Database) (actionId : String) : Database :=
  match db.actions.find? (fun a => a.id == actionId) with
  | none => db
  | some action =>
    { db with
      incidents := Table.update (fun i => i.id == action.incidentId) (counted db action)
        db.incidents }

/-- `settle_action` -/
def settleAction (db : Database) (dispatch : ActuatorDispatch) (receipt : ExecutionReceiptWrite) :
    Except ExecutionError Database :=
  let settled := countAttempt
    (db.setActionStatus receipt.actionId [.executing] receipt.result.actionStatus) receipt.actionId
  if receipt.result = .ambiguous then .ok settled
  else if settled.reservations.any (ReservationRow.ownedBy dispatch.reservation) then
    .ok { settled with
      reservations := Table.update (ReservationRow.ownedBy dispatch.reservation)
        (fun r => { r with release := some ⟨db.now, "EXECUTION_" ++ receipt.result.value⟩ })
        settled.reservations
      targetEpochs := match receipt.observedTargetVersion with
        | none => settled.targetEpochs
        | some version => Table.update
            (fun t => t.targetKey == dispatch.reservation.targetKey &&
              t.epoch == dispatch.reservation.reservationEpoch)
            (fun t => { t with lastObservedVersion := version }) settled.targetEpochs }
  else .error (.reservationLost "reservation was lost before release")

def finalizable (db : Database) (dispatch : ActuatorDispatch) (d : DispatchRow) : Bool :=
  d.heldBy db.now dispatch && d.status == .outstanding .reconciling

def effectOpen (dispatch : ActuatorDispatch) (e : EffectReceiptRow) : Bool :=
  e.id == dispatch.effectReceiptId && e.dispatchId == dispatch.dispatchId &&
    e.executionReceiptId.isNone

/-- The receipt is recorded and the dispatch reaches its last status. -/
def finalized (db : Database) (dispatch : ActuatorDispatch) (receipt : ExecutionReceiptWrite)
    (customerAuditRef receiptId : String) : Database :=
  { db with
    executionReceipts := db.executionReceipts ++ [{ receipt with id := receiptId }]
    effectReceipts := Table.update (effectOpen dispatch)
      (fun e => { e with
        executionReceiptId := some receiptId
        afterStateRef := receipt.afterStateRef
        customerAuditRef := some customerAuditRef
        completedAt := some db.now
        errorClass := receipt.errorClass }) db.effectReceipts
    dispatches := Table.update (finalizable db dispatch)
      (fun d => { d with status := receipt.result.terminal }) db.dispatches }

/-- `finalize_dispatch` -/
def finalizeDispatch (db : Database) (dispatch : ActuatorDispatch) (receipt : ExecutionReceiptWrite)
    (customerAuditRef receiptId : String) : Called String :=
  transaction db do
    check (receipt.actionId == dispatch.material.id)
      (.valueError "receipt action does not own dispatch")
    check (receipt.attempt == 1)
      (.valueError "dispatch recovery cannot create mutation attempt 2")
    check (db.dispatches.any (finalizable db dispatch))
      (.reservationLost "dispatch finalization lease was lost")
    check (!db.executionReceipts.any (fun e => e.id == receiptId ||
        e.actionId == receipt.actionId && e.attempt == receipt.attempt))
      (.other "execution_receipts: unique violation")
    check (db.effectReceipts.any (effectOpen dispatch))
      (.reservationLost "effect receipt was already finalized")
    let db ← settleAction (finalized db dispatch receipt customerAuditRef receiptId) dispatch receipt
    return (db, receiptId)

/-- `authorize_prepared_dispatch` -/
def authorizePreparedDispatch (db : Database) (dispatch : ActuatorDispatch)
    (verdict : Except ExecutionError Unit) : Except ExecutionError ActionRow :=
  loadApprovalAuthority db dispatch.reservation .executing verdict

end Solvan.Actuator
