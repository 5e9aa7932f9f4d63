import Solvan.Mitigation.Store

namespace Solvan.Actuator
open Mitigation (TargetEpochRow StandingPreauthorizationRow RunStatus)
open Workflow (ActionRow ActionStatus IncidentRow IncidentState)

/-- What `execute` and its store raise. -/
inductive ExecutionError where
  | valueError (message : String)
  | actionPolicyError (reason : String)
  | reservationConflict (message : String)
  | reservationLost (message : String)
  | other (message : String)
deriving DecidableEq, Repr

inductive ExecutionResult where
  | succeeded | failed | ambiguous
deriving DecidableEq, Repr

def ExecutionResult.value : ExecutionResult → String
  | .succeeded => "SUCCEEDED"
  | .failed => "FAILED"
  | .ambiguous => "AMBIGUOUS"

inductive DispatchPhase where
  | prepared | mutationIssued | reconciling
deriving DecidableEq, Repr

inductive DispatchStatus where
  | outstanding (phase : DispatchPhase)
  | executed
  | ambiguous
deriving DecidableEq, Repr

/-- `released_at` with `release_reason`, which are set together. -/
structure Release where
  releasedAt : Int
  reason : String
deriving DecidableEq, Repr

/-- A row of `target_reservations`. -/
structure ReservationRow where
  id : String
  targetKey : String
  reservationEpoch : Nat
  expectedTargetEpoch : Nat
  actionId : String
  ownerIdentity : String
  leaseToken : Token
  expiresAt : Int
  release : Option Release
  follows : reservationEpoch = expectedTargetEpoch + 1
deriving DecidableEq

/-- A row of `actuator_dispatches`. -/
structure DispatchRow where
  id : String
  actuatorId : String
  actionId : String
  reservationId : String
  dispatchedAt : Int
  leaseExpiresAt : Int
  leaseOwner : String
  leaseToken : Token
  dispatchPolicyHash : String
  expectedEffectHash : String
  connectorRevision : String
  requestHash : String
  mutationStartedAt : Option Int
  connectorRequestId : Option String
  connectorReturnedAt : Option Int
  traceId : Option String
  status : DispatchStatus
deriving DecidableEq, Repr

/-- A row of `actuator_effect_receipts`. -/
structure EffectReceiptRow where
  id : String
  dispatchId : String
  policyHash : String
  beforeStateRef : String
  beforeStateHash : String
  predictedEffectHash : String
  startedAt : Int
  executionReceiptId : Option String
  afterStateRef : Option String
  customerAuditRef : Option String
  completedAt : Option Int
  errorClass : Option String
deriving DecidableEq, Repr

structure ExecutionReceiptWrite where
  actionId : String
  attempt : Nat
  connectorRequestId : Option String
  idempotencyKey : String
  beforeStateRef : String
  afterStateRef : Option String
  observedTargetVersion : Option String
  startedAt : Int
  connectorReturnedAt : Option Int
  reconciledAt : Option Int
  result : ExecutionResult
  errorClass : Option String
  actorIdentity : String
  traceId : Option String
deriving DecidableEq, Repr

/-- A row of `execution_receipts`. -/
structure ExecutionReceiptRow extends ExecutionReceiptWrite where
  id : String
deriving DecidableEq, Repr

inductive RegistrationStatus where
  | registered | active | disabled | revoked
deriving DecidableEq, Repr

inductive Posture where
  | collector | remediate
deriving DecidableEq, Repr

/-- A row of `actuator_registrations`. -/
structure RegistrationRow where
  id : String
  status : RegistrationStatus
  posture : Posture
  productionEligible : Bool
  killSwitchEngaged : Bool
  policyHash : Option String
  customerAuditSinkRef : Option String
deriving DecidableEq, Repr

/-- A row of `agent_runs`. -/
structure AgentRunRow where
  id : String
  invocationId : String
  agentKey : String
  actionId : Option String
  workflowVersion : Nat
  status : RunStatus
  deadline : Int
deriving DecidableEq, Repr

structure Database where
  now : Int
  actions : List ActionRow
  incidents : List IncidentRow
  standingPreauthorizations : List StandingPreauthorizationRow
  targetEpochs : List TargetEpochRow
  registrations : List RegistrationRow
  agentRuns : List AgentRunRow
  reservations : List ReservationRow
  dispatches : List DispatchRow
  effectReceipts : List EffectReceiptRow
  executionReceipts : List ExecutionReceiptRow

structure TargetReservation where
  reservationId : String
  actionId : String
  targetKey : String
  expectedTargetEpoch : Nat
  reservationEpoch : Nat
  ownerIdentity : String
  leaseToken : Token
  expiresAt : Int
deriving DecidableEq, Repr

/-- What a call leaves behind, and what it returns or raises. -/
abbrev Called (α : Type) := Database × Except ExecutionError α

/-- A transaction that raises leaves nothing behind. -/
def transaction {α : Type} (db : Database) (body : Except ExecutionError (Database × α)) : Called α :=
  match body with
  | .ok (db', value) => (db', .ok value)
  | .error error => (db, .error error)

def ttl (db : Database) (ttlMs : Nat) : Int := db.now + milliseconds ttlMs

def ReservationRow.active (r : ReservationRow) : Bool := r.release.isNone

def Database.setActionStatus (db : Database) (actionId : String) (from_ : List ActionStatus)
    (status : ActionStatus) : Database :=
  { db with
    actions := Table.update (fun a => a.id == actionId && from_.contains a.status)
      (fun a => { a with status }) db.actions }

def newReservation (db : Database) (action : ActionRow) (owner : String) (ttlMs : Nat)
    (reservationId : String) (token : Token) : ReservationRow where
  id := reservationId
  targetKey := action.targetKey
  reservationEpoch := action.expectedTargetEpoch + 1
  expectedTargetEpoch := action.expectedTargetEpoch
  actionId := action.id
  ownerIdentity := owner
  leaseToken := token
  expiresAt := ttl db ttlMs
  release := none
  follows := rfl

/-- The insertion of a reservation, and the new epoch of its target. -/
def reserve (db : Database) (action : ActionRow) (row : ReservationRow) : Database :=
  { db with
    reservations := db.reservations ++ [row]
    targetEpochs := Table.update
      (fun t => t.targetKey == action.targetKey && t.epoch == action.expectedTargetEpoch &&
        t.lastObservedVersion == action.expectedTargetVersion)
      (fun t => { t with epoch := t.epoch + 1 }) db.targetEpochs }

def ReservationRow.handle (r : ReservationRow) : TargetReservation :=
  ⟨r.id, r.actionId, r.targetKey, r.expectedTargetEpoch, r.reservationEpoch, r.ownerIdentity,
    r.leaseToken, r.expiresAt⟩

/-- `acquire_reservation` -/
def acquireReservation (db : Database) (actionId owner : String) (ttlMs : Nat)
    (reservationId : String) (token : Token) : Called TargetReservation :=
  if ttlMs < 1 then (db, .error (.valueError "reservation TTL must be positive"))
  else
    match db.actions.find? (fun a => a.id == actionId && decide (db.now < a.expiresAt)) with
    | none => (db, .error (.reservationConflict "authorized action does not exist"))
    | some action =>
      if action.status ≠ .authorized then
        (db, .error (.reservationConflict "action is not authorized"))
      else
        match db.targetEpochs.find? (fun t => t.targetKey == action.targetKey) with
        | none => (db, .error (.reservationConflict "target epoch is not registered"))
        | some target =>
          -- A stale action is invalidated, and that is committed before the conflict is raised.
          if target.epoch ≠ action.expectedTargetEpoch then
            (db.setActionStatus actionId [.authorized] .invalidated,
              .error (.reservationConflict "target epoch changed"))
          else if target.lastObservedVersion ≠ action.expectedTargetVersion then
            (db.setActionStatus actionId [.authorized] .invalidated,
              .error (.reservationConflict "target version changed"))
          else if db.reservations.any
              (fun r => r.id == reservationId || r.targetKey == action.targetKey && r.active) then
            (db, .error (.reservationConflict "target already has an active reservation"))
          else
            let row := newReservation db action owner ttlMs reservationId token
            (reserve db action row, .ok row.handle)

/-- The rows `_load_approval_authority` joins: an unexpired action under a live
reservation of the caller. -/
def authorityRow (db : Database) (reservation : TargetReservation) (status : ActionStatus) :
    Option ActionRow :=
  db.actions.find? (fun a => a.id == reservation.actionId && a.status == status &&
    decide (db.now < a.expiresAt) &&
    db.targetEpochs.any (fun t => t.targetKey == a.targetKey) &&
    db.reservations.any (fun r => r.actionId == a.id && r.id == reservation.reservationId &&
      r.ownerIdentity == reservation.ownerIdentity && r.leaseToken == reservation.leaseToken &&
      r.active && decide (db.now ≤ r.expiresAt)))

/-- The material of an authorized action. The verdict is that of the approval
or standing-authority checks on the rows that go with it. -/
def loadApprovalAuthority (db : Database) (reservation : TargetReservation) (status : ActionStatus)
    (verdict : Except ExecutionError Unit) : Except ExecutionError ActionRow :=
  match authorityRow db reservation status with
  | none => .error (.reservationLost "authorized action or live reservation is unavailable")
  | some action => do
    verdict
    return action

/-- `authorize_for_execution` -/
def authorizeForExecution (db : Database) (reservation : TargetReservation)
    (verdict : Except ExecutionError Unit) : Called ActionRow :=
  transaction db do
    let material ← loadApprovalAuthority db reservation .authorized verdict
    return (db.setActionStatus reservation.actionId [.authorized] .executing, material)

inductive ReleaseReason where
  | authorizationFailed | dryRunMismatch | preconditionFailed
deriving DecidableEq, Repr

def ReleaseReason.value : ReleaseReason → String
  | .authorizationFailed => "AUTHORIZATION_FAILED"
  | .dryRunMismatch => "DRY_RUN_MISMATCH"
  | .preconditionFailed => "PRECONDITION_FAILED"

def ReleaseReason.actionStatus : ReleaseReason → ActionStatus
  | .dryRunMismatch => .dryRunMismatch
  | _ => .invalidated

def releasable (db : Database) (reservation : TargetReservation) (r : ReservationRow) : Bool :=
  r.id == reservation.reservationId && r.actionId == reservation.actionId &&
    r.leaseToken == reservation.leaseToken && r.active &&
    !db.executionReceipts.any (fun e => e.actionId == r.actionId)

/-- `release_before_mutation` -/
def releaseBeforeMutation (db : Database) (reservation : TargetReservation)
    (reason : ReleaseReason) : Called Unit :=
  if db.reservations.any (releasable db reservation) then
    let released := { db with
      reservations := Table.update (releasable db reservation)
        (fun r => { r with release := some ⟨db.now, reason.value⟩ }) db.reservations }
    (released.setActionStatus reservation.actionId [.authorized, .executing] reason.actionStatus,
      .ok ())
  else (db, .error (.reservationLost "reservation cannot be released as no-mutation"))

/-- `require_execution_invocation` -/
def requireExecutionInvocation (db : Database) (invocationId actionId : String) :
    Except ExecutionError Database :=
  let bound := fun r : AgentRunRow =>
    r.invocationId == invocationId && r.agentKey == "execution-agent" &&
      r.actionId == some actionId && (r.status == .dispatched || r.status == .running) &&
      decide (db.now < r.deadline) &&
      db.actions.any (fun a => a.id == actionId && a.status == .authorized &&
        a.workflowVersion == r.workflowVersion &&
        db.incidents.any (fun i => i.id == a.incidentId && i.state == .mitigating &&
          i.workflowVersion == r.workflowVersion))
  if db.agentRuns.any bound then
    .ok { db with agentRuns := Table.update bound (fun r => { r with status := .running }) db.agentRuns }
  else .error (.actionPolicyError "execution_invocation_not_bound_to_action")

end Solvan.Actuator
