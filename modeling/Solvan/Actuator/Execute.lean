import Mathlib.Logic.Function.Basic
import Solvan.Actuator.Dispatch
import Solvan.Base.Machine

namespace Solvan.Actuator
open Mitigation (TargetEpochRow)
open Workflow (ActionRow ActionStatus IncidentRow)

/-- What an `ActionActuator` is configured with. -/
structure ActionActuator where
  actuatorId : String
  actorIdentity : String
  reservationTtlMs : Nat
deriving DecidableEq, Repr

/-- A call of `execute`. -/
structure Call where
  actuator : ActionActuator
  actionId : String
  traceId : Option String
deriving DecidableEq, Repr

inductive ReconciliationResult where
  | effectConfirmed | noEffectConfirmed | unknown
deriving DecidableEq, Repr

structure Reconciliation where
  result : ReconciliationResult
  observation : Option TargetObservation
  reconciledAt : Int
deriving DecidableEq, Repr

/-- How a call of `mutate` ends, if it does. -/
inductive MutateOutcome where
  | returned (requestId : String) (returnedAt : Int)
  | ambiguous (requestId : Option String)
  | failed (error : ExecutionError)
deriving DecidableEq, Repr

inductive ExecuteStep where
  | recovery | acquisition | authorization | observation | precondition | dryRun | gate | undo
  | release | preparation | claim | mutation | acknowledgement | reconciliation | audit
  | finalization
deriving DecidableEq, Repr

/-- What a call raised, where, and whether it was going on with a dispatch it
had recovered. -/
structure Failure where
  step : ExecuteStep
  recovered : Bool
  error : ExecutionError
deriving DecidableEq, Repr

/-- How far a call of `execute` has come: each point is named after the step
that comes next. -/
inductive Point where
  | idle
  | recovering (call : Call)
  | reauthorizing (call : Call) (dispatch : ActuatorDispatch)
  | regating (call : Call) (dispatch : ActuatorDispatch)
  | acquiring (call : Call)
  | authorizing (call : Call) (reservation : TargetReservation)
  | observing (call : Call) (reservation : TargetReservation) (material : ActionRow)
  | dryRunning (call : Call) (reservation : TargetReservation) (material : ActionRow)
      (before : TargetObservation)
  | gating (call : Call) (reservation : TargetReservation) (material : ActionRow)
      (before : TargetObservation) (prediction : PredictedEffect)
  | undoing (call : Call) (reservation : TargetReservation) (material : ActionRow)
      (before : TargetObservation) (prediction : PredictedEffect)
  | preparing (call : Call) (reservation : TargetReservation) (material : ActionRow)
      (before : TargetObservation) (prediction : PredictedEffect)
  | releasing (reservation : TargetReservation) (reason : ReleaseReason) (failure : Failure)
  | claiming (call : Call) (recovered : Bool) (dispatch : ActuatorDispatch)
  | mutating (call : Call) (dispatch : ActuatorDispatch)
  | awaiting (call : Call) (dispatch : ActuatorDispatch)
  | acknowledging (call : Call) (dispatch : ActuatorDispatch) (requestId : Option String)
      (returnedAt : Option Int) (errorClass : Option String)
  | resuming (call : Call) (dispatch : ActuatorDispatch)
  | reconciling (call : Call) (dispatch : ActuatorDispatch) (errorClass : Option String)
  | auditing (dispatch : ActuatorDispatch) (receipt : ExecutionReceiptWrite)
  | finalizing (dispatch : ActuatorDispatch) (receipt : ExecutionReceiptWrite)
      (customerAuditRef : String)
  | returned (receiptId : String) (result : ExecutionResult) (reservationId : String)
  | raised (failure : Failure)

def Point.free : Point → Bool
  | .idle | .returned .. | .raised _ => true
  | _ => false

/-- A call of `mutate`, with the database as it was. -/
structure Mutation where
  actionId : String
  leaseToken : Token
  leaseExpiresAt : Int
  before : Database

/-- A mutation that reached its target, with the database as it was. -/
structure Effect where
  actionId : String
  targetKey : String
  before : Database

/-- The database, how far each worker is, the tokens drawn so far, the calls
of `mutate` made, the requests on their way and the effects they had. -/
structure State where
  db : Database
  points : Nat → Point
  tokens : Nat
  mutations : List Mutation
  inFlight : List String
  effects : List Effect

inductive Event where
  | tick (micros : Nat)
  | plan (action : ActionRow)
  | approve (actionId : String)
  | baseline (target : TargetEpochRow)
  | register (rows : List RegistrationRow)
  | schedule (rows : List AgentRunRow)
  | coordinate (incident : IncidentRow)
  | execute (w : Nat) (call : Call)
  | recover (w : Nat)
  | reauthorize (w : Nat) (verdict : Except ExecutionError Unit)
  | acquire (w : Nat) (reservationId : String)
  | authorize (w : Nat) (verdict : Except ExecutionError Unit)
  | observe (w : Nat) (observation : Except ExecutionError TargetObservation)
  | dryRun (w : Nat) (prediction : Except ExecutionError PredictedEffect)
  | gate (w : Nat) (verdict : Except ExecutionError Unit)
  | undo (w : Nat) (plan : Except ExecutionError Unit)
  | release (w : Nat)
  | prepare (w : Nat) (dispatchId effectReceiptId : String)
  | claim (w : Nat)
  | mutate (w : Nat)
  | mutated (w : Nat) (outcome : MutateOutcome)
  | acknowledge (w : Nat)
  | reconcile (w : Nat) (reconciliation : Except ExecutionError Reconciliation)
  | audit (w : Nat) (ref : Except ExecutionError String)
  | finalize (w : Nat) (receiptId : String)
  | crash (w : Nat)
  | deliver (actionId : String)
  | lose (actionId : String)

def State.goto (s : State) (w : Nat) (point : Point) : State :=
  { s with points := Function.update s.points w point }

/-- A worker calls its store and goes on as it answers. -/
def State.call {α : Type} (s : State) (w : Nat) (called : Called α) (returned : α → Point)
    (raised : ExecutionError → Point) : State :=
  { s with db := called.1 }.goto w
    (match called.2 with
      | .ok value => returned value
      | .error error => raised error)

/-- What a worker hears from elsewhere, and how it goes on. -/
def State.hear {α : Type} (s : State) (w : Nat) (heard : Except ExecutionError α)
    (returned : α → Point) (raised : ExecutionError → Point) : State :=
  s.goto w
    (match heard with
      | .ok value => returned value
      | .error error => raised error)

/-- `except (ActionPolicyError, ReservationLost)` around the authorization. -/
def authorizationRaised (reservation : TargetReservation) (error : ExecutionError) : Point :=
  let failure := ⟨.authorization, false, error⟩
  match error with
  | .actionPolicyError _ | .reservationLost _ =>
    .releasing reservation .authorizationFailed failure
  | _ => .raised failure

/-- `except ActionPolicyError` around the gate. -/
def gateRaised (reservation : TargetReservation) (error : ExecutionError) : Point :=
  let failure := ⟨.gate, false, error⟩
  match error with
  | .actionPolicyError _ => .releasing reservation .authorizationFailed failure
  | _ => .raised failure

def ReconciliationResult.execution : ReconciliationResult → ExecutionResult
  | .effectConfirmed => .succeeded
  | .noEffectConfirmed => .failed
  | .unknown => .ambiguous

/-- The receipt `_reconcile_and_finalize` writes. -/
def receiptOf (call : Call) (dispatch : ActuatorDispatch) (errorClass : Option String)
    (r : Reconciliation) : ExecutionReceiptWrite where
  actionId := dispatch.material.id
  attempt := 1
  connectorRequestId := dispatch.connectorRequestId
  idempotencyKey := dispatch.idempotencyKey
  beforeStateRef := dispatch.beforeState.stateRef
  afterStateRef := r.observation.map TargetObservation.stateRef
  observedTargetVersion := r.observation.map TargetObservation.version
  startedAt := dispatch.startedAt
  connectorReturnedAt := dispatch.connectorReturnedAt
  reconciledAt := some r.reconciledAt
  result := r.result.execution
  errorClass := if r.result = .unknown then errorClass <|> some "RECONCILIATION_INCONCLUSIVE"
    else errorClass
  actorIdentity := call.actuator.actorIdentity
  traceId := dispatch.traceId

/-- A reconciliation is true of the moment it is made. -/
def State.truthful (s : State) (actionId : String) : Except ExecutionError Reconciliation → Bool
  | .ok r =>
    match r.result with
    | .effectConfirmed => s.effects.any (fun e => e.actionId == actionId)
    | .noEffectConfirmed => !s.effects.any (fun e => e.actionId == actionId)
    | .unknown => true
  | .error _ => true

/-- A new action, which nothing refers to yet. -/
def planned (db : Database) (action : ActionRow) : Option Database :=
  if db.actions.any (fun a => a.id == action.id) then none
  else some { db with actions := db.actions ++ [action] }

/-- Coordinators write incidents, but never count an attempt. -/
def coordinated (db : Database) (incident : IncidentRow) : Database :=
  { db with
    incidents := Table.update
      (fun i => i.id == incident.id && i.actionAttemptCount == incident.actionAttemptCount)
      (fun _ => incident) db.incidents }

variable (hash : Json → String)

/-- One statement, transaction or remote call of one worker, or a move of the
world around them. -/
def State.next (s : State) : Event → Option State
  | .tick micros => some { s with db := { s.db with now := s.db.now + micros } }
  | .plan action => (planned s.db action).map (fun db => { s with db })
  | .approve actionId =>
    some { s with db := s.db.setActionStatus actionId [.awaitingApproval] .authorized }
  | .baseline target =>
    if s.db.targetEpochs.any (fun t => t.targetKey == target.targetKey) then none
    else some { s with db := { s.db with targetEpochs := s.db.targetEpochs ++ [target] } }
  | .register rows => some { s with db := { s.db with registrations := rows } }
  | .schedule rows => some { s with db := { s.db with agentRuns := rows } }
  | .coordinate incident => some { s with db := coordinated s.db incident }
  | .execute w call => if (s.points w).free then some (s.goto w (.recovering call)) else none
  | .recover w =>
    match s.points w with
    | .recovering call =>
      some ({ s with tokens := s.tokens + 2 }.call w
        (claimRecovery hash s.db call.actionId call.actuator.actuatorId
          call.actuator.actorIdentity call.actuator.reservationTtlMs s.tokens (s.tokens + 1))
        (fun
          | none => .acquiring call
          | some dispatch =>
            if dispatch.phase = DispatchPhase.prepared then .reauthorizing call dispatch
            else .resuming call dispatch)
        (fun error => .raised ⟨.recovery, true, error⟩))
    | _ => none
  | .reauthorize w verdict =>
    match s.points w with
    | .reauthorizing call dispatch =>
      some (s.hear w (authorizePreparedDispatch s.db dispatch verdict)
        (fun _ => .regating call dispatch) (fun error => .raised ⟨.authorization, true, error⟩))
    | _ => none
  | .acquire w reservationId =>
    match s.points w with
    | .acquiring call =>
      some ({ s with tokens := s.tokens + 1 }.call w
        (acquireReservation s.db call.actionId call.actuator.actorIdentity
          call.actuator.reservationTtlMs reservationId s.tokens)
        (.authorizing call) (fun error => .raised ⟨.acquisition, false, error⟩))
    | _ => none
  | .authorize w verdict =>
    match s.points w with
    | .authorizing call reservation =>
      some (s.call w (authorizeForExecution s.db reservation verdict)
        (.observing call reservation) (authorizationRaised reservation))
    | _ => none
  | .observe w observation =>
    match s.points w with
    | .observing call reservation material =>
      some (s.hear w observation
        (fun before =>
          if before.version ≠ material.expectedTargetVersion then
            .releasing reservation .preconditionFailed
              ⟨.precondition, false, .actionPolicyError "connector_target_version_changed"⟩
          else .dryRunning call reservation material before)
        (fun error => .raised ⟨.observation, false, error⟩))
    | _ => none
  | .dryRun w prediction =>
    match s.points w with
    | .dryRunning call reservation material before =>
      some (s.hear w prediction
        (fun prediction =>
          if prediction.contentHash hash = material.expectedEffect.contentHash then
            .gating call reservation material before prediction
          else
            .releasing reservation .dryRunMismatch
              ⟨.dryRun, false, .actionPolicyError "dry_run_effect_mismatch"⟩)
        (fun _ => .releasing reservation .dryRunMismatch
          ⟨.dryRun, false, .actionPolicyError "dry_run_prediction_invalid"⟩))
    | _ => none
  | .gate w verdict =>
    match s.points w with
    | .gating call reservation material before prediction =>
      some (s.hear w verdict (fun _ => .undoing call reservation material before prediction)
        (gateRaised reservation))
    | .regating call dispatch =>
      some (s.hear w verdict (fun _ => .claiming call true dispatch)
        (fun error => .raised ⟨.gate, true, error⟩))
    | _ => none
  | .undo w plan =>
    match s.points w with
    | .undoing call reservation material before prediction =>
      some (s.hear w plan (fun _ => .preparing call reservation material before prediction)
        (fun error => .raised ⟨.undo, false, error⟩))
    | _ => none
  | .release w =>
    match s.points w with
    | .releasing reservation reason failure =>
      some (s.call w (releaseBeforeMutation s.db reservation reason) (fun _ => .raised failure)
        (fun error => .raised ⟨.release, false, error⟩))
    | _ => none
  | .prepare w dispatchId effectReceiptId =>
    match s.points w with
    | .preparing call reservation material before prediction =>
      some ({ s with tokens := s.tokens + 1 }.call w
        (prepareDispatch hash s.db reservation material call.actuator.actuatorId
          call.actuator.actorIdentity before prediction call.traceId
          call.actuator.reservationTtlMs dispatchId effectReceiptId s.tokens)
        (.claiming call false) (fun error => .raised ⟨.preparation, false, error⟩))
    | _ => none
  | .claim w =>
    match s.points w with
    | .claiming call recovered dispatch =>
      some (s.call w (claimMutation s.db dispatch call.actuator.reservationTtlMs) (.mutating call)
        (fun error => .raised ⟨.claim, recovered, error⟩))
    | _ => none
  | .mutate w =>
    match s.points w with
    | .mutating call dispatch =>
      some { s.goto w (.awaiting call dispatch) with
        mutations := ⟨dispatch.material.id, dispatch.leaseToken, dispatch.reservation.expiresAt,
          s.db⟩ :: s.mutations
        inFlight := dispatch.material.id :: s.inFlight }
    | _ => none
  | .mutated w outcome =>
    match s.points w with
    | .awaiting call dispatch =>
      match outcome with
      | .returned requestId returnedAt =>
        some (s.goto w (.acknowledging call dispatch (some requestId) (some returnedAt) none))
      | .ambiguous requestId =>
        some (s.goto w (.acknowledging call dispatch requestId none
          (some "AMBIGUOUS_CONNECTOR_RETURN")))
      | .failed error => some (s.goto w (.raised ⟨.mutation, false, error⟩))
    | _ => none
  | .acknowledge w =>
    match s.points w with
    | .acknowledging call dispatch requestId returnedAt errorClass =>
      some (s.call w
        (recordConnectorAck s.db dispatch requestId returnedAt call.actuator.reservationTtlMs)
        (fun dispatch => .reconciling call dispatch errorClass)
        (fun error => .raised ⟨.acknowledgement, false, error⟩))
    | .resuming call dispatch =>
      some (s.call w
        (recordConnectorAck s.db dispatch dispatch.connectorRequestId dispatch.connectorReturnedAt
          call.actuator.reservationTtlMs)
        (fun dispatch => .reconciling call dispatch
          (if dispatch.connectorRequestId.isNone then some "AMBIGUOUS_CONNECTOR_RETURN" else none))
        (fun error => .raised ⟨.acknowledgement, true, error⟩))
    | _ => none
  | .reconcile w reconciliation =>
    match s.points w with
    | .reconciling call dispatch errorClass =>
      if s.truthful dispatch.material.id reconciliation then
        some (s.hear w reconciliation
          (fun r => .auditing dispatch (receiptOf call dispatch errorClass r))
          (fun error => .raised ⟨.reconciliation, false, error⟩))
      else none
    | _ => none
  | .audit w ref =>
    match s.points w with
    | .auditing dispatch receipt =>
      some (s.hear w ref (.finalizing dispatch receipt)
        (fun error => .raised ⟨.audit, false, error⟩))
    | _ => none
  | .finalize w receiptId =>
    match s.points w with
    | .finalizing dispatch receipt customerAuditRef =>
      some (s.call w (finalizeDispatch s.db dispatch receipt customerAuditRef receiptId)
        (fun receiptId => .returned receiptId receipt.result dispatch.reservation.reservationId)
        (fun error => .raised ⟨.finalization, false, error⟩))
    | _ => none
  | .crash w => some (s.goto w .idle)
  | .deliver actionId =>
    if actionId ∈ s.inFlight then do
      let action ← s.db.actions.find? (fun a => a.id == actionId)
      return { s with
        inFlight := s.inFlight.erase actionId
        effects := ⟨actionId, action.targetKey, s.db⟩ :: s.effects }
    else none
  | .lose actionId => some { s with inFlight := s.inFlight.erase actionId }

/-- Actions and targets of any kind, with nothing reserved, dispatched or
executed yet, and no worker started. -/
structure State.Fresh (s : State) : Prop where
  actions : Table.Unique ActionRow.id s.db.actions
  incidents : Table.Unique IncidentRow.id s.db.incidents
  targets : Table.Unique TargetEpochRow.targetKey s.db.targetEpochs
  reservations : s.db.reservations = []
  dispatches : s.db.dispatches = []
  effectReceipts : s.db.effectReceipts = []
  executionReceipts : s.db.executionReceipts = []
  points : ∀ w, s.points w = .idle
  mutations : s.mutations = []
  inFlight : s.inFlight = []
  effects : s.effects = []

def workers : Machine State Event := .ofFn State.Fresh (State.next hash)

end Solvan.Actuator
