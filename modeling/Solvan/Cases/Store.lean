import Solvan.Queues.Queue
import Solvan.Workflow.Leases

namespace Solvan.Cases
open Claims (Hold Item)
open Queues (Queue)
open Workflow (Lease LeaseHandle IncidentRow leaseFree leaseLive leaseNames)

def wakeupClaimAttemptBudget : Nat := 5

inductive CaseState where
  | opened | rootCauseAnalysis | blocked | repairPlanned | repairInProgress | awaitingReview
  | readyForCanary | canaryRunning | readyForRollout | rolloutRunning | rolledBack | observing
  | reopened | closedVerified | cancelled
deriving DecidableEq, Repr

/-- A row of `reliability_cases`. -/
structure CaseRow where
  id : String
  workflowVersion : Nat
  state : CaseState
  originatingIncidentId : String
  nextActionKind : String
  nextActionAt : Int
  blockedOwner : Option String
  nextReviewAt : Option Int
  recoveryPlan : Option String
  lease : Option Lease
deriving DecidableEq, Repr

/-- `status` with the claim columns, which are set just while it is `CLAIMED`. -/
inductive WakeupStatus where
  | pending
  | claimed (claim : Hold String Token)
  | completed
  | quarantined
deriving DecidableEq, Repr

/-- A row of `scheduled_wakeups`. -/
structure Wakeup where
  id : String
  caseId : String
  logicalStepKey : String
  wakeAt : Int
  reason : String
  attempts : Nat
  status : WakeupStatus
deriving DecidableEq, Repr

inductive WakeupOutcome where
  | completed | quarantined
deriving DecidableEq, Repr

structure ClaimedWakeup where
  wakeupId : String
  caseId : String
  logicalStepKey : String
  reason : String
  wakeAt : Int
  claimToken : Token
  claimExpiresAt : Int
deriving DecidableEq, Repr

structure CaseSchedule where
  logicalStepKey : String
  nextActionKind : String
  wakeAt : Int
  reason : String
deriving DecidableEq, Repr

structure CoordinatorAuthority where
  owner : String
  leaseToken : Token
  workflowVersion : Nat
deriving DecidableEq, Repr

/-- What `commit_progress_transition` is given beside the lease. -/
structure Progress where
  fromState : CaseState
  toState : CaseState
  schedule : CaseSchedule
  blockedOwner : Option String
  nextReviewAt : Option Int
  recoveryPlan : Option String
deriving DecidableEq, Repr

/-- One scope's cases and wakeups, and the claims that have been handed out. -/
structure CaseStore where
  incidents : List IncidentRow
  cases : List CaseRow
  wakeups : Queue Wakeup WakeupOutcome
  claims : List ClaimedWakeup

def CaseStore.now (s : CaseStore) : Int := s.wakeups.now

def Wakeup.scheduled (id caseId : String) (schedule : CaseSchedule) : Wakeup :=
  ⟨id, caseId, schedule.logicalStepKey, schedule.wakeAt, schedule.reason, 0, .pending⟩

/-- `status IN ('PENDING','CLAIMED')` -/
def Wakeup.active (w : Wakeup) : Bool :=
  match w.status with
  | .pending | .claimed _ => true
  | _ => false

/-- `status = 'PENDING' OR (status = 'CLAIMED' AND claim_expires_at < now())` -/
def Wakeup.unclaimed (now : Int) (w : Wakeup) : Bool :=
  match w.status with
  | .pending => true
  | .claimed claim => decide (claim.expires < now)
  | _ => false

def Wakeup.heldBy (now : Int) (owner : String) (claim : ClaimedWakeup) (w : Wakeup) : Bool :=
  w.id == claim.wakeupId &&
    match w.status with
    | .claimed held =>
      held.owner == owner && held.token == claim.claimToken && decide (now ≤ held.expires)
    | _ => false

def CaseStore.insertWakeup (s : CaseStore) (w : Wakeup) : Option CaseStore :=
  if s.wakeups.rows.any (fun r => r.id == w.id) then none
  else some { s with wakeups := { s.wakeups with rows := s.wakeups.rows ++ [w] } }

/-- `open_for_mitigated_incident`. An incident that has a case keeps it. -/
def openForMitigatedIncident (s : CaseStore) (incidentId : String)
    (authority : CoordinatorAuthority) (schedule : CaseSchedule) (caseId wakeupId : String) :
    Option CaseStore := do
  let incident ← s.incidents.find? (fun i =>
    i.id == incidentId && i.state == .mitigated && i.workflowVersion == authority.workflowVersion &&
      leaseLive s.now authority.owner authority.leaseToken i.lease)
  match incident.reliabilityCaseId with
  | some existing =>
    if s.wakeups.rows.any (fun w => w.caseId == existing && w.active) then some s else none
  | none =>
    if s.cases.any (fun c => c.id == caseId) then none
    else
      let case : CaseRow :=
        ⟨caseId, 1, .opened, incidentId, schedule.nextActionKind, schedule.wakeAt, none, none, none,
          none⟩
      let linked := Table.update (fun i => i.id == incidentId && i.reliabilityCaseId.isNone)
        (fun i => { i with reliabilityCaseId := some caseId }) s.incidents
      { s with cases := s.cases ++ [case], incidents := linked }.insertWakeup
        (.scheduled wakeupId caseId schedule)

/-- `_QUARANTINE_WAKEUPS` -/
def quarantineWakeups (wakeups : Queue Wakeup WakeupOutcome) : Queue Wakeup WakeupOutcome :=
  wakeups.update Wakeup.id
    (fun w => decide (w.wakeAt ≤ wakeups.now) && decide (wakeupClaimAttemptBudget ≤ w.attempts) &&
      w.unclaimed wakeups.now)
    (fun w => { w with status := .quarantined })
    (fun _ => .park .quarantined)

/-- The rows a claim may take. -/
def dueWakeups (wakeups : Queue Wakeup WakeupOutcome) (batchSize : Nat) (locked : List String) :
    List String :=
  Table.candidates Wakeup.id Wakeup.wakeAt
    (fun w => decide (w.wakeAt ≤ wakeups.now) && decide (w.attempts < wakeupClaimAttemptBudget) &&
      w.unclaimed wakeups.now)
    locked batchSize wakeups.rows

def takeWakeups (wakeups : Queue Wakeup WakeupOutcome) (claim : Hold String Token)
    (ids : List String) : Queue Wakeup WakeupOutcome :=
  { wakeups.update Wakeup.id (fun w => ids.contains w.id)
      (fun w => { w with status := .claimed claim, attempts := w.attempts + 1 })
      (fun _ => .claim claim) with
    issued := claim.token :: wakeups.issued }

/-- `claim_due_wakeups`: spent wakeups are quarantined first. -/
def claimDueWakeups (s : CaseStore) (owner : String) (claimTtlMs batchSize : Nat) (token : Token)
    (locked : List String) : Option (CaseStore × List ClaimedWakeup) :=
  if claimTtlMs < 1 ∨ batchSize < 1 ∨ token ∈ s.wakeups.issued then none
  else
    let quarantined := quarantineWakeups s.wakeups
    let claim : Hold String Token := ⟨owner, token, s.now + milliseconds claimTtlMs⟩
    let ids := dueWakeups quarantined batchSize locked
    let returned := (quarantined.rows.filter (fun w => ids.contains w.id)).map (fun w =>
      ⟨w.id, w.caseId, w.logicalStepKey, w.reason, w.wakeAt, token, claim.expires⟩)
    some ({ s with
      wakeups := takeWakeups quarantined claim ids
      claims := returned ++ s.claims }, returned)

/-- `release_claimed_wakeup` -/
def releaseClaimedWakeup (s : CaseStore) (owner : String) (claim : ClaimedWakeup)
    (refundAttempt : Bool) : Option CaseStore :=
  (s.wakeups.complete Wakeup.id (·.heldBy s.now owner claim)
    (fun w =>
      { w with
        status := .pending
        attempts := if refundAttempt then w.attempts - 1 else w.attempts })
    (fun _ => .giveBack owner claim.claimToken refundAttempt)).map ({ s with wakeups := · })

/-- `heartbeat_wakeup` -/
def heartbeatWakeup (s : CaseStore) (owner : String) (claim : ClaimedWakeup) (claimTtlMs : Nat) :
    Option CaseStore :=
  if claimTtlMs < 1 then none
  else
    let expires := s.now + milliseconds claimTtlMs
    (s.wakeups.complete Wakeup.id (·.heldBy s.now owner claim)
      (fun w =>
        { w with
          status := match w.status with
            | .claimed held => .claimed { held with expires }
            | status => status })
      (fun _ => .extend owner claim.claimToken expires)).map ({ s with wakeups := · })

/-- `complete_wakeup` -/
def completeWakeup (s : CaseStore) (owner : String) (claim : ClaimedWakeup) : Option CaseStore :=
  (s.wakeups.complete Wakeup.id
    (fun w => w.heldBy s.now owner claim && s.cases.any (fun c => c.id == w.caseId))
    (fun w => { w with status := .completed })
    (fun _ => .finish owner claim.claimToken .completed)).map ({ s with wakeups := · })

/-- The case row a lease handle is good for. -/
def CaseRow.leasedTo (now : Int) (lease : LeaseHandle) (c : CaseRow) : Bool :=
  c.id == lease.entityId && c.workflowVersion == lease.workflowVersion &&
    leaseLive now lease.owner lease.token c.lease

/-- `complete_active_wakeup_for_transition` -/
def completeActiveWakeupForTransition (s : CaseStore) (lease : LeaseHandle) : Option CaseStore :=
  if lease.aggregateType ≠ .reliabilityCase then none
  else
    let rows := s.wakeups.rows.filter (fun w =>
      w.caseId == lease.entityId && s.cases.any (·.leasedTo s.now lease) && w.unclaimed s.now)
    match rows with
    | [w] =>
      (s.wakeups.complete Wakeup.id (fun r => r.id == w.id && r.unclaimed s.now)
        (fun r => { r with status := .completed })
        (fun _ => .retire .completed)).map ({ s with wakeups := · })
    | _ => none

/-- `defer_claimed_wakeup`; `localNow` is the clock of the process. -/
def deferClaimedWakeup (s : CaseStore) (owner : String) (claim : ClaimedWakeup)
    (wakeAt localNow : Int) (reason wakeupId : String) : Option CaseStore :=
  if wakeAt ≤ localNow then none
  else do
    let s ← completeWakeup s owner claim
    let blocked := fun c : CaseRow => c.id == claim.caseId && c.state == .blocked
    if s.cases.any blocked && !s.wakeups.rows.any (fun w => w.caseId == claim.caseId && w.active) then
      let s ← s.insertWakeup ⟨wakeupId, claim.caseId, claim.logicalStepKey, wakeAt, reason, 0, .pending⟩
      return { s with
        cases := Table.update blocked (fun c => { c with nextActionAt := wakeAt }) s.cases }
    else none

/-- `commit_progress_transition` -/
def commitProgressTransition (s : CaseStore) (lease : LeaseHandle) (progress : Progress)
    (wakeupId : String) : Option CaseStore :=
  let recovery := [progress.blockedOwner.isSome, progress.nextReviewAt.isSome,
    progress.recoveryPlan.isSome]
  let owned := if progress.toState = .blocked then recovery.all id else !recovery.any id
  let hit := fun c : CaseRow => c.leasedTo s.now lease && c.state == progress.fromState
  if lease.aggregateType ≠ .reliabilityCase ∨ owned = false ∨ !s.cases.any hit then none
  else if s.wakeups.rows.any (fun w => w.caseId == lease.entityId && w.active) then none
  else
    let cases := Table.update hit
      (fun c =>
        { c with
          state := progress.toState
          workflowVersion := c.workflowVersion + 1
          nextActionKind := progress.schedule.nextActionKind
          nextActionAt := progress.schedule.wakeAt
          blockedOwner := progress.blockedOwner
          nextReviewAt := progress.nextReviewAt
          recoveryPlan := progress.recoveryPlan }) s.cases
    { s with cases }.insertWakeup (.scheduled wakeupId lease.entityId progress.schedule)

/-- `acquire_lease` on a case. -/
def acquireCaseLease (s : CaseStore) (caseId owner : String) (leaseTtlMs : Nat) (token : Token) :
    Option (CaseStore × LeaseHandle) :=
  if leaseTtlMs < 1 then none
  else do
    let c ← s.cases.find? (fun c => c.id == caseId && leaseFree s.now c.lease)
    let lease : Lease := ⟨owner, token, s.now + milliseconds leaseTtlMs⟩
    let cases := Table.update (fun c => c.id == caseId && leaseFree s.now c.lease)
      (fun c => { c with lease := some lease }) s.cases
    return ({ s with cases }, ⟨.reliabilityCase, caseId, owner, token, c.workflowVersion⟩)

/-- `release_lease` on a case. -/
def releaseCaseLease (s : CaseStore) (lease : LeaseHandle) : Option CaseStore :=
  let hit := fun c : CaseRow => c.id == lease.entityId && leaseNames lease.owner lease.token c.lease
  if s.cases.any hit then
    some { s with cases := Table.update hit (fun c => { c with lease := none }) s.cases }
  else none

end Solvan.Cases
