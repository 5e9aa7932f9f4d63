import Solvan.Base.Json.Text
import Solvan.Workflow.Leases

namespace Solvan.Investigation
open Workflow (IncidentRow leaseLive)

/-- `DISPATCH_RETRY_BACKOFF_MS` -/
def dispatchRetryBackoffMs : Nat := 30000

inductive StepKind where
  | invokeAgent | coordinatorCheck
deriving DecidableEq, Repr

inductive PlanStatus where
  | accepted | superseded | completed | abandoned
deriving DecidableEq, Repr

inductive StepStatus where
  | planned | ready | dispatched | running | succeeded | failed | stale | skipped
deriving DecidableEq, Repr

inductive RunStatus where
  | created | dispatched | running | succeeded | failed | timedOut | cancelled | stale
deriving DecidableEq, Repr

/-- `status IN ('CREATED','DISPATCHED','RUNNING')` -/
def RunStatus.live : RunStatus → Bool
  | .created | .dispatched | .running => true
  | _ => false

/-- `status IN ('SUCCEEDED','SKIPPED')` -/
def StepStatus.done : StepStatus → Bool
  | .succeeded | .skipped => true
  | _ => false

/-- `status IN ('PLANNED','READY','DISPATCHED','RUNNING')` -/
def StepStatus.unsettled : StepStatus → Bool
  | .planned | .ready | .dispatched | .running => true
  | _ => false

/-- `status IN ('DISPATCHED','RUNNING')` -/
def StepStatus.underway : StepStatus → Bool
  | .dispatched | .running => true
  | _ => false

structure StepBudget where
  deadlineMs : Nat
  maxToolCalls : Nat
  maxOutputBytes : Nat
  maxModelCalls : Nat
  maxReplans : Nat
  valid : 1 ≤ deadlineMs ∧ 1 ≤ maxOutputBytes
deriving DecidableEq, Repr

theorem thousand_valid : 1 ≤ 1000 ∧ 1 ≤ 1000 := by decide

structure ProposedStep where
  stepKey : String
  kind : StepKind
  agentKey : Option String
  scopeRef : String
  purpose : String
  required : Bool
  dependsOn : List String
  budget : StepBudget
  fallbackRef : Option String
deriving DecidableEq, Repr

structure AcceptedStep where
  ordinal : Nat
  proposal : ProposedStep
  agentResource : Option String
  agentRevision : Option String
  allowedToolNames : List String
deriving DecidableEq, Repr

/-- A plan as `validate_investigation_plan` leaves it, which refuses one without steps. -/
structure AcceptedInvestigationPlan where
  objective : String
  completionCondition : String
  uncertainties : List String
  steps : List AcceptedStep
  nonempty : steps ≠ []
deriving DecidableEq, Repr

/-- A row of `investigation_plans`. -/
structure PlanRow where
  id : String
  incidentId : String
  planVersion : Nat
  objective : String
  completionCondition : String
  uncertainties : List String
  contentHash : String
  status : PlanStatus
  createdByAgentRunId : String
  supersedesId : Option String
deriving DecidableEq, Repr

/-- A row of `investigation_steps`: the step as it was accepted, and the columns
that change. -/
structure StepRow extends AcceptedStep where
  id : String
  planId : String
  status : StepStatus
  currentAgentRunId : Option String
  resultRef : Option String
  evidenceDeltaCount : Nat
  retryNotBefore : Option Int
  startedAt : Option Int
  completedAt : Option Int
deriving DecidableEq, Repr

/-- `logical_step_key` by its parts, or the key of a run of some other kind. -/
inductive LogicalStepKey where
  | investigation (incidentId : String) (planVersion : Nat) (stepKey : String)
  | other (key : String)
deriving DecidableEq, Repr

/-- A row of `agent_runs`, with the moment it was written. -/
structure RunRow where
  id : String
  incidentId : Option String
  investigationStepId : Option String
  logicalStepKey : LogicalStepKey
  agentKey : String
  agentResource : String
  agentRevision : String
  invocationId : String
  workflowVersion : Nat
  attempt : Nat
  status : RunStatus
  deadline : Int
  budget : StepBudget
  inputRef : String
  inputContext : Json
  inputHash : String
  traceId : String
  spanId : String
  sessionId : Option String
  runtimeOperationName : Option String
  runtimeInputRef : Option String
  runtimeOutputRef : Option String
  outputRef : Option String
  outputHash : Option String
  errorClass : Option String
  startedAt : Option Int
  completedAt : Option Int
  createdAt : Int

structure CoordinatorAuthority where
  owner : String
  leaseToken : Token
  workflowVersion : Nat
deriving DecidableEq, Repr

structure RuntimeDispatch where
  runId : String
  invocationId : String
  incidentId : String
  planId : String
  planVersion : Nat
  stepId : String
  stepKey : String
  logicalStepKey : LogicalStepKey
  agentKey : String
  agentResource : String
  agentRevision : String
  scopeRef : String
  purpose : String
  allowedToolNames : List String
  workflowVersion : Nat
  deadline : Int
  budget : StepBudget
  inputRef : String
  inputHash : String
  traceId : String
  spanId : String
  context : Json

structure RuntimeInvocationReceipt where
  runtimeOperationName : String
  sessionId : Option String
  runtimeInputRef : Option String
  runtimeOutputRef : Option String
deriving DecidableEq, Repr

/-- What `pending` reads of a run, of which `fail` looks at these columns. -/
structure PendingRuntimeRun where
  runId : String
  runtimeOperationName : String
  investigationStepId : Option String
deriving DecidableEq, Repr

/-- What `expired_created` reads of a run, of which its recovery looks at these columns. -/
structure ExpiredCreatedRuntimeRun where
  runId : String
  invocationId : String
  workflowVersion : Nat
  runtimeOperationName : Option String
  inputHash : String
deriving DecidableEq, Repr

/-- The hashes of `investigation_material`. -/
structure Hashing where
  planContentHash : AcceptedInvestigationPlan → String
  inputHash : String → CoordinatorAuthority → StepRow → Json → String

/-- One scope's investigations, and the handles that have been given out. -/
structure InvestigationStore where
  now : Int
  incidents : List IncidentRow
  plans : List PlanRow
  steps : List StepRow
  runs : List RunRow
  dispatches : List RuntimeDispatch
  pendings : List PendingRuntimeRun

/-- `_lock_incident` -/
def lockIncident (s : InvestigationStore) (incidentId : String) (authority : CoordinatorAuthority) :
    Option Unit :=
  if s.incidents.any (fun i =>
      i.id == incidentId && i.workflowVersion == authority.workflowVersion &&
        leaseLive s.now authority.owner authority.leaseToken i.lease) then some ()
  else none

/-- The plan of an incident that work may be done for. -/
def InvestigationStore.accepts (s : InvestigationStore) (incidentId planId : String) : Bool :=
  s.plans.any (fun p => p.id == planId && p.incidentId == incidentId && p.status == .accepted)

/-- A plan that work may be done for, whatever its incident. -/
def InvestigationStore.acceptedPlan (s : InvestigationStore) (planId : String) : Bool :=
  s.plans.any (fun p => p.id == planId && p.status == .accepted)

/-- The run a step's `current_agent_run_id` joins. -/
def InvestigationStore.currentRun (s : InvestigationStore) (step : StepRow) : Option RunRow :=
  step.currentAgentRunId.bind (fun id => Table.find RunRow.id id s.runs)

/-- No element of `depends_on_json` is without a step of the plan, or has one
that is not done. -/
def InvestigationStore.unblocked (s : InvestigationStore) (step : StepRow) : Bool :=
  step.proposal.dependsOn.all (fun key =>
    let required := s.steps.filter (fun r => r.planId == step.planId && r.proposal.stepKey == key)
    !required.isEmpty && required.all (fun r => r.status.done))

/-- `r.attempt = 1 AND s.fallback_ref IS NOT NULL` -/
def retries (run : RunRow) (step : StepRow) : Bool :=
  run.attempt == 1 && step.proposal.fallbackRef.isSome

/-- The columns of a step whose attempt has ended without a result: up for its
fallback, or failed. Only some statements set `retry_not_before`. -/
def StepRow.ended (now : Int) (retry : Bool) (deferral : Option Int) (resultRef : String)
    (step : StepRow) : StepRow :=
  { step with
    status := if retry then .ready else .failed
    currentAgentRunId := if retry then none else step.currentAgentRunId
    startedAt := if retry then none else step.startedAt
    completedAt := if retry then none else some now
    retryNotBefore := if retry ∧ deferral.isSome then deferral else step.retryNotBefore
    resultRef := some resultRef }

/-- `now() + (%(retry_backoff_ms)s * interval '1 millisecond')` -/
def InvestigationStore.deferral (s : InvestigationStore) : Option Int :=
  some (s.now + milliseconds dispatchRetryBackoffMs)

/-- The `CHECK`s of `investigation_steps` on its times. -/
def StepRow.checked (step : StepRow) : Bool :=
  match step.completedAt with
  | none => true
  | some completed => step.startedAt.any (fun started => decide (started ≤ completed))

/-- `error_class[:128]` -/
def clipped (errorClass : String) : String := String.ofList (errorClass.toList.take 128)

end Solvan.Investigation
