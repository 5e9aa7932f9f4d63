import Mathlib.Data.List.MinMax
import Solvan.Investigation.Store

/-! `PostgresInvestigationStore`: plans, and the attempts made at their steps. -/
namespace Solvan.Investigation

/-- `INSERT INTO agent_runs`, with its keys and the index of active attempts. -/
def insertRun (s : InvestigationStore) (run : RunRow) : Option InvestigationStore :=
  if s.runs.any (fun r =>
      r.id == run.id || r.invocationId == run.invocationId ||
        (decide (r.logicalStepKey = run.logicalStepKey) &&
          (r.attempt == run.attempt || (r.status.live && run.status.live)))) then none
  else some { s with runs := s.runs ++ [run] }

/-- The plan of an incident with the highest version. -/
def latestPlan (s : InvestigationStore) (incidentId : String) : Option PlanRow :=
  (s.plans.filter (fun p => p.incidentId == incidentId)).argmax PlanRow.planVersion

/-- What becomes of an accepted plan when the next one replaces it. -/
def supersede (s : InvestigationStore) (planId : String) : InvestigationStore :=
  let steps := Table.update (fun r => r.planId == planId && r.status.unsettled)
    (fun r => { r with status := .stale, completedAt := r.startedAt.map (fun _ => s.now) }) s.steps
  let attempted := (steps.filter (fun r => r.planId == planId)).filterMap StepRow.currentAgentRunId
  { s with
    plans := Table.update (fun p => p.id == planId && p.status == .accepted)
      (fun p => { p with status := .superseded }) s.plans
    steps
    runs := Table.update (fun r => attempted.contains r.id && r.status.live)
      (fun r =>
        { r with
          status := .stale
          completedAt := some s.now
          errorClass := some "PLAN_SUPERSEDED" }) s.runs }

/-- `INSERT INTO investigation_plans`, with its keys and the index of current plans. -/
def insertPlan (s : InvestigationStore) (plan : PlanRow) : Option InvestigationStore :=
  if s.plans.any (fun p =>
      p.id == plan.id || (p.incidentId == plan.incidentId &&
        (p.planVersion == plan.planVersion || p.createdByAgentRunId == plan.createdByAgentRunId ||
          p.status == .accepted))) then none
  else some { s with plans := s.plans ++ [plan] }

/-- A step as it is written with its plan. -/
def StepRow.proposed (planId : String) (step : AcceptedStep) (id : String) : StepRow :=
  { step with
    id
    planId
    status := if step.proposal.dependsOn.isEmpty then .ready else .planned
    currentAgentRunId := none
    resultRef := none
    evidenceDeltaCount := 0
    retryNotBefore := none
    startedAt := none
    completedAt := none }

/-- `INSERT INTO investigation_steps`, with its keys. -/
def insertStep (s : InvestigationStore) (step : StepRow) : Option InvestigationStore :=
  if s.steps.any (fun r =>
      r.id == step.id || (r.planId == step.planId &&
        (r.proposal.stepKey == step.proposal.stepKey || r.ordinal == step.ordinal))) then none
  else some { s with steps := s.steps ++ [step] }

def insertSteps (planId : String) :
    InvestigationStore → List AcceptedStep → List String → Option InvestigationStore
  | s, [], _ => some s
  | s, step :: steps, id :: ids => do
    let s ← insertStep s (.proposed planId step id)
    insertSteps planId s steps ids
  | _, _ :: _, [] => none

/-- `persist_accepted_plan`. What one supervisor run has created stays as it is. -/
def persistAcceptedPlan (hashing : Hashing) (s : InvestigationStore)
    (incidentId supervisorRunId : String) (authority : CoordinatorAuthority)
    (plan : AcceptedInvestigationPlan) (planId : String) (stepIds : List String) :
    Option InvestigationStore := do
  lockIncident s incidentId authority
  let supervised := s.runs.any (fun r =>
    r.id == supervisorRunId && r.incidentId == some incidentId &&
      r.agentKey == "incident-supervisor" && r.status == .succeeded &&
      r.workflowVersion == authority.workflowVersion)
  if !supervised then none
  else
    match s.plans.find? (fun p =>
        p.incidentId == incidentId && p.createdByAgentRunId == supervisorRunId) with
    | some existing => if existing.contentHash ≠ hashing.planContentHash plan then none else some s
    | none =>
      let previous := latestPlan s incidentId
      let s := match previous with
        | some p => if p.status = .accepted then supersede s p.id else s
        | none => s
      let s ← insertPlan s
        ⟨planId, incidentId, match previous with | some p => p.planVersion + 1 | none => 1,
          plan.objective, plan.completionCondition, plan.uncertainties,
          hashing.planContentHash plan, .accepted, supervisorRunId, previous.map PlanRow.id⟩
      insertSteps planId s plan.steps stepIds

/-- `dispatch_deadline` has passed for an attempt that was never dispatched. -/
def dispatchDeadlineExceeded : String := "DISPATCH_DEADLINE_EXCEEDED"

/-- The run the first statement of `_expire_created_attempts` hits. -/
def expiredHit (s : InvestigationStore) (incidentId : String) (r : RunRow) : Bool :=
  r.status == .created && decide (r.deadline ≤ s.now) &&
    s.steps.any (fun step => step.currentAgentRunId == some r.id && s.accepts incidentId step.planId)

def expireRuns (s : InvestigationStore) (incidentId : String) : InvestigationStore :=
  { s with
    runs := Table.update (expiredHit s incidentId)
      (fun r =>
        { r with
          status := .timedOut
          errorClass := some dispatchDeadlineExceeded
          completedAt := some s.now }) s.runs }

/-- The run a step stands at is one the sweep has timed out, now or before. -/
def sweptRun (r : RunRow) : Bool :=
  r.status == .timedOut && r.errorClass == some dispatchDeadlineExceeded

/-- The second statement, which joins every step with its current run. It does
not set `retry_not_before`. -/
def releaseExpiredSteps (s : InvestigationStore) (incidentId : String) : InvestigationStore :=
  { s with
    steps := s.steps.map (fun step =>
      match s.currentRun step with
      | some run =>
        if s.accepts incidentId step.planId && sweptRun run then
          step.ended s.now (retries run step) none ("runtime-error:" ++ dispatchDeadlineExceeded)
        else step
      | none => step) }

/-- `_expire_created_attempts` -/
def expireCreatedAttempts (s : InvestigationStore) (incidentId : String) : InvestigationStore :=
  releaseExpiredSteps (expireRuns s incidentId) incidentId

/-- `_promote_unblocked_steps`, and `_promote_dependents` for one plan. -/
def promote (s : InvestigationStore) (plan : String → Bool) : InvestigationStore :=
  { s with
    steps := Table.update (fun r => plan r.planId && r.status == .planned && s.unblocked r)
      (fun r => { r with status := .ready }) s.steps }

/-- The identifiers of one dispatch, and the context read for it. -/
structure NewDispatch where
  runId : String
  invocationId : String
  traceId : String
  spanId : String
  context : Json

/-- `COALESCE(max(attempt), 0) + 1` -/
def nextAttempt (s : InvestigationStore) (key : LogicalStepKey) : Nat :=
  ((s.runs.filter (fun r => decide (r.logicalStepKey = key))).map RunRow.attempt).foldr max 0 + 1

/-- The step as the dispatch finds it: `READY`, without a run. -/
def dispatchHit (step : StepRow) (r : StepRow) : Bool :=
  r.id == step.id && r.status == .ready && r.currentAgentRunId.isNone

/-- `create_investigation_dispatch` -/
def createInvestigationDispatch (hashing : Hashing) (s : InvestigationStore) (incidentId : String)
    (authority : CoordinatorAuthority) (plan : PlanRow) (step : StepRow) (new : NewDispatch) :
    Option (InvestigationStore × RuntimeDispatch) := do
  let agentKey ← step.proposal.agentKey
  let agentResource ← step.agentResource
  let agentRevision ← step.agentRevision
  let key : LogicalStepKey := .investigation incidentId plan.planVersion step.proposal.stepKey
  let inputHash := hashing.inputHash incidentId authority step new.context
  let inputRef := "db://solvan/investigation-steps/" ++ step.id
  let budget := step.proposal.budget
  let run : RunRow :=
    { id := new.runId
      incidentId := some incidentId
      investigationStepId := some step.id
      logicalStepKey := key
      agentKey
      agentResource
      agentRevision
      invocationId := new.invocationId
      workflowVersion := authority.workflowVersion
      attempt := nextAttempt s key
      status := .created
      deadline := s.now + milliseconds budget.deadlineMs
      budget
      inputRef
      inputContext := new.context
      inputHash
      traceId := new.traceId
      spanId := new.spanId
      sessionId := none
      runtimeOperationName := none
      runtimeInputRef := none
      runtimeOutputRef := none
      outputRef := none
      outputHash := none
      errorClass := none
      startedAt := none
      completedAt := none
      createdAt := s.now }
  let s ← insertRun s run
  let steps := Table.update (dispatchHit step)
    (fun r =>
      { r with
        status := .dispatched
        currentAgentRunId := some new.runId
        startedAt := some s.now }) s.steps
  return ({ s with steps },
    { runId := run.id
      invocationId := run.invocationId
      incidentId
      planId := step.planId
      planVersion := plan.planVersion
      stepId := step.id
      stepKey := step.proposal.stepKey
      logicalStepKey := key
      agentKey
      agentResource
      agentRevision
      scopeRef := step.proposal.scopeRef
      purpose := step.proposal.purpose
      allowedToolNames := step.allowedToolNames
      workflowVersion := authority.workflowVersion
      deadline := run.deadline
      budget
      inputRef
      inputHash
      traceId := run.traceId
      spanId := run.spanId
      context := new.context })

/-- The steps of an incident's accepted plan, each with the plan. -/
def acceptedSteps (s : InvestigationStore) (incidentId : String) : List (PlanRow × StepRow) :=
  (s.plans.filter (fun p => p.incidentId == incidentId && p.status == .accepted)).flatMap (fun p =>
    (s.steps.filter (fun r => r.planId == p.id)).map (fun r => (p, r)))

/-- `ORDER BY s.ordinal` -/
def byOrdinal (rows : List (PlanRow × StepRow)) : List (PlanRow × StepRow) :=
  rows.insertionSort (fun a b => a.2.ordinal ≤ b.2.ordinal)

/-- `dispatch_from_row` -/
def dispatchFromRow (plan : PlanRow) (step : StepRow) (run : RunRow) : RuntimeDispatch where
  runId := run.id
  invocationId := run.invocationId
  incidentId := run.incidentId.getD "None"
  planId := plan.id
  planVersion := plan.planVersion
  stepId := step.id
  stepKey := step.proposal.stepKey
  logicalStepKey := run.logicalStepKey
  agentKey := run.agentKey
  agentResource := run.agentResource
  agentRevision := run.agentRevision
  scopeRef := step.proposal.scopeRef
  purpose := step.proposal.purpose
  allowedToolNames := step.allowedToolNames
  workflowVersion := run.workflowVersion
  deadline := run.deadline
  budget := step.proposal.budget
  inputRef := run.inputRef
  inputHash := run.inputHash
  traceId := run.traceId
  spanId := run.spanId
  context := run.inputContext

/-- Attempts that were created and not dispatched yet. -/
def createdDispatches (s : InvestigationStore) (incidentId : String) (batchSize : Nat) :
    List RuntimeDispatch :=
  ((byOrdinal (acceptedSteps s incidentId)).filterMap (fun (plan, step) =>
    (s.currentRun step).bind (fun run =>
      if run.status = .created ∧ s.now < run.deadline then some (dispatchFromRow plan step run)
      else none))).take batchSize

/-- The steps a new attempt may be made at. -/
def dispatchable (s : InvestigationStore) (incidentId : String) (batchSize : Nat) :
    List (PlanRow × StepRow) :=
  ((byOrdinal (acceptedSteps s incidentId)).filter (fun (_, step) =>
    step.status == .ready && step.proposal.kind == .invokeAgent && step.currentAgentRunId.isNone &&
      step.retryNotBefore.all (fun moment => decide (moment ≤ s.now)))).take batchSize

def createDispatches (hashing : Hashing) (incidentId : String) (authority : CoordinatorAuthority) :
    InvestigationStore → List (PlanRow × StepRow) → List NewDispatch →
      Option (InvestigationStore × List RuntimeDispatch)
  | s, [], _ => some (s, [])
  | s, (plan, step) :: rest, new :: news => do
    let (s, dispatch) ← createInvestigationDispatch hashing s incidentId authority plan step new
    let (s, dispatches) ← createDispatches hashing incidentId authority s rest news
    return (s, dispatch :: dispatches)
  | _, _ :: _, [] => none

/-- `reserve_ready_dispatches` -/
def reserveReadyDispatches (hashing : Hashing) (s : InvestigationStore) (incidentId : String)
    (authority : CoordinatorAuthority) (batchSize : Nat) (news : List NewDispatch) :
    Option (InvestigationStore × List RuntimeDispatch) :=
  if batchSize < 1 then none
  else do
    lockIncident s incidentId authority
    let s := expireCreatedAttempts s incidentId
    let s := promote s (s.accepts incidentId)
    let created := createdDispatches s incidentId batchSize
    let remaining := batchSize - created.length
    if remaining = 0 then return (s, created)
    else
      let (s, dispatches) ← createDispatches hashing incidentId authority s
        (dispatchable s incidentId remaining) news
      return (s, created ++ dispatches)

/-- The run `record_runtime_dispatch` hits. -/
def recordHit (s : InvestigationStore) (dispatch : RuntimeDispatch) (r : RunRow) : Bool :=
  r.id == dispatch.runId && r.invocationId == dispatch.invocationId && r.status == .created &&
    s.acceptedPlan dispatch.planId &&
    s.steps.any (fun step => step.currentAgentRunId == some r.id && step.planId == dispatch.planId)

/-- `record_runtime_dispatch` -/
def recordRuntimeDispatch (s : InvestigationStore) (dispatch : RuntimeDispatch)
    (receipt : RuntimeInvocationReceipt) : Option InvestigationStore :=
  if s.runs.any (recordHit s dispatch) then
    some { s with
      runs := Table.update (recordHit s dispatch)
        (fun r =>
          { r with
            status := .dispatched
            runtimeOperationName := some receipt.runtimeOperationName
            sessionId := receipt.sessionId
            runtimeInputRef := receipt.runtimeInputRef
            runtimeOutputRef := receipt.runtimeOutputRef }) s.runs }
  else none

/-- The end of an attempt, and what becomes of the step that stands at it. -/
def endAttempt (s : InvestigationStore) (run : RunRow) (status : RunStatus) (errorClass : String)
    (hit : StepRow → Bool) (resultRef : String) : InvestigationStore :=
  { s with
    runs := Table.update (fun r => r.id == run.id)
      (fun r => { r with status, errorClass := some errorClass, completedAt := some s.now }) s.runs
    steps := Table.update (fun step => step.currentAgentRunId == some run.id && hit step)
      (fun step => step.ended s.now (retries run step) s.deferral resultRef) s.steps }

/-- `record_runtime_dispatch_failure` -/
def recordRuntimeDispatchFailure (s : InvestigationStore) (dispatch : RuntimeDispatch)
    (errorClass : String) : Option InvestigationStore := do
  let run ← s.runs.find? (fun r =>
    r.id == dispatch.runId && r.invocationId == dispatch.invocationId && r.status == .created)
  return endAttempt s run .failed errorClass
    (fun step => step.id == dispatch.stepId && s.acceptedPlan step.planId)
    ("runtime-error:" ++ clipped errorClass)

/-- `attach_dispatch_context`, which binds what was added to the input of an attempt. -/
def attachDispatchContext (s : InvestigationStore) (dispatch : RuntimeDispatch)
    (context : Json) (newHash : String) : Option InvestigationStore :=
  let hit := fun r : RunRow => r.id == dispatch.runId && r.invocationId == dispatch.invocationId &&
    r.status == .created && r.inputHash == dispatch.inputHash
  if s.runs.any hit then
    some { s with
      runs := Table.update hit (fun r => { r with inputContext := context, inputHash := newHash })
        s.runs }
  else none

end Solvan.Investigation
