import Solvan.Base.Machine
import Solvan.Investigation.Plans

/-! What becomes of an attempt: `PostgresRuntimeRunStore` and
`PostgresInvestigationResultStore`. -/
namespace Solvan.Investigation
open Workflow (IncidentRow)

/-- The run that a handle from `expired_created` still describes. -/
def ExpiredCreatedRuntimeRun.describes (run : ExpiredCreatedRuntimeRun) (r : RunRow) : Bool :=
  r.id == run.runId && r.invocationId == run.invocationId && r.status == .created &&
    r.workflowVersion == run.workflowVersion && r.inputHash == run.inputHash

/-- `adopt_created_dispatch` -/
def adoptCreatedDispatch (s : InvestigationStore) (run : ExpiredCreatedRuntimeRun)
    (runtimeOutputRef : String) : Option InvestigationStore :=
  if run.runtimeOperationName.isNone ∨ !runtimeOutputRef.startsWith "gs://" then none
  else
    let hit := fun r : RunRow => run.describes r && r.runtimeOperationName == run.runtimeOperationName &&
      r.runtimeOutputRef.all (fun ref => ref == runtimeOutputRef)
    some { s with
      runs := Table.update hit
        (fun r =>
          { r with
            status := .dispatched
            runtimeOutputRef := r.runtimeOutputRef.or (some runtimeOutputRef)
            startedAt := r.startedAt.or (some s.now) }) s.runs }

inductive CreatedExpiry where
  | acceptanceUnknown | receiptIncomplete | outputInvalid
deriving DecidableEq, Repr

def CreatedExpiry.errorClass : CreatedExpiry → String
  | .acceptanceUnknown => "DISPATCH_ACCEPTANCE_UNKNOWN"
  | .receiptIncomplete => "DISPATCH_RECEIPT_INCOMPLETE"
  | .outputInvalid => "DISPATCH_OUTPUT_INVALID"

/-- `expire_created`, which leaves a run that was taken up meanwhile alone. -/
def expireCreated (s : InvestigationStore) (run : ExpiredCreatedRuntimeRun)
    (expiry : CreatedExpiry) : InvestigationStore :=
  match s.runs.find? run.describes with
  | none => s
  | some r =>
    endAttempt s r .timedOut expiry.errorClass
      (fun step => step.status == .ready || step.status.underway)
      ("runtime-error:" ++ expiry.errorClass)

/-- `fail` -/
def fail (s : InvestigationStore) (run : PendingRuntimeRun) (errorClass : String) :
    Option InvestigationStore := do
  let r ← s.runs.find? (fun r =>
    r.id == run.runId && r.runtimeOperationName == some run.runtimeOperationName &&
      (r.status == .dispatched || r.status == .running))
  let status := if errorClass = "RUNTIME_DEADLINE_EXCEEDED" then RunStatus.timedOut else .failed
  return endAttempt s r status (clipped errorClass)
    (fun step => run.investigationStepId == some step.id && step.status.underway)
    ("runtime-error:" ++ clipped errorClass)

/-- `pending`: the runs a result is waited for. -/
def pendingRuns (s : InvestigationStore) : List PendingRuntimeRun :=
  (s.runs.filter (fun r => r.status == .dispatched || r.status == .running)).filterMap (fun r =>
    match r.runtimeOperationName, r.runtimeOutputRef with
    | some operation, some _ => some ⟨r.id, operation, r.investigationStepId⟩
    | _, _ => none)

inductive AgentSemanticStatus where
  | succeeded | insufficientEvidence
deriving DecidableEq, Repr

/-- The citations of a finding. -/
structure FindingCommit where
  findingKey : String
  evidenceRefs : List String
  contradictionRefs : List String
deriving DecidableEq, Repr

structure AgentCompletion where
  agentResource : String
  agentRevision : String
  invocationId : String
  incidentId : String
  workflowVersion : Nat
  inputScopeHash : String
  outputRef : String
  outputHash : String
  outputSizeBytes : Nat
  semanticStatus : AgentSemanticStatus
  evidenceRefs : List String
  findings : List FindingCommit
  completedAt : Int
  traceId : String
deriving DecidableEq, Repr

inductive AgentCompletionDisposition where
  | applied | duplicate | stale | rejected
deriving DecidableEq, Repr

/-- A run with its step and plan, as `_load_run` joins them. -/
structure LoadedRun where
  run : RunRow
  step : StepRow
  plan : PlanRow

/-- `_load_run` -/
def loadRun (s : InvestigationStore) (completion : AgentCompletion) : Option LoadedRun := do
  let run ← s.runs.find? (fun r =>
    r.invocationId == completion.invocationId && r.incidentId == some completion.incidentId)
  let step ← s.steps.find? (fun step => run.investigationStepId == some step.id)
  let plan ← s.plans.find? (fun p => p.id == step.planId)
  return ⟨run, step, plan⟩

/-- `_validate_exact_material` -/
def exactMaterial (run : RunRow) (completion : AgentCompletion) : Bool :=
  run.agentResource == completion.agentResource && run.agentRevision == completion.agentRevision &&
    run.workflowVersion == completion.workflowVersion &&
    run.inputHash == completion.inputScopeHash && run.traceId == completion.traceId &&
    decide (1 ≤ completion.outputSizeBytes) &&
    decide (completion.findings.map FindingCommit.findingKey).Nodup &&
    completion.findings.all (fun f => f.evidenceRefs.all (fun ref => !f.contradictionRefs.contains ref))

/-- `_all_evidence_refs`, in no particular order. -/
def allEvidenceRefs (completion : AgentCompletion) : List String :=
  (completion.evidenceRefs ++
    completion.findings.flatMap (fun f => f.evidenceRefs ++ f.contradictionRefs)).dedup

/-- `_reject`, whose statements look at no status and do not set `retry_not_before`. -/
def reject (s : InvestigationStore) (loaded : LoadedRun) (reasonCode : String)
    (status : RunStatus) : InvestigationStore :=
  { s with
    runs := Table.update (fun r => r.id == loaded.run.id)
      (fun r => { r with status, errorClass := some reasonCode, completedAt := some s.now }) s.runs
    steps := Table.update
      (fun step => step.id == loaded.step.id && step.currentAgentRunId == some loaded.run.id)
      (fun step => step.ended s.now (retries loaded.run loaded.step) none
        ("runtime-error:" ++ reasonCode)) s.steps }

/-- `_mark_stale` -/
def markStale (s : InvestigationStore) (run : RunRow) : InvestigationStore :=
  { s with
    runs := Table.update (fun r => r.id == run.id && r.status.live)
      (fun r =>
        { r with
          status := .stale
          completedAt := some s.now
          errorClass := some "PLAN_OR_ATTEMPT_SUPERSEDED" }) s.runs }

/-- The two updates that take a result. -/
def takeResult (s : InvestigationStore) (loaded : LoadedRun) (completion : AgentCompletion)
    (status : StepStatus) : InvestigationStore :=
  { s with
    runs := Table.update (fun r => r.id == loaded.run.id && r.status.live)
      (fun r =>
        { r with
          status := .succeeded
          outputRef := some completion.outputRef
          outputHash := some completion.outputHash
          completedAt := some completion.completedAt }) s.runs
    steps := Table.update
      (fun step => step.id == loaded.step.id && step.currentAgentRunId == some loaded.run.id &&
        step.status.underway)
      (fun step =>
        { step with
          status
          resultRef := some completion.outputRef
          evidenceDeltaCount := (allEvidenceRefs completion).length
          completedAt := some completion.completedAt }) s.steps }

/-- `_complete_plan_if_done` -/
def completePlanIfDone (s : InvestigationStore) (planId : String) : InvestigationStore :=
  { s with
    plans := Table.update
      (fun p => p.id == planId && p.status == .accepted &&
        s.steps.all (fun step => step.planId != p.id || step.status.done))
      (fun p => { p with status := .completed }) s.plans }

/-- What follows a result that is taken. -/
def settleResult (s : InvestigationStore) (loaded : LoadedRun) (completion : AgentCompletion) :
    InvestigationStore :=
  match completion.semanticStatus with
  | .succeeded =>
    completePlanIfDone
      (promote (takeResult s loaded completion .succeeded) (fun id => id == loaded.step.planId))
      loaded.step.planId
  | .insufficientEvidence => takeResult s loaded completion .failed

/-- `commit_agent_completion`; `evidence` is what there is of the incident's evidence. -/
def commitAgentCompletion (s : InvestigationStore) (authority : CoordinatorAuthority)
    (completion : AgentCompletion) (evidence : List String) :
    Option (InvestigationStore × AgentCompletionDisposition) := do
  lockIncident s completion.incidentId authority
  let loaded ← loadRun s completion
  let run := loaded.run
  if !exactMaterial run completion then none
  else if run.status = .succeeded ∨ run.status = .failed ∨ run.status = .timedOut then
    if run.outputHash = some completion.outputHash then return (s, .duplicate) else none
  else if loaded.plan.status ≠ .accepted ∨ loaded.step.currentAgentRunId ≠ some run.id then
    return (markStale s run, .stale)
  else if run.budget.maxOutputBytes < completion.outputSizeBytes then
    return (reject s loaded "OUTPUT_BUDGET_EXCEEDED" .failed, .rejected)
  else if run.deadline < completion.completedAt then
    return (reject s loaded "RUNTIME_DEADLINE_EXCEEDED" .timedOut, .rejected)
  else if !(allEvidenceRefs completion).all (fun ref => evidence.contains ref) then none
  else return (settleResult s loaded completion, .applied)

/-- The transactions on investigations. `incidents` is what other transactions do
to incidents, and `supervise` is a run of no step, whatever has become of it. -/
inductive InvestigationMove where
  | tick (micros : Nat)
  | incidents (rows : List IncidentRow)
  | supervise (run : RunRow)
  | persistAcceptedPlan (incidentId supervisorRunId : String) (authority : CoordinatorAuthority)
      (plan : AcceptedInvestigationPlan) (planId : String) (stepIds : List String)
  | reserveReadyDispatches (incidentId : String) (authority : CoordinatorAuthority)
      (batchSize : Nat) (news : List NewDispatch)
  | attachDispatchContext (dispatch : RuntimeDispatch) (context : Json) (newHash : String)
  | recordRuntimeDispatch (dispatch : RuntimeDispatch) (receipt : RuntimeInvocationReceipt)
  | recordRuntimeDispatchFailure (dispatch : RuntimeDispatch) (errorClass : String)
  | pending
  | commitAgentCompletion (authority : CoordinatorAuthority) (completion : AgentCompletion)
      (evidence : List String)
  | adoptCreatedDispatch (run : ExpiredCreatedRuntimeRun) (runtimeOutputRef : String)
  | expireCreated (run : ExpiredCreatedRuntimeRun) (expiry : CreatedExpiry)
  | fail (run : PendingRuntimeRun) (errorClass : String)

/-- A handle that `reserve_ready_dispatches` gave out, as enrichment may have left it. -/
def RuntimeDispatch.givenOut (dispatch : RuntimeDispatch) (s : InvestigationStore) : Bool :=
  s.dispatches.any (fun d =>
    d.runId == dispatch.runId && d.invocationId == dispatch.invocationId &&
      d.stepId == dispatch.stepId && d.planId == dispatch.planId)

/-- The effect of a transaction, if it does not raise. Whoever records what came
of a dispatch or of a pending run was given the handle. -/
def InvestigationStore.apply (hashing : Hashing) (s : InvestigationStore) :
    InvestigationMove → Option InvestigationStore
  | .tick micros => some { s with now := s.now + micros }
  | .incidents incidents => some { s with incidents }
  | .supervise run =>
    match run.logicalStepKey, run.investigationStepId with
    | .other _, none => insertRun s run
    | _, _ => none
  | .persistAcceptedPlan incidentId supervisorRunId authority plan planId stepIds =>
    persistAcceptedPlan hashing s incidentId supervisorRunId authority plan planId stepIds
  | .reserveReadyDispatches incidentId authority batchSize news =>
    (reserveReadyDispatches hashing s incidentId authority batchSize news).map (fun (s, dispatches) =>
      { s with dispatches := dispatches ++ s.dispatches })
  | .attachDispatchContext dispatch context newHash =>
    if dispatch.givenOut s then attachDispatchContext s dispatch context newHash else none
  | .recordRuntimeDispatch dispatch receipt =>
    if dispatch.givenOut s then recordRuntimeDispatch s dispatch receipt else none
  | .recordRuntimeDispatchFailure dispatch errorClass =>
    if dispatch.givenOut s then recordRuntimeDispatchFailure s dispatch errorClass else none
  | .pending => some { s with pendings := pendingRuns s ++ s.pendings }
  | .commitAgentCompletion authority completion evidence =>
    (commitAgentCompletion s authority completion evidence).map Prod.fst
  | .adoptCreatedDispatch run runtimeOutputRef => adoptCreatedDispatch s run runtimeOutputRef
  | .expireCreated run expiry => some (expireCreated s run expiry)
  | .fail run errorClass => if run ∈ s.pendings then fail s run errorClass else none

/-- One committed transaction. What breaks a `CHECK` is rolled back. -/
def InvestigationStore.next (hashing : Hashing) (s : InvestigationStore) (move : InvestigationMove) :
    Option InvestigationStore :=
  (s.apply hashing move).filter (fun s => s.steps.all StepRow.checked)

def InvestigationStore.empty (now : Int) : InvestigationStore := ⟨now, [], [], [], [], [], []⟩

def investigationMachine (hashing : Hashing) : Machine InvestigationStore InvestigationMove :=
  .ofFn (fun s => ∃ now, s = .empty now) (InvestigationStore.next hashing)

end Solvan.Investigation
