import Solvan.Investigation.Runs

namespace Solvan.Investigation

variable {hashing : Hashing} {s s' : InvestigationStore} {step : StepRow} {r : RunRow} {p : PlanRow}

/-- The steps of the plan that a step depends on are done. -/
def DependenciesDone (s : InvestigationStore) (step : StepRow) : Prop :=
  ∀ required ∈ s.steps, required.planId = step.planId →
    required.proposal.stepKey ∈ step.proposal.dependsOn → required.status.done = true

/-- A step of an accepted plan agrees with its runs. -/
structure StepAgrees (s : InvestigationStore) (step : StepRow) : Prop where
  underway : step.status.underway = true ↔ ∃ r, s.currentRun step = some r ∧
    r.investigationStepId = some step.id ∧ r.status.live = true
  one : ((s.runsOf step.id).filter (fun r => r.status.live)).length ≤ 1
  two : (s.runsOf step.id).length ≤ 2
  ready : step.status = .ready → DependenciesDone s step

/-- Plans, steps and runs agree. -/
structure Agrees (s : InvestigationStore) : Prop where
  steps : ∀ p ∈ s.plans, p.status = .accepted → ∀ step ∈ s.steps, step.planId = p.id →
    StepAgrees s step
  completed : ∀ p ∈ s.plans, p.status = .completed ↔
    ∀ step ∈ s.steps, step.planId = p.id → step.status.done = true
  current : ∀ p ∈ s.plans, ∀ p' ∈ s.plans, p.incidentId = p'.incidentId → p.status = .accepted →
    p'.status = .accepted → p = p'

theorem dependenciesDone_of_unblocked (h : s.unblocked step = true) : DependenciesDone s step := by
  intro required hm hplan hkey
  simp only [InvestigationStore.unblocked, List.all_eq_true, Bool.and_eq_true] at h
  refine (h _ hkey).2 required ?_
  simp [hm, hplan]

theorem Sound.underway_iff (hs : Sound s) (hm : step ∈ s.steps) :
    step.status.underway = true ↔ ∃ r, s.currentRun step = some r ∧
      r.investigationStepId = some step.id ∧ r.status.live = true := by
  constructor
  · intro hu
    obtain ⟨r, hr, live⟩ := (hs.shape step hm).live_of_underway hu
    obtain ⟨-, hcurrent, -⟩ := (hs.shape step hm).of_live hr live
    exact ⟨r, hs.currentRun_eq (mem_runsOf.mp hr).1 hcurrent, (mem_runsOf.mp hr).2, live⟩
  · rintro ⟨r, hcurrent, hown, live⟩
    exact ((hs.shape step hm).of_live (mem_runsOf.mpr ⟨(of_currentRun hcurrent).1, hown⟩) live).1

/-- Runs before a live one have ended. -/
theorem Shape.live_le_one {runs : List RunRow} (shape : Shape step runs) :
    (runs.filter (fun r => r.status.live)).length ≤ 1 := by
  by_cases hlive : ∃ r ∈ runs, r.status.live = true
  · obtain ⟨r, hr, live⟩ := hlive
    obtain ⟨-, -, earlier, rfl, hended⟩ := shape.of_live hr live
    have hnone : earlier.filter (fun r => r.status.live) = [] :=
      List.filter_eq_nil_iff.mpr (fun r' hr' => by simp [hended r' hr'])
    rw [List.filter_append, hnone, List.nil_append]
    exact List.length_filter_le _ _
  · have hnone : runs.filter (fun r => r.status.live) = [] :=
      List.filter_eq_nil_iff.mpr (fun r hr live => hlive ⟨r, hr, live⟩)
    simp [hnone]

theorem Shape.length_le_two {runs : List RunRow} (shape : Shape step runs) : runs.length ≤ 2 := by
  have hlength := shape.sound.length_le
  rw [task, List.length_map] at hlength
  exact hlength

theorem Sound.agrees (hs : Sound s) : Agrees s := by
  refine ⟨fun p _ _ step hm _ => ?_, fun p hp => ?_, fun p hp p' hp' hincident haccepted haccepted' => ?_⟩
  · refine ⟨hs.underway_iff hm, (hs.shape step hm).live_le_one, (hs.shape step hm).length_le_two,
      fun hready => dependenciesDone_of_unblocked (hs.unblocked step hm ?_ ?_)⟩
    · rw [hready]
      exact nofun
    · rw [hready]
      exact nofun
  · refine ⟨hs.completed p hp, fun hall => ?_⟩
    by_contra hne
    obtain ⟨step, hm, hplan, hdone⟩ := hs.unfinished p hp hne
    rw [hall step hm hplan] at hdone
    cases hdone
  · refine hs.planVersions.eq_of_key hp hp' (Prod.ext hincident ?_)
    have hle := hs.latest p hp p' hp' hincident.symm haccepted
    have hge := hs.latest p' hp' p hp hincident haccepted'
    exact Nat.le_antisymm hge hle

/-- In every state that transactions lead to, plans, steps and runs agree, and
the next one leaves each run that has ended as it is. -/
theorem plans_coherent (h : (investigationMachine hashing).Reach s) :
    Agrees s ∧ ∀ move s', (investigationMachine hashing).step s move s' →
      ∀ r ∈ s.runs, r.status.live = false → Table.find RunRow.id r.id s'.runs = some r := by
  have hs := reach_sound h
  refine ⟨hs.agrees, fun move s' hnext r hr hended => ?_⟩
  obtain ⟨hs', hmoves⟩ := next_sound hs hnext
  exact hs'.runKeys.find_eq (hmoves.ended r hr hended)

section Example

def investigated : Workflow.IncidentRow :=
  { id := "inc_1"
    workflowVersion := 3
    evidenceVersion := 0
    state := .investigating
    incidentClass := "db_pool_exhaustion"
    primaryServiceId := "payments"
    reliabilityCaseId := none
    productionGraphSnapshotId := "graph_1"
    actionAttemptCount := 0
    actionBudget := 2
    cooldownUntil := none
    suspectedRootCauseId := none
    confirmedRootCauseId := none
    lease := some ⟨"a", 1, 3600000000⟩ }

def supervised : RunRow :=
  { id := "run_0"
    incidentId := some "inc_1"
    investigationStepId := none
    logicalStepKey := .other "supervise"
    agentKey := "incident-supervisor"
    agentResource := "agents/supervisor"
    agentRevision := "1"
    invocationId := "inv_0"
    workflowVersion := 3
    attempt := 1
    status := .succeeded
    deadline := 0
    budget := ⟨1000, 1, 1000, 1, 0, thousand_valid⟩
    inputRef := "db://solvan/incidents/inc_1"
    inputContext := .null
    inputHash := "hash_0"
    traceId := "trace_0"
    spanId := "span_0"
    sessionId := none
    runtimeOperationName := none
    runtimeInputRef := none
    runtimeOutputRef := none
    outputRef := none
    outputHash := none
    errorClass := none
    startedAt := none
    completedAt := none
    createdAt := 0 }

/-- A plan of one step that has a second to be dispatched in. -/
def oneStep (fallbackRef : Option String) : AcceptedInvestigationPlan :=
  { objective := "find the cause"
    completionCondition := "a cause is found"
    uncertainties := []
    steps :=
      [{ ordinal := 1
         proposal := ⟨"logs", .invokeAgent, some "log-reader", "payments", "read the logs", true, [],
          ⟨1000, 1, 1000, 1, 0, thousand_valid⟩, fallbackRef⟩
         agentResource := some "agents/log-reader"
         agentRevision := some "1"
         allowedToolNames := [] }]
    nonempty := List.cons_ne_nil _ _ }

def named : Hashing := ⟨fun plan => plan.objective, fun incidentId _ step _ => incidentId ++ step.id⟩

def coordinator : CoordinatorAuthority := ⟨"a", 1, 3⟩

/-- A plan is accepted and its step is dispatched. -/
def dispatchedOnce (fallbackRef : Option String) : List InvestigationMove :=
  [.incidents [investigated], .supervise supervised,
    .persistAcceptedPlan "inc_1" "run_0" coordinator (oneStep fallbackRef) "plan_1" ["step_1"],
    .reserveReadyDispatches "inc_1" coordinator 1 [⟨"run_1", "inv_1", "trace_1", "span_1", .null⟩]]

theorem plans_coherent_dispatched :
    ∃ s, (investigationMachine named).Reach s ∧ s.steps.map StepRow.status = [.dispatched] ∧
      Agrees s := by
  have hrun : ((Machine.runFn (InvestigationStore.next named) (.empty 0) (dispatchedOnce none)).any
      (fun s => s.steps.map StepRow.status == [.dispatched])) = true := by
    decide +kernel
  obtain ⟨s, reach, hs⟩ := (Machine.exists_reach (dispatchedOnce none) ⟨0, rfl⟩ hrun :
    ∃ s, (investigationMachine named).Reach s ∧ _)
  exact ⟨s, reach, beq_iff_eq.mp hs, (plans_coherent reach).1⟩

end Example

end Solvan.Investigation
