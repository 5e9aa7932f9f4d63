import Solvan.Investigation.Operations

/-! `reserve_ready_dispatches`: the sweep, the promotions and the new attempts. -/
namespace Solvan.Investigation

variable {turns : Turn → Prop} {s s' : InvestigationStore} {step step' : StepRow} {r run : RunRow}
  {p plan : PlanRow} {incidentId : String} {dispatch : RuntimeDispatch} {hashing : Hashing}
  {authority : CoordinatorAuthority} {new : NewDispatch}

/-- The sweep finds a first attempt that is up for its fallback. -/
def Burns (s : InvestigationStore) (incidentId : String) : Prop :=
  ∃ step ∈ s.steps, ∃ r, s.currentRun step = some r ∧ s.accepts incidentId step.planId = true ∧
    r.status = .created ∧ r.deadline ≤ s.now ∧ retries r step = true

/-- The sweep finds a step that it has failed before, at another moment. -/
def Resweeps (s : InvestigationStore) (incidentId : String) : Prop :=
  ∃ step ∈ s.steps, ∃ r, s.currentRun step = some r ∧ s.accepts incidentId step.planId = true ∧
    sweptRun r = true ∧ step.completedAt ≠ some s.now

theorem exists_currentRun {P : StepRow → RunRow → Bool} :
    (s.steps.any (fun step => (s.currentRun step).any (P step)) = true) ↔
      ∃ step ∈ s.steps, ∃ r, s.currentRun step = some r ∧ P step r = true := by
  simp only [List.any_eq_true, Option.any_eq_true]

instance : Decidable (Burns s incidentId) :=
  decidable_of_iff
    (s.steps.any (fun step => (s.currentRun step).any (fun r => s.accepts incidentId step.planId &&
      (r.status == .created && (decide (r.deadline ≤ s.now) && retries r step)))) = true) (by
      simp only [exists_currentRun, Burns, Bool.and_eq_true, beq_iff_eq, decide_eq_true_eq])

instance : Decidable (Resweeps s incidentId) :=
  decidable_of_iff
    (s.steps.any (fun step => (s.currentRun step).any (fun r => s.accepts incidentId step.planId &&
      (sweptRun r && decide (step.completedAt ≠ some s.now)))) = true) (by
      simp only [exists_currentRun, Resweeps, Bool.and_eq_true, decide_eq_true_eq])

/-- What the sweep makes of a step, given the run it stands at. -/
def sweptStep (s : InvestigationStore) (incidentId : String) (step : StepRow) : StepRow :=
  match (expireRuns s incidentId).currentRun step with
  | some run =>
    if s.accepts incidentId step.planId && sweptRun run then
      step.ended s.now (retries run step) none ("runtime-error:" ++ dispatchDeadlineExceeded)
    else step
  | none => step

theorem expireCreatedAttempts_steps :
    (expireCreatedAttempts s incidentId).steps = s.steps.map (sweptStep s incidentId) := rfl

/-- A run as the first statement of the sweep leaves it. -/
def timedOut (s : InvestigationStore) (r : RunRow) : RunRow :=
  { r with
    status := .timedOut
    errorClass := some dispatchDeadlineExceeded
    completedAt := some s.now }

theorem expireCreatedAttempts_runs : (expireCreatedAttempts s incidentId).runs =
    Table.update (expiredHit s incidentId) (timedOut s) s.runs := rfl

theorem expireRuns_currentRun (incidentId : String) (hs : Keyed s) (hr : r ∈ s.runs)
    (h : step.currentAgentRunId = some r.id) :
    (expireRuns s incidentId).currentRun step =
      some (if expiredHit s incidentId r then timedOut s r else r) := by
  have hfind : Table.find RunRow.id r.id (Table.update (expiredHit s incidentId) (timedOut s) s.runs) =
      (Table.find RunRow.id r.id s.runs).map
        (fun r => if expiredHit s incidentId r then timedOut s r else r) :=
    Table.find_update (by exact fun _ => rfl) r.id s.runs
  rw [hs.runKeys.find_eq hr] at hfind
  simp only [InvestigationStore.currentRun, h, Option.bind_some]
  exact hfind

theorem of_expiredHit (h : expiredHit s incidentId r = true) :
    r.status = .created ∧ r.deadline ≤ s.now ∧ ∃ step ∈ s.steps,
      step.currentAgentRunId = some r.id ∧ s.accepts incidentId step.planId = true := by
  simp only [expiredHit, Bool.and_eq_true, beq_iff_eq, decide_eq_true_eq, List.any_eq_true] at h
  exact ⟨h.1.1, h.1.2, h.2⟩

theorem expireCreatedAttempts_evolves (hs : Coherent s)
    (burns : Burns s incidentId → turns .unputOff)
    (resweeps : Resweeps s incidentId → turns .resettled) (hm : step ∈ s.steps) :
    Evolves turns s.now (step, s.runsOf step.id)
      (sweptStep s incidentId step, (expireCreatedAttempts s incidentId).runsOf step.id) := by
  have hlive : ∀ r ∈ s.runs, expiredHit s incidentId r = true → r.status.live = true := by
    intro r hr hq
    rw [(of_expiredHit hq).1]
    rfl
  have hsame : ∀ r ∈ s.runs, expiredHit s incidentId r = true → Same r (timedOut s r) :=
    fun r _ _ => ⟨rfl, rfl, rfl, rfl, rfl⟩
  cases hcurrent : step.currentAgentRunId with
  | none =>
    have hstep : sweptStep s incidentId step = step := by
      simp only [sweptStep, InvestigationStore.currentRun, hcurrent, Option.bind_none]
    rw [hstep]
    refine .of_idle (runsOf_idle expireCreatedAttempts_runs hsame (fun r hr => ?_))
    by_contra hq
    have hr' := (mem_runsOf.mp hr).1
    have hcur := ((hs.shape step hm).of_live hr (hlive r hr' (by simpa using hq))).2.1
    rw [hcurrent] at hcur
    cases hcur
  | some id =>
    obtain ⟨r, hr, rfl, hown, hmine⟩ := hs.of_current hm hcurrent
    have hrun := expireRuns_currentRun incidentId hs.toKeyed hr hcurrent
    cases hq : expiredHit s incidentId r with
    | true =>
      -- The run has just timed out.
      obtain ⟨hcreated, hdeadline, step', hm', hcur', haccepts⟩ := of_expiredHit hq
      have hself := hs.step_of_current hm' hr hcur'
      rw [hown, Option.some.injEq] at hself
      obtain rfl := hs.stepKeys.eq_of_key hm hm' hself
      have hstep : sweptStep s incidentId step = step.ended s.now (retries r step) none
          ("runtime-error:" ++ dispatchDeadlineExceeded) := by
        simp only [sweptStep, hrun, hq, if_true, haccepts, Bool.true_and]
        rfl
      rw [hstep]
      have hends : Ends turns s.now r s.now step (step.ended s.now (retries r step) none
          ("runtime-error:" ++ dispatchDeadlineExceeded)) ∧ _ :=
        Ends.of_ended retries_first (fun hretry => .inl (burns
          ⟨step, hm, r, hs.currentRun_eq hr hcurrent, haccepts, hcreated, hdeadline, hretry⟩))
      refine hs.evolves_ending hm expireCreatedAttempts_runs hlive hsame hmine hq ⟨rfl, rfl⟩
        (fun h => by cases h) (fun _ hne => ?_) hends.1
      cases hretry : retries r step with
      | true => simp [hretry, StepRow.ended] at hne
      | false => exact ⟨rfl, hretry, rfl⟩
    | false =>
      have hidle : (expireCreatedAttempts s incidentId).runsOf step.id = s.runsOf step.id := by
        refine runsOf_idle expireCreatedAttempts_runs hsame (fun r' hr' => ?_)
        by_contra hq'
        have hin := (mem_runsOf.mp hr').1
        have hcur := ((hs.shape step hm).of_live hr' (hlive r' hin (by simpa using hq'))).2.1
        rw [hcurrent, Option.some.injEq] at hcur
        rw [← hs.runKeys.eq_of_key hr hin hcur, hq] at hq'
        exact hq' rfl
      by_cases hagain : s.accepts incidentId step.planId = true ∧ sweptRun r = true
      · -- The run timed out before, and the step is failed once more.
        obtain ⟨hfailed, hretry, hresult⟩ := (hs.shape step hm).swept r (by
          obtain ⟨r', hlast, hcur⟩ := (hs.shape step hm).atLast_of_current hcurrent
          rw [hcurrent, Option.some.injEq] at hcur
          rw [hlast, hs.runKeys.eq_of_key hr (mem_runsOf.mp (List.mem_of_getLast? hlast)).1 hcur])
          hagain.2 (by rw [hcurrent]; exact Option.some_ne_none _)
        have hstep : sweptStep s incidentId step = { step with completedAt := some s.now } := by
          simp only [sweptStep, hrun, hq, Bool.false_eq_true, if_false, hagain.1, hagain.2,
            Bool.and_self, if_true, hretry, StepRow.ended, false_and, ← hresult, ← hfailed]
        rw [hstep]
        by_cases hnow : step.completedAt = some s.now
        · rw [← hnow]
          exact .of_idle hidle
        · rw [hidle]
          exact .resettle (resweeps ⟨step, hm, r, hs.currentRun_eq hr hcurrent, hagain.1, hagain.2,
            hnow⟩) hfailed
      · have hstep : sweptStep s incidentId step = step := by
          simp only [sweptStep, hrun, hq, Bool.false_eq_true, if_false, Bool.and_eq_true, if_neg hagain]
        rw [hstep]
        exact .of_idle hidle

theorem expireCreatedAttempts_advance (hs : Coherent s)
    (burns : Burns s incidentId → turns .unputOff)
    (resweeps : Resweeps s incidentId → turns .resettled) :
    Advance turns s (expireCreatedAttempts s incidentId) (sweptStep s incidentId) := by
  have hlive : ∀ r ∈ s.runs, expiredHit s incidentId r = true → r.status.live = true := by
    intro r _ hq
    rw [(of_expiredHit hq).1]
    rfl
  have hrows : ∀ step, sweptStep s incidentId step = step ∨ step.currentAgentRunId ≠ none ∧
      ∃ retry result, sweptStep s incidentId step = step.ended s.now retry none result := by
    intro step
    unfold sweptStep
    split
    · rename_i run hrun
      split
      · refine .inr ⟨?_, _, _, rfl⟩
        rw [(of_currentRun hrun).2]
        exact Option.some_ne_none _
      · exact .inl rfl
    · exact .inl rfl
  refine ⟨⟨⟨rfl, rfl, rfl⟩, by rw [List.map_id]; rfl, fun _ => ⟨rfl, rfl, rfl⟩, rfl,
    fun step hm => expireCreatedAttempts_evolves hs burns resweeps hm,
    .update hlive (fun r _ _ => ⟨rfl, rfl, rfl, rfl, rfl⟩)⟩, ?_, ?_⟩
  · intro step hm hp hne
    rcases hrows step with heq | ⟨hcurrent, -⟩
    · rw [heq] at hne
      exact absurd hp hne
    · have stands := (hs.shape step hm).stands
      simp only [Stands, hp] at stands
      exact absurd stands hcurrent
  · intro step hm hst
    rcases hrows step with heq | ⟨-, retry, result, heq⟩
    · rw [heq] at hst
      exact hst
    · rw [heq] at hst
      cases retry <;> simp [StepRow.ended] at hst

theorem foldr_max_range' (n : Nat) : (List.range' 1 n).foldr max 0 = n := by
  have hfrom : ∀ first n, (List.range' first (n + 1)).foldr max 0 = first + n := by
    intro first n
    induction n generalizing first with
    | zero => simp
    | succ n ih =>
      rw [List.range'_succ, List.foldr_cons, ih]
      omega
  cases n with
  | zero => rfl
  | succ n => rw [hfrom, Nat.add_comm]

/-- The attempts under a step's key are those of the step. -/
theorem nextAttempt_eq (hs : Keyed s) (hm : step ∈ s.steps) (hp : plan ∈ s.plans)
    (hplan : plan.id = step.planId) :
    nextAttempt s (.investigation plan.incidentId plan.planVersion step.proposal.stepKey) =
      (s.runsOf step.id).length + 1 := by
  have hfilter : s.runs.filter (fun r => decide (r.logicalStepKey =
      .investigation plan.incidentId plan.planVersion step.proposal.stepKey)) = s.runsOf step.id := by
    refine List.filter_congr (fun r hr => ?_)
    have howned := hs.owned r hr
    unfold Owned at howned
    cases hid : r.investigationStepId with
    | none =>
      simp only [hid] at howned
      obtain ⟨key, hkey⟩ := howned
      simp [hkey]
    | some id =>
      simp only [hid] at howned
      obtain ⟨step', hm', p', hp', rfl, hplan', hkey⟩ := howned
      refine Bool.eq_iff_iff.mpr ?_
      simp only [decide_eq_true_eq, beq_iff_eq, hkey, LogicalStepKey.investigation.injEq,
        Option.some.injEq]
      constructor
      · rintro ⟨hincident, hversion, hname⟩
        have hp'' : p' = plan := hs.planVersions.eq_of_key hp' hp (by rw [hincident, hversion])
        have hm'' : step' = step := hs.stepNames.eq_of_key hm' hm (by
          rw [hname, ← hplan', hp'', hplan])
        rw [hm'']
      · intro h
        have hm'' : step' = step := hs.stepKeys.eq_of_key hm' hm h
        have hp'' : p' = plan := hs.planKeys.eq_of_key hp' hp (by rw [hplan', hplan, hm''])
        rw [hm'', hp'']
        exact ⟨rfl, rfl, rfl⟩
  unfold nextAttempt
  rw [hfilter, (hs.shape step hm).numbered, foldr_max_range']

/-- The row a new attempt is made at, with the plan it belongs to. -/
structure Due (s : InvestigationStore) (incidentId : String) (plan : PlanRow) (step : StepRow) : Prop
    where
  hasPlan : plan ∈ s.plans
  hasStep : step ∈ s.steps
  planId : plan.id = step.planId
  incident : plan.incidentId = incidentId
  ready : step.status = .ready
  due : ∀ moment ∈ step.retryNotBefore, moment ≤ s.now

/-- A handle names a run of the step it names. -/
def Given (s : InvestigationStore) (dispatch : RuntimeDispatch) : Prop :=
  ∃ r ∈ s.runs, r.id = dispatch.runId ∧ r.investigationStepId = some dispatch.stepId

theorem insertRun_eq (h : insertRun s run = some s') :
    s' = { s with runs := s.runs ++ [run] } ∧ ∀ r ∈ s.runs, r.id ≠ run.id := by
  unfold insertRun at h
  rw [Option.ite_none_left_eq_some, Option.some.injEq] at h
  obtain ⟨hfree, rfl⟩ := h
  refine ⟨rfl, fun r hr hid => hfree (List.any_eq_true.mpr ⟨r, hr, ?_⟩)⟩
  simp [hid]

/-- The run of a new attempt. -/
structure NewRun (s : InvestigationStore) (incidentId : String) (plan : PlanRow) (step : StepRow)
    (run : RunRow) : Prop where
  ofStep : run.investigationStepId = some step.id
  key : run.logicalStepKey = .investigation incidentId plan.planVersion step.proposal.stepKey
  attempt : run.attempt = nextAttempt s run.logicalStepKey
  status : run.status = .created
  completedAt : run.completedAt = none
  createdAt : run.createdAt = s.now

theorem createInvestigationDispatch_eq
    (h : createInvestigationDispatch hashing s incidentId authority plan step new =
      some (s', dispatch)) :
    ∃ run, NewRun s incidentId plan step run ∧ (∀ r ∈ s.runs, r.id ≠ run.id) ∧
      dispatch.runId = run.id ∧ dispatch.stepId = step.id ∧
      s' = { s with
        runs := s.runs ++ [run]
        steps := Table.update (dispatchHit step)
          (fun r =>
            { r with
              status := .dispatched
              currentAgentRunId := some run.id
              startedAt := some s.now }) s.steps } := by
  unfold createInvestigationDispatch at h
  simp only [Option.bind_eq_bind, Option.bind_eq_some_iff, Option.pure_def, Option.some.injEq,
    Prod.mk.injEq] at h
  obtain ⟨agentKey, -, resource, -, revision, -, s₁, hinsert, rfl, rfl⟩ := h
  obtain ⟨rfl, hnew⟩ := insertRun_eq hinsert
  exact ⟨_, ⟨rfl, rfl, rfl, rfl, rfl, rfl⟩, hnew, rfl, rfl, rfl⟩

theorem createInvestigationDispatch_advance (hs : Coherent s) (d : Due s incidentId plan step)
    (h : createInvestigationDispatch hashing s incidentId authority plan step new =
      some (s', dispatch)) :
    (∃ g, Advance turns s s' g ∧ ∀ r ∈ s.steps, r.id ≠ step.id → g r = r) ∧
      Given s' dispatch := by
  obtain ⟨run, n, hnew, hrun, hstep, heq⟩ := createInvestigationDispatch_eq h
  have hruns : s'.runs = s.runs ++ [run] := by rw [heq]
  have hidle : step.currentAgentRunId = none := by
    have stands := (hs.shape step d.hasStep).stands
    simpa only [Stands, d.ready] using stands
  have hhit : dispatchHit step step = true := by simp [dispatchHit, d.ready, hidle]
  have hself : ∀ r ∈ s.steps, dispatchHit step r = true → r = step := by
    intro r hr hq
    simp only [dispatchHit, Bool.and_eq_true, beq_iff_eq] at hq
    exact hs.stepKeys.eq_of_key hr d.hasStep hq.1.1
  have hkey : run.logicalStepKey =
      .investigation plan.incidentId plan.planVersion step.proposal.stepKey := by
    rw [n.key, d.incident]
  refine ⟨⟨fun r => if dispatchHit step r then
      { r with
        status := .dispatched
        currentAgentRunId := some run.id
        startedAt := some s.now } else r,
    ⟨⟨by rw [heq]; exact ⟨rfl, rfl, rfl⟩, by rw [heq, List.map_id], fun _ => ⟨rfl, rfl, rfl⟩, by rw [heq]; rfl, ?_,
      hruns ▸ .insert hnew ?_⟩, ?_, ?_⟩, ?_⟩,
    ⟨run, by simp [hruns], hrun.symm, hstep ▸ n.ofStep⟩⟩
  · intro r hr
    rw [runsOf_insert hruns, n.ofStep]
    by_cases hid : r = step
    · subst hid
      rw [if_pos hhit, if_pos rfl]
      refine .dispatch d.ready d.due ⟨n.status, n.completedAt, n.createdAt, ?_⟩
      rw [n.attempt, hkey]
      exact nextAttempt_eq hs.toKeyed d.hasStep d.hasPlan d.planId
    · have hne : some step.id ≠ some r.id := fun he =>
        hid (hs.stepKeys.eq_of_key hr d.hasStep (Option.some.inj he).symm)
      rw [if_neg (fun hq => hid (hself r hr hq)), if_neg hne, List.append_nil]
      exact .same
  · simp only [Owned, n.ofStep]
    exact ⟨step, d.hasStep, plan, d.hasPlan, rfl, d.planId, hkey⟩
  · intro r hr hp hne
    have hmiss : ¬dispatchHit step r = true := by
      intro hq
      rw [hself r hr hq, d.ready] at hp
      cases hp
    rw [if_neg hmiss] at hne
    exact absurd hp hne
  · intro r hr hst
    split at hst
    · cases hst
    · exact hst
  · intro r hr hne
    exact if_neg (fun hq => hne (congrArg StepRow.id (hself r hr hq)))

/-- A dispatch that was given out goes on naming a run of its step. -/
theorem Given.moves (given : Given s dispatch) (m : Moves turns s s') : Given s' dispatch := by
  obtain ⟨r, hr, hid, hstep⟩ := given
  obtain ⟨r', hr', hsame⟩ := m.same r hr
  exact ⟨r', hr', hsame.id.trans hid, hsame.step.trans hstep⟩

theorem createDispatches_passes {rows : List (PlanRow × StepRow)} {news : List NewDispatch}
    {dispatches : List RuntimeDispatch} (none_ : ¬turns .succeeded) (hs : Coherent s)
    (due : ∀ row ∈ rows, Due s incidentId row.1 row.2) (distinct : (rows.map (·.2.id)).Nodup)
    (h : createDispatches hashing incidentId authority s rows news = some (s', dispatches)) :
    Passes turns s s' ∧ ∀ d ∈ dispatches, Given s' d := by
  induction rows generalizing s news dispatches with
  | nil =>
    simp only [createDispatches, Option.some.injEq, Prod.mk.injEq] at h
    obtain ⟨rfl, rfl⟩ := h
    exact ⟨.refl hs, fun d hd => (nomatch hd)⟩
  | cons row rest ih =>
    obtain ⟨plan, step⟩ := row
    cases news with
    | nil => cases h
    | cons new news =>
      simp only [createDispatches, Option.bind_eq_bind, Option.bind_eq_some_iff, Option.pure_def,
        Option.some.injEq, Prod.mk.injEq, Prod.exists] at h
      obtain ⟨s₁, dispatch, hone, s₂, dispatches, hrest, rfl, rfl⟩ := h
      rw [List.map_cons, List.nodup_cons] at distinct
      have hadvance : (∃ g, Advance turns s s₁ g ∧ ∀ r ∈ s.steps, r.id ≠ step.id → g r = r) ∧
          Given s₁ dispatch :=
        createInvestigationDispatch_advance hs (due (plan, step) List.mem_cons_self) hone
      obtain ⟨⟨g, advance, rest_same⟩, given⟩ := hadvance
      have hpass := advance.passes hs none_
      -- The other steps are as they were.
      have hdue : ∀ row ∈ rest, Due s₁ incidentId row.1 row.2 := by
        intro row hrow
        have d := due row (List.mem_cons_of_mem _ hrow)
        have hne : row.2.id ≠ step.id := fun he => distinct.1 (he ▸ List.mem_map_of_mem hrow)
        refine ⟨?_, ?_, d.planId, d.incident, d.ready, ?_⟩
        · rw [advance.transforms.plans, List.map_id]
          exact d.hasPlan
        · rw [advance.transforms.steps, ← rest_same row.2 d.hasStep hne]
          exact List.mem_map_of_mem d.hasStep
        · rw [advance.transforms.frame.1]
          exact d.due
      obtain ⟨hlater, hgiven⟩ := ih hpass.coherent hdue distinct.2 hrest
      refine ⟨hpass.trans hlater, fun d hd => ?_⟩
      rcases List.mem_cons.mp hd with rfl | hd
      · exact given.moves hlater.moves
      · exact hgiven d hd

theorem mem_acceptedSteps {row : PlanRow × StepRow} :
    row ∈ acceptedSteps s incidentId ↔ row.1 ∈ s.plans ∧ row.1.incidentId = incidentId ∧
      row.1.status = .accepted ∧ row.2 ∈ s.steps ∧ row.2.planId = row.1.id := by
  obtain ⟨plan, step⟩ := row
  simp only [acceptedSteps, List.mem_flatMap, List.mem_filter, List.mem_map, Prod.mk.injEq,
    Bool.and_eq_true, beq_iff_eq]
  constructor
  · rintro ⟨p, ⟨hp, hincident, haccepted⟩, r, ⟨hr, hplan⟩, rfl, rfl⟩
    exact ⟨hp, hincident, haccepted, hr, hplan⟩
  · rintro ⟨hp, hincident, haccepted, hr, hplan⟩
    exact ⟨plan, ⟨hp, hincident, haccepted⟩, step, ⟨hr, hplan⟩, rfl, rfl⟩

theorem nodup_acceptedSteps (hs : Keyed s) (incidentId : String) :
    ((acceptedSteps s incidentId).map (·.2.id)).Nodup := by
  have hids : (acceptedSteps s incidentId).map (·.2.id) =
      (s.plans.filter (fun p => p.incidentId == incidentId && p.status == .accepted)).flatMap
        (fun p => (s.steps.filter (fun r => r.planId == p.id)).map StepRow.id) := by
    simp only [acceptedSteps, List.map_flatMap, List.map_map]
    rfl
  rw [hids, List.nodup_flatMap]
  refine ⟨fun p _ => hs.stepKeys.sublist (List.filter_sublist.map StepRow.id), ?_⟩
  have hplans : ((s.plans.filter (fun p => p.incidentId == incidentId && p.status == .accepted)).map
      PlanRow.id).Nodup := hs.planKeys.sublist (List.filter_sublist.map PlanRow.id)
  refine (List.pairwise_map.mp hplans).imp (fun {p p'} hne => ?_)
  intro id hid hid'
  obtain ⟨r, hr, rfl⟩ := List.mem_map.mp hid
  obtain ⟨r', hr', heq⟩ := List.mem_map.mp hid'
  rw [List.mem_filter, beq_iff_eq] at hr hr'
  have hsame := hs.stepKeys.eq_of_key hr'.1 hr.1 heq
  exact hne (hr.2.symm.trans (hsame ▸ hr'.2))

theorem mem_byOrdinal {row : PlanRow × StepRow} {rows : List (PlanRow × StepRow)} :
    row ∈ byOrdinal rows ↔ row ∈ rows := List.mem_insertionSort _

theorem dispatchable_due {batchSize : Nat} {row : PlanRow × StepRow}
    (h : row ∈ dispatchable s incidentId batchSize) : Due s incidentId row.1 row.2 := by
  have hrow := List.mem_filter.mp (List.mem_of_mem_take h)
  obtain ⟨hp, hincident, -, hr, hplan⟩ := mem_acceptedSteps.mp (mem_byOrdinal.mp hrow.1)
  have hready := hrow.2
  simp only [Bool.and_eq_true, beq_iff_eq, Option.all_eq_true, decide_eq_true_eq] at hready
  exact ⟨hp, hr, hplan.symm, hincident, hready.1.1.1, hready.2⟩

theorem nodup_dispatchable (hs : Keyed s) (incidentId : String) (batchSize : Nat) :
    ((dispatchable s incidentId batchSize).map (·.2.id)).Nodup := by
  have hperm := (List.perm_insertionSort (fun a b : PlanRow × StepRow => a.2.ordinal ≤ b.2.ordinal)
    (acceptedSteps s incidentId)).map (·.2.id)
  have hsorted := hperm.nodup_iff.mpr (nodup_acceptedSteps hs incidentId)
  exact hsorted.sublist (((List.take_sublist _ _).trans List.filter_sublist).map _)

theorem createdDispatches_given {batchSize : Nat} (hs : Keyed s)
    (h : dispatch ∈ createdDispatches s incidentId batchSize) : Given s dispatch := by
  obtain ⟨⟨plan, step⟩, hrow, h⟩ := List.mem_filterMap.mp (List.mem_of_mem_take h)
  obtain ⟨-, -, -, hm, -⟩ := mem_acceptedSteps.mp (mem_byOrdinal.mp hrow)
  obtain ⟨r, hrun, h⟩ := Option.bind_eq_some_iff.mp h
  obtain ⟨hr, hcurrent⟩ := of_currentRun hrun
  rw [Option.ite_none_right_eq_some, Option.some.injEq] at h
  obtain ⟨-, rfl⟩ := h
  exact ⟨r, hr, rfl, hs.step_of_current hm hr hcurrent⟩

/-- A reservation, and what it gives out. -/
theorem reserveReadyDispatches_passes {batchSize : Nat} {news : List NewDispatch}
    {dispatches : List RuntimeDispatch} (none_ : ¬turns .succeeded) (hs : Coherent s)
    (burns : Burns s incidentId → turns .unputOff)
    (resweeps : Resweeps s incidentId → turns .resettled)
    (h : reserveReadyDispatches hashing s incidentId authority batchSize news =
      some (s', dispatches)) : Passes turns s s' ∧ ∀ d ∈ dispatches, Given s' d := by
  unfold reserveReadyDispatches at h
  rw [Option.ite_none_left_eq_some] at h
  obtain ⟨-, h⟩ := h
  simp only [Option.bind_eq_bind, Option.bind_eq_some_iff] at h
  obtain ⟨-, -, h⟩ := h
  have hswept := (expireCreatedAttempts_advance hs burns resweeps).passes hs none_
  obtain ⟨g, hpromote, -⟩ := promote_advance turns (expireCreatedAttempts s incidentId)
    ((expireCreatedAttempts s incidentId).accepts incidentId)
  have hpromoted := hswept.trans (hpromote.passes hswept.coherent none_)
  split at h
  · simp only [Option.pure_def, Option.some.injEq, Prod.mk.injEq] at h
    obtain ⟨rfl, rfl⟩ := h
    exact ⟨hpromoted, fun d hd => createdDispatches_given hpromoted.coherent.toKeyed hd⟩
  · simp only [Option.bind_eq_some_iff, Option.pure_def, Option.some.injEq, Prod.mk.injEq,
      Prod.exists] at h
    obtain ⟨s₁, created, hcreate, rfl, rfl⟩ := h
    obtain ⟨hlater, hgiven⟩ := createDispatches_passes none_ hpromoted.coherent
      (fun row hrow => dispatchable_due hrow)
      (nodup_dispatchable hpromoted.coherent.toKeyed incidentId _) hcreate
    refine ⟨hpromoted.trans hlater, fun d hd => ?_⟩
    rcases List.mem_append.mp hd with hd | hd
    · exact (createdDispatches_given hpromoted.coherent.toKeyed hd).moves hlater.moves
    · exact hgiven d hd

end Solvan.Investigation
