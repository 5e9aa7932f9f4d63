import Solvan.Investigation.Operations

/-! `persist_accepted_plan`: the plan before is superseded, the new one is written. -/
namespace Solvan.Investigation

variable {turns : Turn → Prop} {s s' : InvestigationStore} {step : StepRow} {r : RunRow}
  {p plan : PlanRow} {planId id incidentId : String} {hashing : Hashing}
  {authority : CoordinatorAuthority}

/-- The plan that is superseded. -/
def supersededPlan (planId : String) (p : PlanRow) : PlanRow :=
  if p.id == planId && p.status == .accepted then { p with status := .superseded } else p

/-- A step of the plan that is superseded. -/
def supersededStep (s : InvestigationStore) (planId : String) (step : StepRow) : StepRow :=
  if step.planId == planId && step.status.unsettled then
    { step with status := .stale, completedAt := step.startedAt.map (fun _ => s.now) }
  else step

/-- The run a step of the plan stands at. -/
def attempted (s : InvestigationStore) (planId : String) (r : RunRow) : Bool :=
  ((s.steps.map (supersededStep s planId)).filter (fun step => step.planId == planId)).filterMap
    StepRow.currentAgentRunId |>.contains r.id

/-- A run that is called off with its plan. -/
def calledOff (s : InvestigationStore) (r : RunRow) : RunRow :=
  { r with
    status := .stale
    completedAt := some s.now
    errorClass := some "PLAN_SUPERSEDED" }

theorem supersede_plans : (supersede s planId).plans = s.plans.map (supersededPlan planId) := rfl

theorem supersede_steps : (supersede s planId).steps = s.steps.map (supersededStep s planId) := rfl

theorem supersede_runs : (supersede s planId).runs =
    Table.update (fun r => attempted s planId r && r.status.live) (calledOff s) s.runs := rfl

theorem supersededStep_same (s : InvestigationStore) (planId : String) (step : StepRow) :
    (supersededStep s planId step).planId = step.planId ∧
      (supersededStep s planId step).currentAgentRunId = step.currentAgentRunId := by
  unfold supersededStep
  split <;> exact ⟨rfl, rfl⟩

theorem attempted_iff : attempted s planId r = true ↔
    ∃ step ∈ s.steps, step.planId = planId ∧ step.currentAgentRunId = some r.id := by
  simp only [attempted, List.contains_iff_mem, List.mem_filterMap, List.mem_filter, List.mem_map,
    beq_iff_eq]
  constructor
  · rintro ⟨step', ⟨⟨step, hm, rfl⟩, hplan⟩, hcurrent⟩
    obtain ⟨hp, hc⟩ := supersededStep_same s planId step
    exact ⟨step, hm, hp ▸ hplan, hc ▸ hcurrent⟩
  · rintro ⟨step, hm, hplan, hcurrent⟩
    obtain ⟨hp, hc⟩ := supersededStep_same s planId step
    exact ⟨_, ⟨⟨step, hm, rfl⟩, hp.trans hplan⟩, hc.trans hcurrent⟩

/-- A step that is underway has a run that is live. -/
theorem Shape.live_of_underway {runs : List RunRow} (shape : Shape step runs)
    (h : step.status.underway = true) : ∃ r ∈ runs, r.status.live = true := by
  have sound := shape.sound
  simp only [Attempts.Task.Sound, task, phase_of_underway h] at sound
  obtain ⟨tries, begun, heq, -, -⟩ := sound
  obtain ⟨earlier, last, rfl, -, hlast⟩ := List.map_eq_append_iff.mp heq
  obtain ⟨r, rfl, htry⟩ := List.map_eq_singleton_iff.mp hlast
  refine ⟨r, List.mem_append_right _ (List.mem_singleton_self r), ?_⟩
  rw [shape.timed r (List.mem_append_right _ (List.mem_singleton_self r))]
  simp only [RunRow.try_, Attempts.Try.mk.injEq] at htry
  rw [htry.2]
  rfl

theorem supersede_evolves (hs : Coherent s) (hm : step ∈ s.steps) :
    Evolves turns s.now (step, s.runsOf step.id)
      (supersededStep s planId step, (supersede s planId).runsOf step.id) := by
  have hlive : ∀ r ∈ s.runs, (attempted s planId r && r.status.live) = true → r.status.live = true := by
    intro r _ hq
    rw [Bool.and_eq_true] at hq
    exact hq.2
  have hsame : ∀ r ∈ s.runs, (attempted s planId r && r.status.live) = true → Same r (calledOff s r) :=
    fun r _ _ => ⟨rfl, rfl, rfl, rfl, rfl⟩
  by_cases hunderway : step.planId = planId ∧ step.status.underway = true
  · -- The run the step is underway at is called off with it.
    obtain ⟨r, hr, live⟩ := (hs.shape step hm).live_of_underway hunderway.2
    have hcurrent := ((hs.shape step hm).of_live hr live).2.1
    have hq : (attempted s planId r && r.status.live) = true := by
      rw [live, Bool.and_true]
      exact attempted_iff.mpr ⟨step, hm, hunderway.1, hcurrent⟩
    have hstep : supersededStep s planId step =
        { step with status := .stale, completedAt := step.startedAt.map (fun _ => s.now) } := by
      have hunsettled : step.status.unsettled = true := by
        cases hst : step.status <;> simp_all [StepStatus.underway, StepStatus.unsettled]
      simp [supersededStep, hunderway.1, hunsettled]
    rw [hstep]
    exact hs.evolves_ending hm supersede_runs hlive hsame hr hq ⟨rfl, rfl⟩ (fun _ => rfl)
      (fun h => by cases h) (.settled (.inr (.inr rfl)) rfl rfl rfl rfl)
  · have hidle : (supersede s planId).runsOf step.id = s.runsOf step.id := by
      refine runsOf_idle supersede_runs hsame (fun r hr => ?_)
      by_contra hq
      rw [Bool.not_eq_false, Bool.and_eq_true] at hq
      obtain ⟨hself, hcurrent, -⟩ := (hs.shape step hm).of_live hr hq.2
      obtain ⟨step', hm', hplan, hcurrent'⟩ := attempted_iff.mp hq.1
      have hown := hs.step_of_current hm' (mem_runsOf.mp hr).1 hcurrent'
      rw [(mem_runsOf.mp hr).2, Option.some.injEq] at hown
      obtain rfl := hs.stepKeys.eq_of_key hm hm' hown
      exact hunderway ⟨hplan, hself⟩
    rw [hidle]
    unfold supersededStep
    split
    · rename_i h
      simp only [Bool.and_eq_true, beq_iff_eq] at h
      refine .shelve ?_
      have hnot : step.status.underway ≠ true := fun hu => hunderway ⟨h.1, hu⟩
      cases hst : step.status <;> simp_all [StepStatus.underway, StepStatus.unsettled]
    · exact .same

theorem supersede_transforms (hs : Coherent s) :
    Transforms turns s (supersede s planId) (supersededPlan planId) (supersededStep s planId) := by
  refine ⟨⟨rfl, rfl, rfl⟩, rfl, fun p => ?_, rfl, fun step hm => supersede_evolves hs hm, .update ?_ ?_⟩
  · unfold supersededPlan
    split <;> exact ⟨rfl, rfl, rfl⟩
  · intro r _ hq
    rw [Bool.and_eq_true] at hq
    exact hq.2
  · exact fun r _ _ => ⟨rfl, rfl, rfl, rfl, rfl⟩

theorem supersede_coherent (hs : Coherent s) (hp : p ∈ s.plans) (accepted : p.status = .accepted) :
    Coherent (supersede s p.id) := by
  have t : Transforms (fun _ => False) s (supersede s p.id) (supersededPlan p.id)
    (supersededStep s p.id) := supersede_transforms hs
  have hother : ∀ p' ∈ s.plans, p'.id ≠ p.id → supersededPlan p.id p' = p' := by
    intro p' _ hne
    simp [supersededPlan, hne]
  have hself : supersededPlan p.id p = { p with status := .superseded } := by
    simp [supersededPlan, accepted]
  have hid : ∀ p', (supersededPlan p.id p').id = p'.id := fun p' => (t.frozen p').1
  refine ⟨t.keyed hs.toKeyed, ?_, ?_, ?_, ?_⟩
  · intro step' hm' p' hp' hplan
    rw [supersede_steps] at hm'
    rw [supersede_plans] at hp'
    obtain ⟨step, hm, rfl⟩ := List.mem_map.mp hm'
    obtain ⟨p₀, hp₀, rfl⟩ := List.mem_map.mp hp'
    rw [(t.frozenSteps step hm).2.2, hid] at hplan
    have hold := hs.standing step hm p₀ hp₀ hplan
    by_cases heq : p₀.id = p.id
    · obtain rfl := hs.planKeys.eq_of_key hp₀ hp heq
      rw [hself]
      refine ⟨fun hu => ?_, fun _ => rfl⟩
      unfold supersededStep at hu
      split at hu
      · cases hu
      · rename_i h
        exact absurd (by simp [hu, hplan]) h
    · rw [hother p₀ hp₀ heq]
      have hstep : supersededStep s p.id step = step := by
        have hne : step.planId ≠ p.id := fun h => heq (hplan.trans h)
        simp [supersededStep, hne]
      rw [hstep]
      exact hold
  · intro step' hm' hplanned hstale
    rw [supersede_steps] at hm'
    obtain ⟨step, hm, rfl⟩ := List.mem_map.mp hm'
    refine t.unblocked hm ?_
    unfold supersededStep at hplanned hstale
    split at hstale
    · exact absurd rfl hstale
    · rename_i hmiss
      rw [if_neg hmiss] at hplanned
      exact hs.unblocked step hm hplanned hstale
  · rw [supersede_plans]
    intro p₁ hp₁ p₂ hp₂ hincident haccepted
    obtain ⟨q₁, hq₁, rfl⟩ := List.mem_map.mp hp₁
    obtain ⟨q₂, hq₂, rfl⟩ := List.mem_map.mp hp₂
    rw [(t.frozen q₁).2.1, (t.frozen q₂).2.1] at hincident
    rw [(t.frozen q₁).2.2, (t.frozen q₂).2.2]
    refine hs.latest q₁ hq₁ q₂ hq₂ hincident ?_
    unfold supersededPlan at haccepted
    split at haccepted
    · cases haccepted
    · exact haccepted
  · intro p' hp' hc step' hm' hplan
    rw [supersede_steps] at hm'
    rw [supersede_plans] at hp'
    obtain ⟨p₀, hp₀, rfl⟩ := List.mem_map.mp hp'
    obtain ⟨step, hm, rfl⟩ := List.mem_map.mp hm'
    rw [(t.frozenSteps step hm).2.2, hid] at hplan
    refine (t.evolves step hm).done (hs.completed p₀ hp₀ ?_ step hm hplan)
    unfold supersededPlan at hc
    split at hc
    · cases hc
    · exact hc

theorem supersede_passes (none_ : ¬turns .succeeded) (hs : Coherent s) (hp : p ∈ s.plans)
    (accepted : p.status = .accepted) : Passes turns s (supersede s p.id) := by
  have t : Transforms turns s (supersede s p.id) (supersededPlan p.id) (supersededStep s p.id) :=
    supersede_transforms hs
  refine ⟨t.moves, supersede_coherent hs hp accepted, t.unfinished none_ (fun q hq hc => hq ?_)⟩
  unfold supersededPlan
  rw [if_neg (by simp [hc]), hc]

theorem Moves.of_same (frame : Frame s s') (steps : s'.steps = s.steps) (runs : s'.runs = s.runs) :
    Moves turns s s' := by
  have hruns : ∀ id, s'.runsOf id = s.runsOf id := fun id => by
    simp only [InvestigationStore.runsOf, runs]
  refine ⟨frame, fun step hm => ⟨step, steps ▸ hm, ?_⟩, fun step hm => ⟨step, _, ?_, .inl ⟨steps ▸ hm, rfl⟩⟩,
    fun r hr _ => runs ▸ hr, fun r hr => ⟨r, runs ▸ hr, .refl⟩⟩
  · rw [hruns]
  · rw [hruns]

/-- A plan that may be written: it is the only current one, and the latest. -/
structure NewPlan (s : InvestigationStore) (plan : PlanRow) : Prop where
  newId : ∀ p ∈ s.plans, p.id ≠ plan.id
  none_ : ∀ p ∈ s.plans, p.incidentId = plan.incidentId → p.status ≠ .accepted
  later : ∀ p ∈ s.plans, p.incidentId = plan.incidentId → p.planVersion < plan.planVersion
  accepted : plan.status = .accepted

theorem insertPlan_eq (h : insertPlan s plan = some s') :
    s' = { s with plans := s.plans ++ [plan] } ∧
      ∀ p ∈ s.plans, p.id ≠ plan.id ∧
        (p.incidentId = plan.incidentId → p.status ≠ .accepted) := by
  unfold insertPlan at h
  rw [Option.ite_none_left_eq_some, Option.some.injEq] at h
  obtain ⟨hfree, rfl⟩ := h
  refine ⟨rfl, fun p hp => ⟨fun hid => ?_, fun hincident haccepted => ?_⟩⟩
  · exact hfree (List.any_eq_true.mpr ⟨p, hp, by simp [hid]⟩)
  · exact hfree (List.any_eq_true.mpr ⟨p, hp, by simp [hincident, haccepted]⟩)

theorem NewPlan.coherent (n : NewPlan s plan) (hs : Coherent s)
    (h : s' = { s with plans := s.plans ++ [plan] }) : Coherent s' := by
  have hold : ∀ step ∈ s.steps, plan.id ≠ step.planId := by
    intro step hm he
    obtain ⟨p, hp, hid⟩ := hs.planned step hm
    exact n.newId p hp (hid.trans he.symm)
  subst h
  refine ⟨⟨hs.planKeys.append n.newId, hs.planVersions.append (fun p hp he => ?_), hs.stepKeys,
    hs.stepNames, hs.runKeys, fun r hr => ?_, fun step hm => ?_, hs.shape⟩, ?_, hs.unblocked, ?_, ?_⟩
  · rw [Prod.mk.injEq] at he
    exact absurd he.2 (Nat.ne_of_lt (n.later p hp he.1))
  · exact (hs.owned r hr).mono (fun p hp => ⟨p, List.mem_append_left _ hp, rfl, rfl, rfl⟩)
      (fun step hm => ⟨step, hm, rfl, rfl, rfl⟩)
  · obtain ⟨p, hp, hid⟩ := hs.planned step hm
    exact ⟨p, List.mem_append_left _ hp, hid⟩
  · intro step hm p hp hid
    rcases List.mem_append.mp hp with hp | hp
    · exact hs.standing step hm p hp hid
    · rw [List.mem_singleton.mp hp] at hid
      exact absurd hid (hold step hm)
  · intro p hp p' hp' hincident haccepted
    rcases List.mem_append.mp hp with hp | hp <;> rcases List.mem_append.mp hp' with hp' | hp'
    · exact hs.latest p hp p' hp' hincident haccepted
    · rw [List.mem_singleton.mp hp'] at hincident
      exact absurd haccepted (n.none_ p hp hincident.symm)
    · rw [List.mem_singleton.mp hp] at hincident ⊢
      exact Nat.le_of_lt (n.later p' hp' hincident)
    · rw [List.mem_singleton.mp hp, List.mem_singleton.mp hp']
  · intro p hp hc step hm hid
    rcases List.mem_append.mp hp with hp | hp
    · exact hs.completed p hp hc step hm hid
    · rw [List.mem_singleton.mp hp] at hid
      exact absurd hid.symm (hold step hm)

/-- A step that may be written: its keys are new, and its plan is a current one. -/
structure NewStep (s : InvestigationStore) (step : StepRow) : Prop where
  newId : ∀ r ∈ s.steps, r.id ≠ step.id
  newName : ∀ r ∈ s.steps, r.planId = step.planId → r.proposal.stepKey ≠ step.proposal.stepKey
  plan : ∃ p ∈ s.plans, p.id = step.planId ∧ p.status = .accepted
  proposed : ∃ accepted, step = .proposed step.planId accepted step.id

theorem insertStep_eq (h : insertStep s step = some s') :
    s' = { s with steps := s.steps ++ [step] } ∧
      ∀ r ∈ s.steps, r.id ≠ step.id ∧
        (r.planId = step.planId → r.proposal.stepKey ≠ step.proposal.stepKey) := by
  unfold insertStep at h
  rw [Option.ite_none_left_eq_some, Option.some.injEq] at h
  obtain ⟨hfree, rfl⟩ := h
  refine ⟨rfl, fun r hr => ⟨fun hid => ?_, fun hplan hname => ?_⟩⟩
  · exact hfree (List.any_eq_true.mpr ⟨r, hr, by simp [hid]⟩)
  · exact hfree (List.any_eq_true.mpr ⟨r, hr, by simp [hplan, hname]⟩)

/-- A new step waits, or is ready for it depends on nothing. -/
theorem NewStep.waits (n : NewStep s step) :
    step.currentAgentRunId = none ∧
      (step.status = .planned ∨ step.status = .ready ∧ step.proposal.dependsOn = [] ∧
        step.retryNotBefore = none) := by
  obtain ⟨accepted, heq⟩ := n.proposed
  rw [heq]
  refine ⟨rfl, ?_⟩
  cases hdepends : accepted.proposal.dependsOn with
  | nil => simp [StepRow.proposed, hdepends]
  | cons key keys => simp [StepRow.proposed, hdepends]

theorem NewStep.shape (n : NewStep s step) : Shape step [] := by
  obtain ⟨hcurrent, hstatus⟩ := n.waits
  have hsound : (task step []).Sound attemptLimit := by
    simp only [task, Attempts.Task.Sound, StepRow.phase]
    rcases hstatus with h | ⟨h, -⟩
    · simp only [h, List.map_nil]
    · simp only [h, List.map_nil]
      exact ⟨fun _ ht => absurd ht List.not_mem_nil, (by decide : 0 < attemptLimit)⟩
  refine ⟨hsound, fun _ hr => absurd hr List.not_mem_nil, rfl, ?_, fun _ hr => absurd hr List.not_mem_nil,
    fun _ hlast => absurd hlast.symm (Option.some_ne_none _)⟩
  unfold Stands
  rcases hstatus with h | ⟨h, -⟩
  · simp only [h, hcurrent]
  · simp only [h, hcurrent]

theorem NewStep.no_runs (n : NewStep s step) (hs : Keyed s) : s.runsOf step.id = [] := by
  refine List.filter_eq_nil_iff.mpr (fun r hr hown => ?_)
  have howned := hs.owned r hr
  rw [beq_iff_eq] at hown
  simp only [Owned, hown] at howned
  obtain ⟨step', hm', -, -, hid, -⟩ := howned
  exact n.newId step' hm' hid

theorem NewStep.unblocked {r : StepRow} (n : NewStep s step)
    (h : s' = { s with steps := s.steps ++ [step] }) (hu : s.unblocked r = true) :
    s'.unblocked r = true := by
  subst h
  simp only [InvestigationStore.unblocked, List.all_eq_true] at hu ⊢
  intro key hkey
  have hold := hu key hkey
  -- The new step has another name than those that are depended on.
  have hmiss : (step.planId == r.planId && step.proposal.stepKey == key) = false := by
    by_contra hhit
    simp only [Bool.not_eq_false, Bool.and_eq_true, beq_iff_eq] at hhit
    rw [Bool.and_eq_true, Bool.not_eq_true', List.isEmpty_eq_false_iff_exists_mem] at hold
    obtain ⟨⟨r', hr'⟩, -⟩ := hold
    simp only [List.mem_filter, Bool.and_eq_true, beq_iff_eq] at hr'
    exact n.newName r' hr'.1 (hr'.2.1.trans hhit.1.symm) (hr'.2.2.trans hhit.2.symm)
  rw [List.filter_append, List.filter_cons, hmiss, if_neg Bool.false_ne_true, List.filter_nil,
    List.append_nil]
  exact hold

theorem NewStep.coherent (n : NewStep s step) (hs : Coherent s)
    (h : s' = { s with steps := s.steps ++ [step] }) : Coherent s' := by
  have hblocked : ∀ r, s.unblocked r = true → s'.unblocked r = true := fun r hu => n.unblocked h hu
  have hself : ∀ p ∈ s.plans, p.id = step.planId → p.status = .accepted := by
    intro p hp hid
    obtain ⟨p', hp', hid', haccepted⟩ := n.plan
    exact hs.planKeys.eq_of_key hp' hp (hid'.trans hid.symm) ▸ haccepted
  obtain ⟨hcurrent, hstatus⟩ := n.waits
  subst h
  refine ⟨⟨hs.planKeys, hs.planVersions, hs.stepKeys.append n.newId,
    hs.stepNames.append (fun r hr he => ?_), hs.runKeys, fun r hr => ?_, fun r hm => ?_,
    fun r hm => ?_⟩, ?_, ?_, hs.latest, ?_⟩
  · rw [Prod.mk.injEq] at he
    exact n.newName r hr he.1 he.2
  · exact (hs.owned r hr).mono (fun p hp => ⟨p, hp, rfl, rfl, rfl⟩)
      (fun step hm => ⟨step, List.mem_append_left _ hm, rfl, rfl, rfl⟩)
  · rcases List.mem_append.mp hm with hm | hm
    · exact hs.planned r hm
    · obtain ⟨p, hp, hid, -⟩ := n.plan
      exact ⟨p, hp, List.mem_singleton.mp hm ▸ hid⟩
  · rcases List.mem_append.mp hm with hm | hm
    · exact hs.shape r hm
    · have hnone := n.no_runs hs.toKeyed
      simp only [InvestigationStore.runsOf] at hnone ⊢
      rw [List.mem_singleton.mp hm, hnone]
      exact n.shape
  · intro r hm p hp hid
    rcases List.mem_append.mp hm with hm | hm
    · exact hs.standing r hm p hp hid
    · rw [List.mem_singleton.mp hm] at hid ⊢
      refine ⟨fun _ => hself p hp hid, fun hst => ?_⟩
      rcases hstatus with h | ⟨h, -⟩ <;> rw [h] at hst <;> cases hst
  · intro r hm hplanned hstale
    rcases List.mem_append.mp hm with hm | hm
    · exact hblocked r (hs.unblocked r hm hplanned hstale)
    · rw [List.mem_singleton.mp hm] at hplanned ⊢
      rcases hstatus with h | ⟨-, hdepends, -⟩
      · exact absurd h hplanned
      · simp [InvestigationStore.unblocked, hdepends]
  · intro p hp hc r hm hid
    rcases List.mem_append.mp hm with hm | hm
    · exact hs.completed p hp hc r hm hid
    · rw [List.mem_singleton.mp hm] at hid
      rw [hself p hp hid.symm] at hc
      cases hc

theorem NewStep.moves (n : NewStep s step) (hs : Keyed s)
    (h : s' = { s with steps := s.steps ++ [step] }) : Moves turns s s' := by
  subst h
  refine ⟨⟨rfl, rfl, rfl⟩, fun r hm => ⟨r, List.mem_append_left _ hm, .refl⟩, fun r hm => ?_,
    fun r hr _ => hr, fun r hr => ⟨r, hr, .refl⟩⟩
  rcases List.mem_append.mp hm with hm | hm
  · exact ⟨r, _, .refl, .inl ⟨hm, rfl⟩⟩
  · have hnone := n.no_runs hs
    rw [List.mem_singleton.mp hm]
    refine ⟨step, [], ?_, .inr ⟨n.shape, rfl⟩⟩
    simp only [InvestigationStore.runsOf] at hnone ⊢
    rw [hnone]

/-- The steps of a plan are written after it. -/
theorem insertSteps_moves {steps : List AcceptedStep} {ids : List String} (hs : Coherent s)
    (plan : ∃ p ∈ s.plans, p.id = planId ∧ p.status = .accepted)
    (h : insertSteps planId s steps ids = some s') :
    Moves turns s s' ∧ Coherent s' ∧ s'.plans = s.plans ∧ (∀ r ∈ s.steps, r ∈ s'.steps) ∧
      (steps ≠ [] → ∃ r ∈ s'.steps, r.planId = planId ∧ r.status.done = false) := by
  induction steps generalizing s ids with
  | nil =>
    cases h
    exact ⟨.refl, hs, rfl, fun _ hr => hr, fun hne => absurd rfl hne⟩
  | cons step steps ih =>
    cases ids with
    | nil => cases h
    | cons id ids =>
      obtain ⟨s₁, hone, hrest⟩ := Option.bind_eq_some_iff.mp h
      obtain ⟨heq, hnew⟩ := insertStep_eq hone
      have n : NewStep s (.proposed planId step id) :=
        ⟨fun r hr => (hnew r hr).1, fun r hr => (hnew r hr).2, plan, step, rfl⟩
      have hplans : s₁.plans = s.plans := by rw [heq]
      have hmem : ∀ r, r ∈ s₁.steps ↔ r ∈ s.steps ∨ r = .proposed planId step id := by
        intro r
        rw [heq, List.mem_append, List.mem_singleton]
      obtain ⟨hmoves, hcoherent, hkept, hsteps, -⟩ :=
        ih (n.coherent hs heq) (hplans ▸ plan) hrest
      refine ⟨(n.moves hs.toKeyed heq).trans hmoves, hcoherent, hkept.trans hplans,
        fun r hr => hsteps r ((hmem r).mpr (.inl hr)), fun _ => ?_⟩
      refine ⟨_, hsteps _ ((hmem _).mpr (.inr rfl)), rfl, ?_⟩
      rcases n.waits.2 with hst | ⟨hst, -⟩ <;> rw [hst] <;> rfl

theorem latestPlan_le {previous : PlanRow} (h : latestPlan s incidentId = some previous)
    (hp : p ∈ s.plans) (hincident : p.incidentId = incidentId) :
    p.planVersion ≤ previous.planVersion := by
  have hm : p ∈ s.plans.filter (fun p => p.incidentId == incidentId) :=
    List.mem_filter.mpr ⟨hp, beq_iff_eq.mpr hincident⟩
  exact List.le_of_mem_argmax hm h

theorem latestPlan_mem {previous : PlanRow} (h : latestPlan s incidentId = some previous) :
    previous ∈ s.plans ∧ previous.incidentId = incidentId := by
  have hm := List.mem_filter.mp (List.argmax_mem h)
  exact ⟨hm.1, beq_iff_eq.mp hm.2⟩

theorem latestPlan_none (h : latestPlan s incidentId = none) :
    ∀ p ∈ s.plans, p.incidentId ≠ incidentId := by
  intro p hp hincident
  have hempty := List.argmax_eq_none.mp h
  exact List.filter_eq_nil_iff.mp hempty p hp (beq_iff_eq.mpr hincident)

/-- A plan with its steps, after the one before it is out of the way. -/
theorem insertPlan_passes {s₁ : InvestigationStore} {steps : List AcceptedStep} {ids : List String}
    (hs : Coherent s) (accepted : plan.status = .accepted) (nonempty : steps ≠ [])
    (later : ∀ p ∈ s.plans, p.incidentId = plan.incidentId → p.planVersion < plan.planVersion)
    (hplan : insertPlan s plan = some s₁) (h : insertSteps plan.id s₁ steps ids = some s') :
    Passes turns s s' := by
  obtain ⟨heq, hfree⟩ := insertPlan_eq hplan
  have n : NewPlan s plan :=
    ⟨fun p hp => (hfree p hp).1, fun p hp => (hfree p hp).2, later, accepted⟩
  have hmem : ∀ p, p ∈ s₁.plans ↔ p ∈ s.plans ∨ p = plan := by
    intro p
    rw [heq, List.mem_append, List.mem_singleton]
  have hmoves : Moves turns s s₁ := .of_same (by rw [heq]; exact .refl) (by rw [heq]) (by rw [heq])
  obtain ⟨hmoves', hcoherent, hplans, hsteps, hundone⟩ :=
    insertSteps_moves (n.coherent hs heq) ⟨plan, (hmem plan).mpr (.inr rfl), rfl, accepted⟩ h
  refine ⟨hmoves.trans hmoves', hcoherent, fun hu p hp hne => ?_⟩
  rw [hplans] at hp
  rcases (hmem p).mp hp with hp | rfl
  · obtain ⟨step, hm, hid, hdone⟩ := hu p hp hne
    exact ⟨step, hsteps step (by rw [heq]; exact hm), hid, hdone⟩
  · exact hundone nonempty

theorem persistAcceptedPlan_passes {supervisorRunId : String} {accepted : AcceptedInvestigationPlan}
    {ids : List String} (none_ : ¬turns .succeeded) (hs : Coherent s)
    (h : persistAcceptedPlan hashing s incidentId supervisorRunId authority accepted planId ids =
      some s') : Passes turns s s' := by
  unfold persistAcceptedPlan at h
  simp only [Option.bind_eq_bind, Option.bind_eq_some_iff] at h
  obtain ⟨-, -, h⟩ := h
  rw [Option.ite_none_left_eq_some] at h
  obtain ⟨-, h⟩ := h
  split at h
  · rw [Option.ite_none_left_eq_some, Option.some.injEq] at h
    exact h.2 ▸ .refl hs
  · obtain ⟨s₁, hplan, h⟩ := Option.bind_eq_some_iff.mp h
    cases hlatest : latestPlan s incidentId with
    | none =>
      rw [hlatest] at hplan
      exact insertPlan_passes hs rfl accepted.nonempty
        (fun p hp hincident => absurd hincident (latestPlan_none hlatest p hp)) hplan h
    | some previous =>
      obtain ⟨hprevious, hsame⟩ := latestPlan_mem hlatest
      simp only [hlatest] at hplan
      by_cases hcurrent : previous.status = .accepted
      · rw [if_pos hcurrent] at hplan
        have hover := supersede_passes none_ hs hprevious hcurrent
        refine hover.trans (insertPlan_passes hover.coherent rfl accepted.nonempty ?_ hplan h)
        intro p hp hincident
        rw [supersede_plans] at hp
        obtain ⟨p₀, hp₀, rfl⟩ := List.mem_map.mp hp
        have hfrozen : (supersededPlan previous.id p₀).incidentId = p₀.incidentId ∧
            (supersededPlan previous.id p₀).planVersion = p₀.planVersion := by
          unfold supersededPlan
          split <;> exact ⟨rfl, rfl⟩
        rw [hfrozen.2]
        exact Nat.lt_succ_of_le (latestPlan_le hlatest hp₀ (hfrozen.1 ▸ hincident))
      · rw [if_neg hcurrent] at hplan
        exact insertPlan_passes hs rfl accepted.nonempty
          (fun p hp hincident => Nat.lt_succ_of_le (latestPlan_le hlatest hp hincident)) hplan h

end Solvan.Investigation
