import Solvan.Domain.Investigation

/-! What an accepted plan keeps to, and that its order depends on nothing but the steps
and what each depends on. -/
namespace Solvan.Planning

open Solvan.Base

variable {sortedText : Finset String → String} {proposal proposal' : InvestigationPlanProposal}
  {policy : PlanValidationPolicy} {plan : AcceptedInvestigationPlan} {step : ProposedStep}
  {steps : List ProposedStep} {seen keys : List String}

/-- An agent's step keeps to the agent's limits, and a check of the coordinator's own uses
no agent. -/
def WithinAgent (policy : PlanValidationPolicy) (step : ProposedStep) : Prop :=
  match step.kind with
  | .coordinatorCheck => step.agentKey = none ∧ step.budget.maxToolCalls = 0 ∧
      step.budget.maxModelCalls = 0 ∧ step.budget.maxReplans = 0
  | .invokeAgent => ∃ agentKey agent, step.agentKey = some agentKey ∧
      policy.agentLimits agentKey = some agent ∧ step.scopeRef ∈ agent.allowedScopeRefs ∧
      step.budget.within agent.maximum = true

/-- What a step has to be by itself. -/
structure StepChecked (policy : PlanValidationPolicy) (step : ProposedStep) : Prop where
  key : stepKeyMatches step.stepKey = true
  scope : step.scopeRef ∈ policy.allowedScopeRefs
  purpose : blank step.purpose = false
  once : step.dependsOn.Nodup
  agent : WithinAgent policy step

/-- What a proposal has to be before its steps are put in order. -/
structure Checked (proposal : InvestigationPlanProposal) (policy : PlanValidationPolicy) : Prop where
  stated : blank proposal.objective = false ∧ blank proposal.completionCondition = false
  count : proposal.steps ≠ [] ∧ proposal.steps.length ≤ policy.maximumSteps
  steps : ∀ step ∈ proposal.steps, StepChecked policy step
  keys : proposal.keys.Nodup
  registered : ∀ key ∈ policy.requiredAgentKeys, (policy.agentLimits key).isSome
  selected : ∀ key ∈ policy.requiredAgentKeys, key ∈ proposal.selectedAgents
  known : ∀ step ∈ proposal.steps, ∀ dependency ∈ step.dependsOn, dependency ∈ proposal.keys
  irreflexive : ∀ step ∈ proposal.steps, step.stepKey ∉ step.dependsOn

theorem validateAgentAndBudget_ok_iff :
    validateAgentAndBudget step policy = .ok () ↔ WithinAgent policy step := by
  unfold validateAgentAndBudget WithinAgent
  cases step.kind with
  | coordinatorCheck =>
    simp only
    split
    · rename_i hused
      refine ⟨fun h => (nomatch h), fun ⟨hagent, htools, hmodels, hreplans⟩ => ?_⟩
      simp [hagent, htools, hmodels, hreplans] at hused
    · rename_i hunused
      simp only [not_or, not_not, ne_eq] at hunused
      exact ⟨fun _ => hunused, fun _ => rfl⟩
  | invokeAgent =>
    simp only
    constructor
    · intro h
      split at h
      · cases h
      · rename_i agent hsome
        obtain ⟨agentKey, hkey, hagent⟩ := Option.bind_eq_some_iff.mp hsome
        split at h
        · cases h
        · rename_i hscope
          split at h
          · cases h
          · rename_i hbudget
            exact ⟨agentKey, agent, hkey, hagent, not_not.mp hscope, by simpa using hbudget⟩
    · rintro ⟨agentKey, agent, hkey, hagent, hscope, hbudget⟩
      have hsome : step.agentKey.bind policy.agentLimits = some agent := by
        rw [hkey, Option.bind_some, hagent]
      simp [hsome, hscope, hbudget]

theorem validateStep_ok_iff : validateStep policy seen step = .ok () ↔
    StepChecked policy step ∧ step.stepKey ∉ seen := by
  unfold validateStep
  constructor
  · intro h
    split_ifs at h with hkey hseen hscope hpurpose honce
    exact ⟨⟨by simpa using hkey, hscope, by simpa using hpurpose, honce,
      validateAgentAndBudget_ok_iff.mp h⟩, hseen⟩
  · rintro ⟨⟨hkey, hscope, hpurpose, honce, hagent⟩, hseen⟩
    simp [hkey, hseen, hscope, hpurpose, honce, validateAgentAndBudget_ok_iff.mpr hagent]

theorem validateSteps_ok_iff : validateSteps policy seen steps = .ok () ↔
    (∀ step ∈ steps, StepChecked policy step) ∧ (steps.map ProposedStep.stepKey).Nodup ∧
      ∀ step ∈ steps, step.stepKey ∉ seen := by
  induction steps generalizing seen with
  | nil => simp [validateSteps]
  | cons step steps ih =>
    unfold validateSteps
    cases hstep : validateStep policy seen step with
    | error text =>
      refine ⟨fun h => (nomatch h), fun ⟨hall, _, hseen⟩ => ?_⟩
      have hok : validateStep policy seen step = .ok () := validateStep_ok_iff.mpr
        ⟨hall step List.mem_cons_self, hseen step List.mem_cons_self⟩
      rw [hstep] at hok
      cases hok
    | ok _ =>
      obtain ⟨hchecked, hnew⟩ := validateStep_ok_iff.mp hstep
      simp only [ih, List.forall_mem_cons, List.map_cons, List.nodup_cons, List.mem_append,
        List.mem_singleton, not_or, hchecked, hnew, true_and, not_false_eq_true]
      constructor
      · rintro ⟨hall, hnodup, hseen⟩
        refine ⟨hall, ⟨fun hmem => ?_, hnodup⟩, fun other hother => (hseen other hother).1⟩
        obtain ⟨other, hother, hsame⟩ := List.mem_map.mp hmem
        exact (hseen other hother).2 hsame
      · rintro ⟨hall, ⟨hfresh, hnodup⟩, hseen⟩
        refine ⟨hall, hnodup, fun other hother => ⟨hseen other hother, fun hsame => hfresh ?_⟩⟩
        exact hsame ▸ List.mem_map_of_mem hother

theorem validateDependencies_ok_iff : validateDependencies sortedText keys steps = .ok () ↔
    (∀ step ∈ steps, ∀ dependency ∈ step.dependsOn, dependency ∈ keys) ∧
      ∀ step ∈ steps, step.stepKey ∉ step.dependsOn := by
  induction steps with
  | nil => simp [validateDependencies]
  | cons step steps ih =>
    have hunknown : (step.dependsOn.toFinset \ keys.toFinset).Nonempty ↔
        ¬∀ dependency ∈ step.dependsOn, dependency ∈ keys := by
      simp [Finset.Nonempty, Finset.mem_sdiff]
    unfold validateDependencies
    simp only [hunknown, List.forall_mem_cons]
    split
    · rename_i hbad
      exact ⟨fun h => (nomatch h), fun h => absurd h.1.1 hbad⟩
    · rename_i hgood
      split
      · rename_i hself
        exact ⟨fun h => (nomatch h), fun h => absurd hself h.2.1⟩
      · rename_i hself
        rw [ih]
        exact ⟨fun h => ⟨⟨not_not.mp hgood, h.1⟩, hself, h.2⟩, fun h => ⟨h.1.2, h.2.2⟩⟩

/-- The checks before the order are passed by the proposals that keep to all of them. -/
theorem validateFields_ok_iff : validateFields sortedText proposal policy = .ok () ↔
    Checked proposal policy := by
  have hregistered : ¬(policy.requiredAgentKeys.filter (fun key => (policy.agentLimits key).isNone)).Nonempty ↔
      ∀ key ∈ policy.requiredAgentKeys, (policy.agentLimits key).isSome := by
    rw [Finset.not_nonempty_iff_eq_empty, Finset.filter_eq_empty_iff]
    refine forall₂_congr (fun key _ => ?_)
    cases policy.agentLimits key <;> simp
  have hselected : ¬(policy.requiredAgentKeys \ proposal.selectedAgents).Nonempty ↔
      ∀ key ∈ policy.requiredAgentKeys, key ∈ proposal.selectedAgents := by
    rw [Finset.not_nonempty_iff_eq_empty, Finset.sdiff_eq_empty_iff_subset]
    exact Iff.rfl
  unfold validateFields
  constructor
  · intro h
    split_ifs at h with hstated hcount
    split at h
    · cases h
    · rename_i hsteps
      simp only at h
      split_ifs at h with hunregistered hmissing
      obtain ⟨hall, hkeys, -⟩ := validateSteps_ok_iff.mp hsteps
      obtain ⟨hknown, hirreflexive⟩ := validateDependencies_ok_iff.mp h
      simp only [not_or, not_lt] at hcount
      simp only [Bool.or_eq_true, not_or, Bool.not_eq_true] at hstated
      exact ⟨hstated, hcount, hall, hkeys, hregistered.mp hunregistered, hselected.mp hmissing, hknown,
        hirreflexive⟩
  · intro h
    have hsteps : validateSteps policy [] proposal.steps = .ok () :=
      validateSteps_ok_iff.mpr ⟨h.steps, h.keys, fun _ _ hmem => nomatch hmem⟩
    rw [if_neg (by simp [h.stated.1, h.stated.2]), if_neg (by simp [h.count.1, h.count.2]), hsteps]
    simp only
    rw [if_neg (hregistered.mpr h.registered), if_neg (hselected.mpr h.selected)]
    exact validateDependencies_ok_iff.mpr ⟨h.known, h.irreflexive⟩

theorem Checked.byKey (h : Checked proposal policy) (hstep : step ∈ proposal.steps) :
    proposal.byKey step.stepKey = some step := Keyed.get_of_mem h.keys hstep

theorem Checked.dependsOn (h : Checked proposal policy) (hstep : step ∈ proposal.steps) :
    proposal.dependsOn step.stepKey = step.dependsOn := by
  rw [InvestigationPlanProposal.dependsOn, h.byKey hstep, Option.map_some, Option.getD_some]

/-- A key of the proposal is a step's. -/
theorem exists_step {key : String} (hkey : key ∈ proposal.keys) :
    ∃ step ∈ proposal.steps, step.stepKey = key := List.mem_map.mp hkey

theorem Checked.closed (h : Checked proposal policy) : Graph.Closed proposal.keys proposal.dependsOn := by
  intro key hkey dependency hdependency
  obtain ⟨step, hstep, rfl⟩ := exists_step hkey
  rw [h.dependsOn hstep] at hdependency
  exact h.known step hstep dependency hdependency

theorem Checked.plain (h : Checked proposal policy) : Kahn.Plain proposal.keys proposal.dependsOn := by
  constructor
  · intro key hkey
    obtain ⟨step, hstep, rfl⟩ := exists_step hkey
    rw [h.dependsOn hstep]
    exact (h.steps step hstep).once
  · intro key hkey
    obtain ⟨step, hstep, rfl⟩ := exists_step hkey
    rw [h.dependsOn hstep]
    exact h.irreflexive step hstep

theorem Checked.dependents (h : Checked proposal policy) :
    Kahn.Dependents proposal.keys proposal.dependsOn proposal.dependents := by
  have hparts : ∀ step ∈ proposal.steps, ∀ key, (step.dependsOn.filter (fun d => d == key)).map
      (fun _ => step.stepKey) = if key ∈ step.dependsOn then [step.stepKey] else [] := by
    intro step hstep key
    rw [List.filter_beq, List.map_replicate]
    split
    · rename_i hmem
      rw [List.count_eq_one_of_mem (h.steps step hstep).once hmem]
      rfl
    · rename_i hmem
      rw [List.count_eq_zero_of_not_mem hmem]
      rfl
  constructor
  · intro key other
    simp only [InvestigationPlanProposal.dependents, List.mem_flatMap]
    constructor
    · rintro ⟨step, hstep, hmem⟩
      rw [hparts step hstep] at hmem
      split at hmem
      · rename_i hdep
        cases List.mem_singleton.mp hmem
        exact ⟨List.mem_map_of_mem hstep, by rwa [h.dependsOn hstep]⟩
      · cases hmem
    · rintro ⟨hkey, hdep⟩
      obtain ⟨step, hstep, rfl⟩ := exists_step hkey
      rw [h.dependsOn hstep] at hdep
      refine ⟨step, hstep, ?_⟩
      rw [hparts step hstep, if_pos hdep]
      exact List.mem_singleton_self _
  · intro key
    have hfilter : proposal.dependents key =
        (proposal.steps.filter (fun step => decide (key ∈ step.dependsOn))).map ProposedStep.stepKey := by
      have heach : ∀ steps : List ProposedStep, (∀ step ∈ steps, step ∈ proposal.steps) →
          steps.flatMap (fun step => (step.dependsOn.filter (fun d => d == key)).map
            (fun _ => step.stepKey)) =
          (steps.filter (fun step => decide (key ∈ step.dependsOn))).map ProposedStep.stepKey := by
        intro steps hall
        induction steps with
        | nil => rfl
        | cons step steps ih =>
          rw [List.flatMap_cons, hparts step (hall step List.mem_cons_self),
            ih (fun other hother => hall other (List.mem_cons_of_mem _ hother)), List.filter_cons]
          split <;> simp_all
      exact heach proposal.steps (fun _ hstep => hstep)
    rw [hfilter]
    exact h.keys.sublist (List.filter_sublist.map _)

/-- The loop ends, with an order in which each step is the least that may come next. -/
theorem Checked.ordered (h : Checked proposal policy) : ∃ order, proposal.ordered = some order ∧
    Kahn.Greedy proposal.keys proposal.dependsOn order ∧
      Kahn.Finished proposal.keys proposal.dependsOn order :=
  (Kahn.Sound.start h.keys).loop h.plain h.dependents (by simp [InvestigationPlanProposal.keys])

/-- The dependency relation of a proposal has no cycle. -/
def Acyclic (proposal : InvestigationPlanProposal) : Prop :=
  Graph.Acyclic proposal.keys proposal.dependsOn

/-- The order takes in every step exactly where there is no cycle. -/
theorem Checked.order_perm_iff (h : Checked proposal policy) {order : List String}
    (greedy : Kahn.Greedy proposal.keys proposal.dependsOn order)
    (finished : Kahn.Finished proposal.keys proposal.dependsOn order) :
    (order.length = proposal.steps.length ↔ Acyclic proposal) ∧
      (order.length = proposal.steps.length → order.Perm proposal.keys) := by
  have hsub : order.Subperm proposal.keys := greedy.nodup.subperm (fun a ha => greedy.subset ha)
  have hkeys : proposal.keys.length = proposal.steps.length := List.length_map _
  have hperm : order.length = proposal.steps.length → order.Perm proposal.keys := fun hlength =>
    hsub.perm_of_length_le (by omega)
  refine ⟨?_, hperm⟩
  rw [Acyclic, ← greedy.all_placed_iff finished h.closed]
  constructor
  · exact fun hlength a ha => (hperm hlength).mem_iff.mpr ha
  · intro hall
    have hback : proposal.keys.Subperm order := h.keys.subperm hall
    rw [← hkeys]
    exact le_antisymm hsub.length_le hback.length_le

/-- What `validate_investigation_plan` does where the fields are in order. -/
theorem Checked.validate (h : Checked proposal policy) : ∃ order,
    Kahn.Greedy proposal.keys proposal.dependsOn order ∧
      Kahn.Finished proposal.keys proposal.dependsOn order ∧
      validateInvestigationPlan sortedText proposal policy =
        if order.length ≠ proposal.steps.length then .error cycleText
        else .ok ⟨proposal.objective, proposal.completionCondition, proposal.uncertainties,
          acceptedSteps proposal policy order⟩ := by
  obtain ⟨order, horder, greedy, finished⟩ := h.ordered
  refine ⟨order, greedy, finished, ?_⟩
  rw [validateInvestigationPlan, validateFields_ok_iff.mpr h, horder, Option.getD_some]

theorem checked_of_validate (h : validateInvestigationPlan sortedText proposal policy = .ok plan) :
    Checked proposal policy := by
  unfold validateInvestigationPlan at h
  split at h
  · cases h
  · rename_i hfields
    exact validateFields_ok_iff.mp hfields

/-- The accepted steps of keys that the proposal has. -/
theorem acceptedSteps_eq (h : Checked proposal policy) {order : List String}
    (hsubset : ∀ key ∈ order, key ∈ proposal.keys) :
    (acceptedSteps proposal policy order).map (fun a => a.proposal.stepKey) = order ∧
      (acceptedSteps proposal policy order).map AcceptedStep.ordinal = List.range order.length ∧
      (acceptedSteps proposal policy order).map AcceptedStep.proposal =
        order.filterMap proposal.byKey := by
  have hproposal : ∀ i (step : ProposedStep), (acceptedStep i step policy).proposal = step := by
    intro i step
    unfold acceptedStep
    split <;> rfl
  have hordinal : ∀ i (step : ProposedStep), (acceptedStep i step policy).ordinal = i := by
    intro i step
    unfold acceptedStep
    split <;> rfl
  have hfound : ∀ entry ∈ order.zipIdx, ∃ step, proposal.byKey entry.1 = some step ∧
      step.stepKey = entry.1 := by
    rintro ⟨key, i⟩ hentry
    obtain ⟨step, hstep, rfl⟩ := exists_step (hsubset key (List.fst_mem_of_mem_zipIdx hentry))
    exact ⟨step, h.byKey hstep, rfl⟩
  unfold acceptedSteps
  refine ⟨?_, ?_, ?_⟩
  · rw [List.map_filterMap]
    have hkeys : order.zipIdx.filterMap (fun entry => Option.map (fun a => a.proposal.stepKey)
        ((proposal.byKey entry.1).map (fun step => acceptedStep entry.2 step policy))) =
        order.zipIdx.filterMap (fun entry => some entry.1) := by
      refine List.filterMap_congr (fun entry hentry => ?_)
      obtain ⟨step, hstep, hkey⟩ := hfound entry hentry
      simp [hstep, hproposal, hkey]
    rw [hkeys, List.filterMap_eq_map', List.zipIdx_map_fst]
  · rw [List.map_filterMap]
    have hordinals : order.zipIdx.filterMap (fun entry => Option.map AcceptedStep.ordinal
        ((proposal.byKey entry.1).map (fun step => acceptedStep entry.2 step policy))) =
        order.zipIdx.filterMap (fun entry => some entry.2) := by
      refine List.filterMap_congr (fun entry hentry => ?_)
      obtain ⟨step, hstep, -⟩ := hfound entry hentry
      simp [hstep, hordinal]
    rw [hordinals, List.filterMap_eq_map', List.zipIdx_map_snd, List.range_eq_range']
  · rw [List.map_filterMap]
    have hproposals : order.zipIdx.filterMap (fun entry => Option.map AcceptedStep.proposal
        ((proposal.byKey entry.1).map (fun step => acceptedStep entry.2 step policy))) =
        order.zipIdx.filterMap (fun entry => proposal.byKey entry.1) := by
      refine List.filterMap_congr (fun entry hentry => ?_)
      obtain ⟨step, hstep, -⟩ := hfound entry hentry
      simp [hstep, hproposal]
    rw [hproposals]
    conv_rhs => rw [← List.zipIdx_map_fst 0 order, List.filterMap_map]
    rfl

/-- An accepted step of an agent's is bound to what the agent's limit says, and keeps to
it. -/
def Bound (policy : PlanValidationPolicy) (a : AcceptedStep) : Prop :=
  match a.proposal.kind with
  | .coordinatorCheck => a.agentResource = none ∧ a.agentRevision = none ∧ a.allowedToolNames = []
  | .invokeAgent => ∃ agentKey agent, a.proposal.agentKey = some agentKey ∧
      policy.agentLimits agentKey = some agent ∧ a.proposal.scopeRef ∈ agent.allowedScopeRefs ∧
      a.proposal.budget.within agent.maximum = true ∧ a.agentResource = some agent.agentResource ∧
      a.agentRevision = some agent.agentRevision ∧ a.allowedToolNames = agent.allowedToolNames

theorem bound_acceptedStep (h : WithinAgent policy step) (i : Nat) :
    Bound policy (acceptedStep i step policy) := by
  unfold WithinAgent at h
  cases hkind : step.kind with
  | coordinatorCheck =>
    rw [hkind] at h
    simp [acceptedStep, Bound, h.1, hkind]
  | invokeAgent =>
    rw [hkind] at h
    obtain ⟨agentKey, agent, hkey, hagent, hscope, hbudget⟩ := h
    simp [acceptedStep, Bound, hkey, hagent, hkind, hscope, hbudget]

theorem mem_acceptedSteps {order : List String} {a : AcceptedStep}
    (ha : a ∈ acceptedSteps proposal policy order) :
    ∃ i, ∃ step ∈ proposal.steps, a = acceptedStep i step policy := by
  obtain ⟨entry, -, hentry⟩ := List.mem_filterMap.mp ha
  obtain ⟨step, hstep, rfl⟩ := Option.map_eq_some_iff.mp hentry
  exact ⟨entry.2, step, (Keyed.get_some hstep).1, rfl⟩

/-- What an accepted plan is: the proposed steps, numbered, each after what it depends on
and each the least by its key that could come in its place. -/
structure Ordered (proposal : InvestigationPlanProposal) (policy : PlanValidationPolicy)
    (plan : AcceptedInvestigationPlan) : Prop where
  perm : (plan.steps.map AcceptedStep.proposal).Perm proposal.steps
  ordinals : plan.steps.map AcceptedStep.ordinal = List.range proposal.steps.length
  deps : ∀ front a back, plan.steps = front ++ a :: back → ∀ dependency ∈ a.proposal.dependsOn,
    ∃ before ∈ front, before.proposal.stepKey = dependency
  least : ∀ front a back, plan.steps = front ++ a :: back → ∀ other ∈ proposal.steps,
    other.stepKey ∉ front.map (fun a => a.proposal.stepKey) →
    (∀ dependency ∈ other.dependsOn, dependency ∈ front.map (fun a => a.proposal.stepKey)) →
    a.proposal.stepKey ≤ other.stepKey
  bound : ∀ a ∈ plan.steps, Bound policy a

theorem filterMap_byKey (h : Checked proposal policy) :
    proposal.keys.filterMap proposal.byKey = proposal.steps := by
  have hsome : proposal.steps.filterMap (proposal.byKey ∘ ProposedStep.stepKey) =
      proposal.steps.filterMap some :=
    List.filterMap_congr (fun step hstep => h.byKey hstep)
  rw [InvestigationPlanProposal.keys, List.filterMap_map, hsome, List.filterMap_some]

/-- An accepted plan is ordered, and has no cycle. -/
theorem ordered_of_validate (h : validateInvestigationPlan sortedText proposal policy = .ok plan) :
    Acyclic proposal ∧ Ordered proposal policy plan := by
  have hchecked := checked_of_validate h
  obtain ⟨order, greedy, finished, hvalidate⟩ := @Checked.validate sortedText _ _ hchecked
  rw [hvalidate] at h
  split at h
  · cases h
  · rename_i hlength
    cases h
    obtain ⟨hacyclic, hperm⟩ := hchecked.order_perm_iff greedy finished
    have hlength := not_not.mp hlength
    obtain ⟨hkeys, hordinals, hproposals⟩ := acceptedSteps_eq hchecked (fun a ha => greedy.subset ha)
    refine ⟨hacyclic.mp hlength, ?_, ?_, ?_, ?_, ?_⟩
    · rw [hproposals, ← filterMap_byKey hchecked]
      exact (hperm hlength).filterMap _
    · rw [hordinals, hlength]
    · intro front a back hsteps dependency hdependency
      change acceptedSteps proposal policy order = _ at hsteps
      obtain ⟨i, step, hstep, ha⟩ := mem_acceptedSteps (hsteps ▸ List.mem_append_right _ List.mem_cons_self)
      rw [hsteps, List.map_append, List.map_cons] at hkeys
      have hready := (greedy _ _ _ hkeys.symm).1.2.2 dependency
      have hproposal : a.proposal = step := by
        rw [ha]
        unfold acceptedStep
        split <;> rfl
      rw [hproposal, hchecked.dependsOn hstep] at hready
      rw [hproposal] at hdependency
      obtain ⟨before, hbefore, hsame⟩ := List.mem_map.mp (hready hdependency)
      exact ⟨before, hbefore, hsame⟩
    · intro front a back hsteps other hother hunplaced hdeps
      change acceptedSteps proposal policy order = _ at hsteps
      rw [hsteps, List.map_append, List.map_cons] at hkeys
      refine (greedy _ _ _ hkeys.symm).2 other.stepKey ⟨List.mem_map_of_mem hother, hunplaced, ?_⟩
      rw [hchecked.dependsOn hother]
      exact hdeps
    · intro a ha
      obtain ⟨i, step, hstep, rfl⟩ := mem_acceptedSteps ha
      exact bound_acceptedStep (hchecked.steps step hstep).agent i

/-- The same step, with what it depends on listed in any order. -/
structure SameStep (a b : ProposedStep) : Prop where
  same : { a with dependsOn := b.dependsOn } = b
  perm : a.dependsOn.Perm b.dependsOn

/-- The same proposal, with its steps and what each depends on listed in any order. -/
structure Rearranged (proposal proposal' : InvestigationPlanProposal) : Prop where
  objective : proposal'.objective = proposal.objective
  completion : proposal'.completionCondition = proposal.completionCondition
  uncertainties : proposal'.uncertainties = proposal.uncertainties
  steps : ∃ steps, List.Forall₂ SameStep proposal.steps steps ∧ steps.Perm proposal'.steps

/-- The same accepted step but for the order in which it lists what it depends on. -/
structure SameAccepted (a b : AcceptedStep) : Prop where
  ordinal : b.ordinal = a.ordinal
  step : SameStep a.proposal b.proposal
  resource : b.agentResource = a.agentResource
  revision : b.agentRevision = a.agentRevision
  tools : b.allowedToolNames = a.allowedToolNames

theorem SameStep.key {a b : ProposedStep} (h : SameStep a b) : b.stepKey = a.stepKey := by rw [← h.same]

theorem SameStep.checked {a b : ProposedStep} (h : SameStep a b) (ha : StepChecked policy a) :
    StepChecked policy b := by
  rw [← h.same]
  exact ⟨ha.key, ha.scope, ha.purpose, h.perm.nodup_iff.mp ha.once, ha.agent⟩

theorem SameStep.accepted {a b : ProposedStep} (h : SameStep a b) (i : Nat) :
    SameAccepted (acceptedStep i a policy) (acceptedStep i b policy) := by
  have hagent : b.agentKey = a.agentKey := by rw [← h.same]
  unfold acceptedStep
  rw [hagent]
  split
  · exact ⟨rfl, h, rfl, rfl, rfl⟩
  · exact ⟨rfl, h, rfl, rfl, rfl⟩

theorem forall₂_mem {α : Type u} {β : Type v} {R : α → β → Prop} {l : List α} {l' : List β}
    (h : List.Forall₂ R l l') : (∀ a ∈ l, ∃ b ∈ l', R a b) ∧ ∀ b ∈ l', ∃ a ∈ l, R a b := by
  induction h with
  | nil => exact ⟨fun _ h => (nomatch h), fun _ h => nomatch h⟩
  | @cons a b l l' hab _ ih =>
    refine ⟨fun c hc => ?_, fun c hc => ?_⟩
    · rcases List.mem_cons.mp hc with rfl | hc
      · exact ⟨b, List.mem_cons_self, hab⟩
      · obtain ⟨d, hd, hcd⟩ := ih.1 c hc
        exact ⟨d, List.mem_cons_of_mem _ hd, hcd⟩
    · rcases List.mem_cons.mp hc with rfl | hc
      · exact ⟨a, List.mem_cons_self, hab⟩
      · obtain ⟨d, hd, hdc⟩ := ih.2 c hc
        exact ⟨d, List.mem_cons_of_mem _ hd, hdc⟩

theorem Rearranged.right (h : Rearranged proposal proposal') {b : ProposedStep}
    (hb : b ∈ proposal'.steps) : ∃ a ∈ proposal.steps, SameStep a b := by
  obtain ⟨steps, hsame, hperm⟩ := h.steps
  exact (forall₂_mem hsame).2 b (hperm.mem_iff.mpr hb)

theorem Rearranged.left (h : Rearranged proposal proposal') {a : ProposedStep}
    (ha : a ∈ proposal.steps) : ∃ b ∈ proposal'.steps, SameStep a b := by
  obtain ⟨steps, hsame, hperm⟩ := h.steps
  obtain ⟨b, hb, hab⟩ := (forall₂_mem hsame).1 a ha
  exact ⟨b, hperm.mem_iff.mp hb, hab⟩

theorem Rearranged.keys_perm (h : Rearranged proposal proposal') : proposal.keys.Perm proposal'.keys := by
  obtain ⟨steps, hsame, hperm⟩ := h.steps
  have hkeys : ∀ {l l' : List ProposedStep}, List.Forall₂ SameStep l l' →
      l.map ProposedStep.stepKey = l'.map ProposedStep.stepKey := by
    intro l l' hall
    induction hall with
    | nil => rfl
    | cons hab _ ih => rw [List.map_cons, List.map_cons, ih, hab.key]
  rw [InvestigationPlanProposal.keys, hkeys hsame]
  exact hperm.map _

theorem Rearranged.length (h : Rearranged proposal proposal') :
    proposal'.steps.length = proposal.steps.length := by
  have hlength := h.keys_perm.length_eq
  rw [InvestigationPlanProposal.keys, InvestigationPlanProposal.keys, List.length_map,
    List.length_map] at hlength
  exact hlength.symm

theorem Rearranged.checked (h : Rearranged proposal proposal') (hchecked : Checked proposal policy) :
    Checked proposal' policy where
  stated := by
    rw [h.objective, h.completion]
    exact hchecked.stated
  count := by
    rw [← List.length_pos_iff, h.length, List.length_pos_iff]
    exact hchecked.count
  steps b hb := by
    obtain ⟨a, ha, hab⟩ := h.right hb
    exact hab.checked (hchecked.steps a ha)
  keys := h.keys_perm.nodup_iff.mp hchecked.keys
  registered := hchecked.registered
  selected key hkey := by
    have hselected := hchecked.selected key hkey
    simp only [InvestigationPlanProposal.selectedAgents, List.mem_toFinset, List.mem_filterMap] at hselected ⊢
    obtain ⟨a, ha, hagent⟩ := hselected
    obtain ⟨b, hb, hab⟩ := h.left ha
    refine ⟨b, hb, ?_⟩
    rw [← hab.same]
    exact hagent
  known b hb dependency hdependency := by
    obtain ⟨a, ha, hab⟩ := h.right hb
    exact h.keys_perm.mem_iff.mp (hchecked.known a ha dependency (hab.perm.mem_iff.mpr hdependency))
  irreflexive b hb := by
    obtain ⟨a, ha, hab⟩ := h.right hb
    rw [hab.key, ← hab.perm.mem_iff]
    exact hchecked.irreflexive a ha

theorem forall₂_filterMap {α : Type u} {β : Type v} {γ : Type w} {R : β → γ → Prop} {f : α → Option β}
    {g : α → Option γ} {l : List α} (h : ∀ a ∈ l, ∃ b c, f a = some b ∧ g a = some c ∧ R b c) :
    List.Forall₂ R (l.filterMap f) (l.filterMap g) := by
  induction l with
  | nil => exact .nil
  | cons a l ih =>
    obtain ⟨b, c, hb, hc, hbc⟩ := h a List.mem_cons_self
    rw [List.filterMap_cons_some hb, List.filterMap_cons_some hc]
    exact .cons hbc (ih (fun other hother => h other (List.mem_cons_of_mem _ hother)))

/-- A rearranged proposal is accepted with the same steps in the same order. -/
theorem validate_rearranged (h : Rearranged proposal proposal')
    (hplan : validateInvestigationPlan sortedText proposal policy = .ok plan) :
    ∃ plan', validateInvestigationPlan sortedText proposal' policy = .ok plan' ∧
      List.Forall₂ SameAccepted plan.steps plan'.steps := by
  have hchecked := checked_of_validate hplan
  have hchecked' := h.checked hchecked
  obtain ⟨order, greedy, finished, hvalidate⟩ := @Checked.validate sortedText _ _ hchecked
  obtain ⟨order', greedy', finished', hvalidate'⟩ := @Checked.validate sortedText _ _ hchecked'
  have hsame : order = order' := by
    refine greedy.unique finished greedy' finished' (fun a => h.keys_perm.mem_iff) (fun key hkey dependency => ?_)
    obtain ⟨a, ha, rfl⟩ := exists_step hkey
    obtain ⟨b, hb, hab⟩ := h.left ha
    have hdeps' := hchecked'.dependsOn hb
    rw [hab.key] at hdeps'
    rw [hchecked.dependsOn ha, hdeps', hab.perm.mem_iff]
  subst hsame
  rw [hvalidate] at hplan
  split at hplan
  · cases hplan
  · rename_i hlength
    cases hplan
    refine ⟨_, by rw [hvalidate', h.length, if_neg hlength], ?_⟩
    refine forall₂_filterMap (fun entry hentry => ?_)
    obtain ⟨a, ha, hkey⟩ := exists_step (greedy.subset (List.fst_mem_of_mem_zipIdx hentry))
    obtain ⟨b, hb, hab⟩ := h.left ha
    have hbyKey' := hchecked'.byKey hb
    rw [hab.key, hkey] at hbyKey'
    refine ⟨acceptedStep entry.2 a policy, acceptedStep entry.2 b policy, ?_, ?_, hab.accepted entry.2⟩
    · rw [← hkey, hchecked.byKey ha, Option.map_some]
    · rw [hbyKey', Option.map_some]

/-- A check of the coordinator's, depending on others. -/
def checkStep (key : String) (dependsOn : List String) : ProposedStep where
  stepKey := key
  kind := .coordinatorCheck
  agentKey := none
  scopeRef := "scope-1"
  purpose := "look"
  required := true
  dependsOn := dependsOn
  budget := ⟨1, 0, 1, 0, 0, by decide, by decide, by decide, by decide, by decide⟩

example : InvestigationPlanProposal.ordered ⟨"objective", "done", [],
    [checkStep "d" ["b", "c"], checkStep "c" ["a"], checkStep "b" ["a"], checkStep "e" [],
      checkStep "a" []]⟩ = some ["a", "b", "c", "d", "e"] := by decide

end Solvan.Planning
