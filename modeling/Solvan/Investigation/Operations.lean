import Solvan.Investigation.Coherence

/-! What each transaction does to the steps and their runs. -/
namespace Solvan.Investigation
open Workflow (IncidentRow)

variable {turns : Turn → Prop} {s s' s'' : InvestigationStore} {step step' : StepRow} {r run : RunRow}
  {p plan : PlanRow} {incidentId errorClass resultRef : String} {dispatch : RuntimeDispatch}

/-- A plan that is not completed has a step that is not done. -/
def Unfinished (s : InvestigationStore) : Prop :=
  ∀ p ∈ s.plans, p.status ≠ .completed → ∃ step ∈ s.steps, step.planId = p.id ∧
    step.status.done = false

/-- A transaction, or some of its statements. -/
structure Passes (turns : Turn → Prop) (s s' : InvestigationStore) : Prop where
  moves : Moves turns s s'
  coherent : Coherent s'
  unfinished : Unfinished s → Unfinished s'

theorem Passes.refl (hs : Coherent s) : Passes turns s s := ⟨.refl, hs, id⟩

theorem Passes.trans (a : Passes turns s s') (b : Passes turns s' s'') : Passes turns s s'' :=
  ⟨a.moves.trans b.moves, b.coherent, fun h => b.unfinished (a.unfinished h)⟩

theorem Transforms.unfinished {h : PlanRow → PlanRow} {g : StepRow → StepRow}
    (t : Transforms turns s s' h g) (none_ : ¬turns .succeeded)
    (kept : ∀ p, (h p).status ≠ .completed → p.status ≠ .completed) (hu : Unfinished s) :
    Unfinished s' := by
  intro p' hp' hne
  rw [t.plans] at hp'
  obtain ⟨p, hp, rfl⟩ := List.mem_map.mp hp'
  obtain ⟨step, hm, hplan, hdone⟩ := hu p hp (kept p hne)
  refine ⟨g step, t.steps ▸ List.mem_map_of_mem hm, ?_, ?_⟩
  · rw [(t.frozenSteps step hm).2.2, hplan, (t.frozen p).1]
  · by_contra hd
    rw [(t.evolves step hm).undone none_ (by simpa using hd)] at hdone
    cases hdone

theorem Advance.passes {g : StepRow → StepRow} (a : Advance turns s s' g) (hs : Coherent s)
    (none_ : ¬turns .succeeded) : Passes turns s s' :=
  ⟨a.transforms.moves, a.coherent hs, a.transforms.unfinished none_ (fun _ h => h)⟩

/-- The run a step stands at is one of its own. -/
theorem Keyed.of_current {id : String} (hs : Keyed s) (hm : step ∈ s.steps)
    (h : step.currentAgentRunId = some id) :
    ∃ r ∈ s.runs, r.id = id ∧ r.investigationStepId = some step.id ∧ r ∈ s.runsOf step.id := by
  obtain ⟨r, hlast, hcurrent⟩ := (hs.shape step hm).atLast_of_current h
  have hin := List.mem_of_getLast? hlast
  rw [h, Option.some.injEq] at hcurrent
  exact ⟨r, (mem_runsOf.mp hin).1, hcurrent.symm, (mem_runsOf.mp hin).2, hin⟩

theorem Keyed.step_of_current (hs : Keyed s) (hm : step ∈ s.steps) (hr : r ∈ s.runs)
    (h : step.currentAgentRunId = some r.id) : r.investigationStepId = some step.id := by
  obtain ⟨r', hr', hid, hstep, -⟩ := hs.of_current hm h
  exact hs.runKeys.eq_of_key hr' hr hid ▸ hstep

theorem Keyed.currentRun_eq (hs : Keyed s) (hr : r ∈ s.runs)
    (h : step.currentAgentRunId = some r.id) : s.currentRun step = some r := by
  simp only [InvestigationStore.currentRun, h, Option.bind_some, hs.runKeys.find_eq hr]

theorem of_currentRun (h : s.currentRun step = some r) :
    r ∈ s.runs ∧ step.currentAgentRunId = some r.id := by
  simp only [InvestigationStore.currentRun, Option.bind_eq_some_iff] at h
  obtain ⟨id, hid, hf⟩ := h
  obtain ⟨hr, rfl⟩ := Table.mem_of_find hf
  exact ⟨hr, hid⟩

/-- A live run of a step is the one the step is underway at, for an accepted plan. -/
theorem Coherent.of_live (hs : Coherent s) (hr : r ∈ s.runs) (live : r.status.live = true)
    {id : String} (hid : r.investigationStepId = some id) :
    ∃ step ∈ s.steps, step.id = id ∧ step.status.underway = true ∧
      step.currentAgentRunId = some r.id ∧
      ∃ p ∈ s.plans, p.id = step.planId ∧ p.status = .accepted := by
  have howned := hs.owned r hr
  simp only [Owned, hid] at howned
  obtain ⟨step, hm, p, hp, hsid, hplan, -⟩ := howned
  obtain ⟨hunderway, hcurrent, -⟩ :=
    (hs.shape step hm).of_live (mem_runsOf.mpr ⟨hr, hsid ▸ hid⟩) live
  have hunsettled : step.status.unsettled = true := by
    cases hst : step.status <;> simp_all [StepStatus.underway, StepStatus.unsettled]
  exact ⟨step, hm, hsid, hunderway, hcurrent, p, hp, hplan, (hs.standing step hm p hp hplan).1 hunsettled⟩

theorem acceptedPlan_of_mem (hp : p ∈ s.plans) (accepted : p.status = .accepted) :
    s.acceptedPlan p.id = true :=
  List.any_eq_true.mpr ⟨p, hp, by simp [accepted]⟩

/-- A step is put up for its fallback, or fails. -/
theorem Ends.of_ended {deferral : Option Int} {retry : Bool} {now : Int}
    (first : retry = true → r.attempt = 1)
    (put : retry = true → PutsOff turns now (if deferral.isSome then deferral else step.retryNotBefore)) :
    Ends turns now r now step (step.ended now retry deferral resultRef) ∧
      (step.ended now retry deferral resultRef).status ≠ .stale := by
  cases retry with
  | true =>
    refine ⟨.retried (first rfl) rfl rfl rfl ?_ rfl rfl rfl, by simp [StepRow.ended]⟩
    simpa [StepRow.ended] using put rfl
  | false => exact ⟨.settled (.inr (.inl rfl)) rfl rfl rfl rfl, by simp [StepRow.ended]⟩

theorem retries_first (h : retries r step = true) : r.attempt = 1 := by
  simp only [retries, Bool.and_eq_true, beq_iff_eq] at h
  exact h.1

theorem unswept_of (h : r.status = .timedOut → r.errorClass ≠ some dispatchDeadlineExceeded) :
    sweptRun r = false := by
  by_contra hswept
  simp only [sweptRun, Bool.not_eq_false, Bool.and_eq_true, beq_iff_eq] at hswept
  exact h hswept.1 hswept.2

/-- `endAttempt`, whoever calls it: the step of the run is put up or fails, and
a retry is put off. -/
theorem endAttempt_advance {status : RunStatus} {hit : StepRow → Bool} (hs : Coherent s)
    (hr : r ∈ s.runs) (live : r.status.live = true) (ended : status.live = false) (kept : void status = false)
    (unswept : status = .timedOut → errorClass ≠ dispatchDeadlineExceeded)
    (hits : ∀ step ∈ s.steps, r.investigationStepId = some step.id → hit step = true) :
    ∃ g, Advance turns s (endAttempt s r status errorClass hit resultRef) g := by
  refine ⟨fun step => if step.currentAgentRunId == some r.id && hit step then
      step.ended s.now (retries r step) s.deferral resultRef else step,
    .ending s.now hs.toKeyed rfl rfl ⟨⟨rfl, rfl, rfl⟩, rfl⟩ hr live (beq_self_eq_true r.id) ?_
      ⟨rfl, rfl, rfl, rfl, rfl⟩ ⟨ended, rfl⟩ kept (unswept_of (fun h => by simpa using unswept h)) ?_ ?_⟩
  · intro r₀ hr₀ hq
    exact hs.runKeys.eq_of_key hr₀ hr (beq_iff_eq.mp hq)
  · intro step hm hid
    obtain ⟨step', hm', hsid, hunderway, hcurrent, -⟩ := hs.of_live hr live hid
    obtain rfl := hs.stepKeys.eq_of_key hm' hm hsid
    rw [if_pos (by simp [hcurrent, hits step' hm hid])]
    refine Ends.of_ended retries_first (fun _ => .inr ⟨_, rfl, ?_⟩)
    exact Int.le_refl _
  · intro step hm hid
    rw [if_neg]
    intro h
    simp only [Bool.and_eq_true, beq_iff_eq] at h
    exact hid (hs.step_of_current hm hr h.1)

theorem recordRuntimeDispatch_advance {receipt : RuntimeInvocationReceipt}
    (h : recordRuntimeDispatch s dispatch receipt = some s') : Advance turns s s' id := by
  unfold recordRuntimeDispatch at h
  rw [Option.ite_none_right_eq_some, Option.some.injEq] at h
  obtain ⟨-, rfl⟩ := h
  refine .touch rfl ⟨⟨rfl, rfl, rfl⟩, rfl, rfl⟩ (fun r _ _ => ⟨rfl, rfl, rfl, rfl, rfl⟩) (fun r _ hq => ?_)
  simp only [recordHit, Bool.and_eq_true, beq_iff_eq] at hq
  exact ⟨by rw [hq.1.1.2]; rfl, rfl, rfl⟩

theorem attachDispatchContext_advance {context : Json} {newHash : String}
    (h : attachDispatchContext s dispatch context newHash = some s') : Advance turns s s' id := by
  unfold attachDispatchContext at h
  rw [Option.ite_none_right_eq_some, Option.some.injEq] at h
  obtain ⟨-, rfl⟩ := h
  refine .touch rfl ⟨⟨rfl, rfl, rfl⟩, rfl, rfl⟩ (fun r _ _ => ⟨rfl, rfl, rfl, rfl, rfl⟩) (fun r _ hq => ?_)
  simp only [Bool.and_eq_true, beq_iff_eq] at hq
  have hlive : r.status.live = true := by
    rw [hq.1.2]
    rfl
  exact ⟨hlive, hlive, rfl⟩

theorem of_describes {handle : ExpiredCreatedRuntimeRun} (h : handle.describes r = true) :
    r.id = handle.runId ∧ r.status.live = true := by
  simp only [ExpiredCreatedRuntimeRun.describes, Bool.and_eq_true, beq_iff_eq] at h
  exact ⟨h.1.1.1.1, by rw [h.1.1.2]; rfl⟩

theorem adoptCreatedDispatch_advance {handle : ExpiredCreatedRuntimeRun} {ref : String}
    (h : adoptCreatedDispatch s handle ref = some s') : Advance turns s s' id := by
  unfold adoptCreatedDispatch at h
  rw [Option.ite_none_left_eq_some, Option.some.injEq] at h
  obtain ⟨-, rfl⟩ := h
  refine .touch rfl ⟨⟨rfl, rfl, rfl⟩, rfl, rfl⟩ (fun r _ _ => ⟨rfl, rfl, rfl, rfl, rfl⟩) (fun r _ hq => ?_)
  simp only [Bool.and_eq_true] at hq
  exact ⟨(of_describes hq.1.1).2, rfl, rfl⟩

theorem recordRuntimeDispatchFailure_advance (hs : Coherent s)
    (given : ∃ r ∈ s.runs, r.id = dispatch.runId ∧ r.investigationStepId = some dispatch.stepId)
    (h : recordRuntimeDispatchFailure s dispatch errorClass = some s') :
    ∃ g, Advance turns s s' g := by
  unfold recordRuntimeDispatchFailure at h
  simp only [Option.bind_eq_bind, Option.bind_eq_some_iff] at h
  obtain ⟨r, hf, h⟩ := h
  cases h
  have hr := List.mem_of_find?_eq_some hf
  have hq := List.find?_some hf
  simp only [Bool.and_eq_true, beq_iff_eq] at hq
  have hlive : r.status.live = true := by
    rw [hq.2]
    rfl
  refine endAttempt_advance hs hr hlive rfl rfl (fun h => (nomatch h)) (fun step hm hid => ?_)
  obtain ⟨r', hr', hrid, hstep⟩ := given
  obtain rfl := hs.runKeys.eq_of_key hr' hr (hrid.trans hq.1.1.symm)
  rw [hid, Option.some.injEq] at hstep
  obtain ⟨step', hm', hsid, -, -, p, hp, hplan, haccepted⟩ := hs.of_live hr hlive hid
  obtain rfl := hs.stepKeys.eq_of_key hm' hm hsid
  simp [hstep, ← hplan, acceptedPlan_of_mem hp haccepted]

theorem expireCreated_advance {handle : ExpiredCreatedRuntimeRun} {expiry : CreatedExpiry}
    (hs : Coherent s) : ∃ g, Advance turns s (expireCreated s handle expiry) g := by
  unfold expireCreated
  split
  · exact ⟨id, .refl⟩
  · rename_i r hf
    have hr := List.mem_of_find?_eq_some hf
    have hlive := (of_describes (List.find?_some hf)).2
    have hunswept : expiry.errorClass ≠ dispatchDeadlineExceeded := by
      cases expiry <;> decide
    refine endAttempt_advance hs hr hlive rfl rfl (fun _ => hunswept) (fun step hm hid => ?_)
    obtain ⟨step', hm', hsid, hunderway, -⟩ := hs.of_live hr hlive hid
    obtain rfl := hs.stepKeys.eq_of_key hm' hm hsid
    simp [hunderway]

theorem fail_advance {handle : PendingRuntimeRun} (hs : Coherent s)
    (given : ∃ r ∈ s.runs, r.id = handle.runId ∧
      r.investigationStepId = handle.investigationStepId)
    (h : fail s handle errorClass = some s') : ∃ g, Advance turns s s' g := by
  unfold fail at h
  simp only [Option.bind_eq_bind, Option.bind_eq_some_iff] at h
  obtain ⟨r, hf, h⟩ := h
  cases h
  have hr := List.mem_of_find?_eq_some hf
  have hq := List.find?_some hf
  simp only [Bool.and_eq_true, Bool.or_eq_true, beq_iff_eq] at hq
  have hlive : r.status.live = true := by
    rcases hq.2 with hst | hst <;> rw [hst] <;> rfl
  have hended : (if errorClass = "RUNTIME_DEADLINE_EXCEEDED" then RunStatus.timedOut
      else .failed).live = false := by
    split <;> rfl
  have hkept : void (if errorClass = "RUNTIME_DEADLINE_EXCEEDED" then RunStatus.timedOut
      else .failed) = false := by
    split <;> rfl
  have hunswept : (if errorClass = "RUNTIME_DEADLINE_EXCEEDED" then RunStatus.timedOut
      else .failed) = .timedOut → clipped errorClass ≠ dispatchDeadlineExceeded := by
    split
    · rename_i hclass
      rw [hclass]
      exact fun _ => by decide
    · exact fun h => (nomatch h)
  refine endAttempt_advance hs hr hlive hended hkept hunswept (fun step hm hid => ?_)
  obtain ⟨r', hr', hrid, hstep⟩ := given
  obtain rfl := hs.runKeys.eq_of_key hr' hr (hrid.trans hq.1.1.symm)
  obtain ⟨step', hm', hsid, hunderway, -⟩ := hs.of_live hr hlive hid
  obtain rfl := hs.stepKeys.eq_of_key hm' hm hsid
  simp [hunderway, ← hstep, hid]

variable {completion : AgentCompletion} {loaded : LoadedRun} {authority : CoordinatorAuthority}

/-- What `_load_run` joins. -/
structure Loaded (s : InvestigationStore) (loaded : LoadedRun) : Prop where
  run : loaded.run ∈ s.runs
  step : loaded.step ∈ s.steps
  own : loaded.run.investigationStepId = some loaded.step.id
  plan : loaded.plan ∈ s.plans
  planId : loaded.plan.id = loaded.step.planId

theorem loadRun_loaded (h : loadRun s completion = some loaded) : Loaded s loaded := by
  unfold loadRun at h
  simp only [Option.bind_eq_bind, Option.bind_eq_some_iff] at h
  obtain ⟨run, hrun, step, hstep, plan, hplan, h⟩ := h
  cases h
  have hown := List.find?_some hstep
  have hplanId := List.find?_some hplan
  exact ⟨List.mem_of_find?_eq_some hrun, List.mem_of_find?_eq_some hstep, beq_iff_eq.mp hown,
    List.mem_of_find?_eq_some hplan, beq_iff_eq.mp hplanId⟩

/-- A live run is the current one of its step, for an accepted plan. -/
theorem Loaded.of_live (l : Loaded s loaded) (hs : Coherent s)
    (live : loaded.run.status.live = true) :
    loaded.plan.status = .accepted ∧ loaded.step.currentAgentRunId = some loaded.run.id ∧
      loaded.step.status.underway = true := by
  obtain ⟨step, hm, hsid, hunderway, hcurrent, p, hp, hplan, haccepted⟩ := hs.of_live l.run live l.own
  obtain rfl := hs.stepKeys.eq_of_key hm l.step hsid
  obtain rfl := hs.planKeys.eq_of_key hp l.plan (hplan.trans l.planId.symm)
  exact ⟨haccepted, hcurrent, hunderway⟩

/-- A run without a verdict is live, unless it was called off with its plan. -/
theorem Loaded.live (l : Loaded s loaded) (hs : Coherent s)
    (verdict : ¬(loaded.run.status = .succeeded ∨ loaded.run.status = .failed ∨
      loaded.run.status = .timedOut)) (accepted : loaded.plan.status = .accepted) :
    loaded.run.status.live = true := by
  by_contra hdead
  have hvoid : void loaded.run.status = true := by
    cases hst : loaded.run.status <;> simp_all [RunStatus.live, void]
  have hstale := (hs.shape _ l.step).void _ (mem_runsOf.mpr ⟨l.run, l.own⟩) hvoid
  have hsuperseded := (hs.standing _ l.step _ l.plan l.planId).2 hstale
  rw [accepted] at hsuperseded
  cases hsuperseded

theorem Loaded.markStale_eq (l : Loaded s loaded) (hs : Coherent s)
    (other : loaded.plan.status ≠ .accepted ∨ loaded.step.currentAgentRunId ≠ some loaded.run.id) :
    markStale s loaded.run = s := by
  have hnone : Table.update (fun r => r.id == loaded.run.id && r.status.live)
      (fun r =>
        { r with
          status := .stale
          completedAt := some s.now
          errorClass := some "PLAN_OR_ATTEMPT_SUPERSEDED" }) s.runs = s.runs := by
    refine Table.update_of_no_hit (fun r hr => ?_)
    by_contra hq
    simp only [Bool.not_eq_false, Bool.and_eq_true, beq_iff_eq] at hq
    obtain rfl := hs.runKeys.eq_of_key hr l.run hq.1
    obtain ⟨haccepted, hcurrent, -⟩ := l.of_live hs hq.2
    rcases other with h | h
    · exact h haccepted
    · exact h hcurrent
  simp only [markStale, hnone]

theorem Loaded.reject_advance {reason : String} {status : RunStatus} (l : Loaded s loaded)
    (hs : Coherent s) (live : loaded.run.status.live = true) (ended : status.live = false)
    (kept : void status = false) (unswept : status = .timedOut → reason ≠ dispatchDeadlineExceeded)
    (turn : retries loaded.run loaded.step = true → turns .unputOff) :
    ∃ g, Advance turns s (reject s loaded reason status) g := by
  obtain ⟨-, hcurrent, -⟩ := l.of_live hs live
  refine ⟨fun step => if step.id == loaded.step.id && step.currentAgentRunId == some loaded.run.id then
      step.ended s.now (retries loaded.run loaded.step) none ("runtime-error:" ++ reason) else step,
    .ending s.now hs.toKeyed rfl rfl ⟨⟨rfl, rfl, rfl⟩, rfl⟩ l.run live (beq_self_eq_true loaded.run.id) ?_
      ⟨rfl, rfl, rfl, rfl, rfl⟩ ⟨ended, rfl⟩ kept (unswept_of (fun h => by simpa using unswept h)) ?_
      ?_⟩
  · intro r₀ hr₀ hq
    exact hs.runKeys.eq_of_key hr₀ l.run (beq_iff_eq.mp hq)
  · intro step hm hid
    rw [l.own, Option.some.injEq] at hid
    obtain rfl := hs.stepKeys.eq_of_key hm l.step hid.symm
    rw [if_pos (by simp [hcurrent])]
    exact Ends.of_ended retries_first (fun hretry => .inl (turn hretry))
  · intro step hm hid
    rw [if_neg]
    intro h
    simp only [Bool.and_eq_true, beq_iff_eq] at h
    exact hid (hs.step_of_current hm l.run h.2)

theorem Loaded.takeResult_advance {status : StepStatus} (l : Loaded s loaded)
    (completion : AgentCompletion) (hs : Coherent s) (live : loaded.run.status.live = true)
    (settled : status = .succeeded ∧ turns .succeeded ∨ status = .failed) :
    ∃ g, Advance turns s (takeResult s loaded completion status) g ∧
      (∀ step ∈ s.steps, step.id ≠ loaded.step.id → g step = step) ∧
      (g loaded.step).status = status := by
  obtain ⟨-, hcurrent, hunderway⟩ := l.of_live hs live
  have hne : status ≠ .stale := by
    rcases settled with ⟨h, -⟩ | h <;> rw [h] <;> exact nofun
  refine ⟨fun step => if step.id == loaded.step.id && step.currentAgentRunId == some loaded.run.id &&
      step.status.underway then
      { step with
        status
        resultRef := some completion.outputRef
        evidenceDeltaCount := (allEvidenceRefs completion).length
        completedAt := some completion.completedAt } else step,
    .ending completion.completedAt hs.toKeyed rfl rfl ⟨⟨rfl, rfl, rfl⟩, rfl⟩ l.run live (by simp [live]) ?_
      ⟨rfl, rfl, rfl, rfl, rfl⟩ ⟨rfl, rfl⟩ rfl rfl ?_ ?_, ?_, ?_⟩
  · intro r₀ hr₀ hq
    simp only [Bool.and_eq_true, beq_iff_eq] at hq
    exact hs.runKeys.eq_of_key hr₀ l.run hq.1
  · intro step hm hid
    rw [l.own, Option.some.injEq] at hid
    obtain rfl := hs.stepKeys.eq_of_key hm l.step hid.symm
    rw [if_pos (by simp [hcurrent, hunderway])]
    exact ⟨.settled (settled.imp id .inl) rfl rfl rfl rfl, hne⟩
  · intro step hm hid
    rw [if_neg]
    intro h
    simp only [Bool.and_eq_true, beq_iff_eq] at h
    exact hid (hs.step_of_current hm l.run h.1.2)
  · intro step hm hid
    refine if_neg (fun h => ?_)
    simp only [Bool.and_eq_true, beq_iff_eq] at h
    exact hid h.1.1
  · simp [hcurrent, hunderway]

/-- Planned steps that nothing stands in the way of are made ready. -/
theorem promote_advance (turns : Turn → Prop) (s : InvestigationStore) (plans : String → Bool) :
    ∃ g, Advance turns s (promote s plans) g ∧
      ∀ step ∈ s.steps, (g step).status.done = step.status.done := by
  refine ⟨fun step => if plans step.planId && step.status == .planned && s.unblocked step then
    { step with status := .ready } else step, ⟨⟨⟨rfl, rfl, rfl⟩, by rw [promote, List.map_id],
      fun _ => ⟨rfl, rfl, rfl⟩, rfl, ?_, .refl⟩, ?_, ?_⟩, ?_⟩
  · intro step hm
    split
    · rename_i h
      simp only [Bool.and_eq_true, beq_iff_eq] at h
      exact .promote h.1.2
    · exact .same
  · intro step hm hp hne
    split at hne
    · rename_i h
      simp only [Bool.and_eq_true] at h
      exact h.2
    · exact absurd hp hne
  · intro step hm hst
    split at hst
    · cases hst
    · exact hst
  · intro step hm
    beta_reduce
    split
    · rename_i h
      simp only [Bool.and_eq_true, beq_iff_eq] at h
      rw [h.1.2]
      rfl
    · rfl

end Solvan.Investigation
