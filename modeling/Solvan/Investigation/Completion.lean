import Solvan.Investigation.Operations

/-! `commit_agent_completion`: a result is taken, rejected or too late. -/
namespace Solvan.Investigation

variable {turns : Turn → Prop} {s s' : InvestigationStore} {step : StepRow} {p : PlanRow}
  {planId : String} {completion : AgentCompletion} {loaded : LoadedRun}
  {authority : CoordinatorAuthority} {evidence : List String}
  {disposition : AgentCompletionDisposition}

/-- The accepted plan with an identifier, when all its steps are done. -/
def completeHit (s : InvestigationStore) (planId : String) (p : PlanRow) : Bool :=
  p.id == planId && p.status == .accepted &&
    s.steps.all (fun step => step.planId != p.id || step.status.done)

theorem of_completeHit (h : completeHit s planId p = true) :
    p.id = planId ∧ p.status = .accepted ∧
      ∀ step ∈ s.steps, step.planId = p.id → step.status.done = true := by
  simp only [completeHit, Bool.and_eq_true, beq_iff_eq, List.all_eq_true, Bool.or_eq_true,
    bne_iff_ne] at h
  exact ⟨h.1.1, h.1.2, fun step hm hid => (h.2 step hm).resolve_left (fun hne => hne hid)⟩

/-- A plan as it is left. -/
def completedPlan (s : InvestigationStore) (planId : String) (p : PlanRow) : PlanRow :=
  if completeHit s planId p then { p with status := .completed } else p

theorem completePlanIfDone_plans :
    (completePlanIfDone s planId).plans = s.plans.map (completedPlan s planId) := rfl

theorem completePlanIfDone_transforms (s : InvestigationStore) (planId : String) :
    Transforms turns s (completePlanIfDone s planId) (completedPlan s planId) id := by
  refine ⟨⟨rfl, rfl, rfl⟩, rfl, fun p => ?_, by rw [List.map_id]; rfl, fun _ _ => .same, .refl⟩
  unfold completedPlan
  split <;> exact ⟨rfl, rfl, rfl⟩

theorem completePlanIfDone_coherent (hs : Coherent s) : Coherent (completePlanIfDone s planId) := by
  have t : Transforms (fun _ => False) s (completePlanIfDone s planId) (completedPlan s planId) id :=
    completePlanIfDone_transforms s planId
  have hid : ∀ p, (completedPlan s planId p).id = p.id := fun p => (t.frozen p).1
  refine ⟨t.keyed hs.toKeyed, ?_, hs.unblocked, ?_, ?_⟩
  · intro step hm p' hp' hplan
    rw [completePlanIfDone_plans] at hp'
    obtain ⟨p, hp, rfl⟩ := List.mem_map.mp hp'
    rw [hid] at hplan
    have hold := hs.standing step hm p hp hplan
    unfold completedPlan
    split
    · rename_i hq
      have hdone := (of_completeHit hq).2.2 step hm hplan.symm
      refine ⟨fun hu => ?_, fun hst => ?_⟩
      · rw [unsettled_of_done hdone] at hu
        cases hu
      · rw [hst] at hdone
        cases hdone
    · exact hold
  · rw [completePlanIfDone_plans]
    intro p₁ hp₁ p₂ hp₂ hincident haccepted
    obtain ⟨q₁, hq₁, rfl⟩ := List.mem_map.mp hp₁
    obtain ⟨q₂, hq₂, rfl⟩ := List.mem_map.mp hp₂
    rw [(t.frozen q₁).2.1, (t.frozen q₂).2.1] at hincident
    rw [(t.frozen q₁).2.2, (t.frozen q₂).2.2]
    refine hs.latest q₁ hq₁ q₂ hq₂ hincident ?_
    unfold completedPlan at haccepted
    split at haccepted
    · cases haccepted
    · exact haccepted
  · intro p' hp' hc step hm hplan
    rw [completePlanIfDone_plans] at hp'
    obtain ⟨p, hp, rfl⟩ := List.mem_map.mp hp'
    rw [hid] at hplan
    unfold completedPlan at hc
    split at hc
    · rename_i hq
      exact (of_completeHit hq).2.2 step hm hplan
    · exact hs.completed p hp hc step hm hplan

/-- The last result of a plan completes it. -/
theorem settleResult_passes (l : Loaded s loaded) (hs : Coherent s)
    (live : loaded.run.status.live = true) (succeeds : turns .succeeded) :
    Passes turns s (settleResult s loaded completion) := by
  unfold settleResult
  cases completion.semanticStatus with
  | insufficientEvidence =>
    obtain ⟨g, taken, rest, hself⟩ := l.takeResult_advance completion hs live (.inr rfl)
    refine ⟨taken.transforms.moves, taken.coherent hs, fun hu p hp hne => ?_⟩
    rw [taken.transforms.plans, List.map_id] at hp
    obtain ⟨step, hm, hplan, hdone⟩ := hu p hp hne
    refine ⟨g step, taken.transforms.steps ▸ List.mem_map_of_mem hm,
      ((taken.transforms.frozenSteps step hm).2.2).trans hplan, ?_⟩
    by_cases hid : step.id = loaded.step.id
    · obtain rfl := hs.stepKeys.eq_of_key hm l.step hid
      rw [hself]
      rfl
    · rw [rest step hm hid]
      exact hdone
  | succeeded =>
    obtain ⟨g, taken, rest, -⟩ :=
      l.takeResult_advance completion hs live (.inl ⟨rfl, succeeds⟩)
    obtain ⟨g', promoted, hsame⟩ := promote_advance turns (takeResult s loaded completion .succeeded)
      (fun id => id == loaded.step.planId)
    have htaken := taken.coherent hs
    have hpromoted := promoted.coherent htaken
    have t : Transforms turns _ _ _ id := completePlanIfDone_transforms
      (promote (takeResult s loaded completion .succeeded) (fun id => id == loaded.step.planId))
      loaded.step.planId
    refine ⟨(taken.transforms.moves.trans promoted.transforms.moves).trans t.moves,
      completePlanIfDone_coherent hpromoted, fun hu p' hp' hne => ?_⟩
    rw [completePlanIfDone_plans] at hp'
    obtain ⟨p, hp, rfl⟩ := List.mem_map.mp hp'
    unfold completedPlan at hne ⊢
    split at hne
    · exact absurd rfl hne
    · rename_i hmiss
      rw [if_neg hmiss]
      by_cases hid : p.id = loaded.step.planId
      · -- It is the plan of the result, and some step of it is not done.
        have hp₀ : p ∈ s.plans := hp
        have haccepted := (l.of_live hs live).1
        obtain rfl := hs.planKeys.eq_of_key hp₀ l.plan (hid.trans l.planId.symm)
        by_contra hall
        refine hmiss ?_
        simp only [completeHit, hid, haccepted, beq_self_eq_true, Bool.true_and, List.all_eq_true,
          Bool.or_eq_true, bne_iff_ne]
        intro step hm
        by_contra hstep
        simp only [not_or, not_not, Bool.not_eq_true] at hstep
        exact hall ⟨step, hm, hstep.1.trans hid.symm, hstep.2⟩
      · obtain ⟨step, hm, hplan, hdone⟩ := hu p hp hne
        have hother : step.id ≠ loaded.step.id := by
          intro he
          rw [hs.stepKeys.eq_of_key hm l.step he] at hplan
          exact hid hplan.symm
        have hmid : g step ∈ (takeResult s loaded completion .succeeded).steps :=
          taken.transforms.steps ▸ List.mem_map_of_mem hm
        have hstep : g' (g step) ∈ (promote (takeResult s loaded completion .succeeded)
            (fun id => id == loaded.step.planId)).steps :=
          promoted.transforms.steps ▸ List.mem_map_of_mem hmid
        refine ⟨g' (g step), hstep, ?_, ?_⟩
        · rw [(promoted.transforms.frozenSteps _ hmid).2.2, rest step hm hother, hplan]
        · rw [hsame _ hmid, rest step hm hother, hdone]

theorem Loaded.reject_passes {reason : String} {status : RunStatus} (l : Loaded s loaded)
    (hs : Coherent s) (live : loaded.run.status.live = true) (ended : status.live = false)
    (kept : void status = false) (unswept : status = .timedOut → reason ≠ dispatchDeadlineExceeded)
    (turn : retries loaded.run loaded.step = true → turns .unputOff) :
    Passes turns s (reject s loaded reason status) := by
  obtain ⟨g, advance⟩ := l.reject_advance hs live ended kept unswept turn
  have hundone : ∃ g, Advance (fun turn => turn = .unputOff) s (reject s loaded reason status) g :=
    l.reject_advance hs live ended kept unswept (fun _ => rfl)
  obtain ⟨g', undone⟩ := hundone
  exact ⟨advance.transforms.moves, advance.coherent hs,
    undone.transforms.unfinished (by exact nofun) (fun _ h => h)⟩

/-- A result of a first attempt with a fallback that is too large, or too late. -/
def Rejects (s : InvestigationStore) (completion : AgentCompletion) : Prop :=
  ∃ loaded, loadRun s completion = some loaded ∧ loaded.run.status.live = true ∧
    retries loaded.run loaded.step = true ∧
    (loaded.run.budget.maxOutputBytes < completion.outputSizeBytes ∨
      loaded.run.deadline < completion.completedAt)

instance : Decidable (Rejects s completion) :=
  decidable_of_iff
    ((loadRun s completion).any (fun loaded => loaded.run.status.live &&
      (retries loaded.run loaded.step &&
        (decide (loaded.run.budget.maxOutputBytes < completion.outputSizeBytes) ||
          decide (loaded.run.deadline < completion.completedAt)))) = true) (by
      simp only [Rejects, Option.any_eq_true, Bool.and_eq_true, Bool.or_eq_true, decide_eq_true_eq])

theorem commitAgentCompletion_passes (succeeds : turns .succeeded) (hs : Coherent s)
    (rejects : Rejects s completion → turns .unputOff)
    (h : commitAgentCompletion s authority completion evidence = some (s', disposition)) :
    Passes turns s s' := by
  unfold commitAgentCompletion at h
  simp only [Option.bind_eq_bind, Option.bind_eq_some_iff] at h
  obtain ⟨-, -, loaded, hload, h⟩ := h
  have l := loadRun_loaded hload
  split at h
  · cases h
  split at h
  · rw [Option.ite_none_right_eq_some] at h
    obtain ⟨-, h⟩ := h
    cases h
    exact .refl hs
  rename_i hverdict
  split at h
  · rename_i hother
    cases h
    rw [l.markStale_eq hs hother]
    exact .refl hs
  rename_i hcurrent
  rw [not_or, not_not, not_not] at hcurrent
  have live := l.live hs hverdict hcurrent.1
  split at h
  · rename_i hlarge
    cases h
    exact l.reject_passes hs live rfl rfl (fun h => nomatch h)
      (fun hretry => rejects ⟨loaded, hload, live, hretry, .inl hlarge⟩)
  split at h
  · rename_i hlate
    cases h
    exact l.reject_passes hs live rfl rfl (fun _ => by decide)
      (fun hretry => rejects ⟨loaded, hload, live, hretry, .inr hlate⟩)
  rw [Option.ite_none_left_eq_some] at h
  obtain ⟨-, h⟩ := h
  cases h
  exact settleResult_passes l hs live succeeds

end Solvan.Investigation
