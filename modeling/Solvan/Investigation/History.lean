import Solvan.Investigation.Agreement

namespace Solvan.Investigation

variable {hashing : Hashing} {s s' t : InvestigationStore} {step step' : StepRow} {r : RunRow}
  {runs runs' : List RunRow} {allowed : Turn → Prop} {move : InvestigationMove}
  {moves : List InvestigationMove}

/-- A step that has become `SUCCEEDED`, `FAILED` or `STALE`. -/
def Settled (step : StepRow) : Prop :=
  step.status = .succeeded ∨ step.status = .failed ∨ step.status = .stale

/-- What is settled in one state is the same row in the other. -/
structure History (s t : InvestigationStore) : Prop where
  steps : ∀ step ∈ s.steps, Settled step → Table.find StepRow.id step.id t.steps = some step
  runs : ∀ r ∈ s.runs, r.status.live = false → Table.find RunRow.id r.id t.runs = some r

/-- A transaction that does not sweep over a step it has failed before. -/
def SweepsOnce (s : InvestigationStore) : InvestigationMove → Prop
  | .reserveReadyDispatches incidentId _ _ _ => ¬Resweeps s incidentId
  | _ => True

instance (s : InvestigationStore) : (move : InvestigationMove) → Decidable (SweepsOnce s move)
  | .reserveReadyDispatches incidentId _ _ _ => inferInstanceAs (Decidable (¬Resweeps s incidentId))
  | .tick _ | .incidents _ | .supervise _ | .persistAcceptedPlan _ _ _ _ _ _ | .attachDispatchContext _ _ _
  | .recordRuntimeDispatch _ _ | .recordRuntimeDispatchFailure _ _ | .pending | .commitAgentCompletion _ _ _
  | .adoptCreatedDispatch _ _ | .expireCreated _ _ | .fail _ _ => isTrue trivial

theorem SweepsOnce.turns (h : SweepsOnce s move) : ¬move.turns s .resettled := by
  cases move with
  | reserveReadyDispatches incidentId authority batchSize news => exact h
  | _ => exact id

theorem Leads.settled {now : Int} {u u' : StepRow × List RunRow} (h : Leads allowed now u u')
    (once : ¬allowed .resettled) (shape : Shape u.1 u.2) (settled : Settled u.1) : u' = u := by
  induction h with
  | refl => rfl
  | tail _ hlast ih =>
    subst ih
    obtain ⟨hstep, hruns⟩ := hlast.settled shape once settled
    exact Prod.ext hstep hruns

/-- What is settled before a transaction is settled after it. -/
theorem history_of_next (hs : Sound s) (once : SweepsOnce s move) (h : s.next hashing move = some s') :
    History s s' := by
  obtain ⟨hs', hmoves⟩ := next_sound hs h
  refine ⟨fun step hm settled => ?_, fun r hr hended => ?_⟩
  · obtain ⟨step', hm', hleads⟩ := hmoves.forth step hm
    have hsame := hleads.settled once.turns (hs.shape step hm) settled
    rw [Prod.mk.injEq] at hsame
    rw [hsame.1] at hm'
    exact hs'.stepKeys.find_eq hm'
  · exact hs'.runKeys.find_eq (hmoves.ended r hr hended)

theorem History.trans (h : History s s') (h' : History s' t) : History s t := by
  refine ⟨fun step hm settled => ?_, fun r hr hended => ?_⟩
  · exact h'.steps step (Table.mem_of_find (h.steps step hm settled)).1 settled
  · exact h'.runs r (Table.mem_of_find (h.runs r hr hended)).1 hended

/-- What is settled stays as it is, whatever transactions follow, if none sweeps
over a step that was failed by a sweep before. -/
theorem settled_is_history (reach : (investigationMachine hashing).Reach s)
    (path : ((investigationMachine hashing).guarded SweepsOnce).Path s moves t) : History s t := by
  have hs := reach_sound reach
  clear reach
  induction path with
  | nil => exact ⟨fun step hm _ => hs.stepKeys.find_eq hm, fun r hr _ => hs.runKeys.find_eq hr⟩
  | cons hstep rest ih =>
    obtain ⟨once, hnext⟩ := hstep
    exact (history_of_next hs once hnext).trans (ih (next_sound hs hnext).1)

section Example

def swept : List InvestigationMove :=
  dispatchedOnce none ++ [.tick 2000000, .reserveReadyDispatches "inc_1" coordinator 1 []]

/-- The sweep fails the step once more at every later reservation. -/
theorem settled_not_history :
    ¬∀ s t moves, (investigationMachine named).Reach s →
      (investigationMachine named).Path s moves t → History s t := by
  intro hall
  have hrun : ((Machine.runFn (InvestigationStore.next named) (.empty 0) swept).any (fun s =>
      s.steps.map (fun step => (step.id, step.status, step.completedAt)) ==
        [("step_1", .failed, some 2000000)] &&
      (Machine.runFn (InvestigationStore.next named) s
        [.tick 1000000, .reserveReadyDispatches "inc_1" coordinator 1 []]).any (fun t =>
          t.steps.map (fun step => (step.id, step.completedAt)) == [("step_1", some 3000000)]))) =
      true := by
    decide +kernel
  obtain ⟨s, reach, hs⟩ := (Machine.exists_reach swept ⟨0, rfl⟩ hrun :
    ∃ s, (investigationMachine named).Reach s ∧ _)
  rw [Bool.and_eq_true, beq_iff_eq] at hs
  obtain ⟨t, path, ht⟩ := (Machine.exists_path hs.2 :
    ∃ t, (investigationMachine named).Path s _ t ∧ _)
  obtain ⟨step, hsteps, hstep⟩ := List.map_eq_singleton_iff.mp hs.1
  obtain ⟨step', hsteps', hstep'⟩ := List.map_eq_singleton_iff.mp (beq_iff_eq.mp ht)
  simp only [Prod.mk.injEq] at hstep hstep'
  have hfind := (hall s t _ reach path).steps step (by simp [hsteps]) (.inr (.inl hstep.2.1))
  have hm := (Table.mem_of_find hfind).1
  rw [hsteps', List.mem_singleton] at hm
  have hmoment := hstep.2.2
  rw [hm, hstep'.2] at hmoment
  exact absurd hmoment (by decide)

/-- The sweep comes by again at once, and another plan takes the place of the first. -/
def replanned : List InvestigationMove :=
  [.reserveReadyDispatches "inc_1" coordinator 1 [],
    .supervise { supervised with id := "run_2", invocationId := "inv_2", logicalStepKey := .other "again" },
    .persistAcceptedPlan "inc_1" "run_2" coordinator (oneStep none) "plan_2" ["step_2"],
    .tick 1000000,
    .reserveReadyDispatches "inc_1" coordinator 1 [⟨"run_3", "inv_3", "trace_3", "span_3", .null⟩]]

theorem settled_is_history_replanned :
    ∃ s t, s.steps.map StepRow.status = [.failed] ∧
      t.steps.map StepRow.status = [.failed, .dispatched] ∧ History s t := by
  have hrun : ((Machine.runFn (InvestigationStore.next named) (.empty 0) swept).any (fun s =>
      s.steps.map StepRow.status == [.failed] &&
      (Machine.runFn (Machine.guardFn SweepsOnce (InvestigationStore.next named)) s replanned).any
        (fun t => t.steps.map StepRow.status == [.failed, .dispatched]))) = true := by
    decide +kernel
  obtain ⟨s, reach, hs⟩ := (Machine.exists_reach swept ⟨0, rfl⟩ hrun :
    ∃ s, (investigationMachine named).Reach s ∧ _)
  rw [Bool.and_eq_true, beq_iff_eq] at hs
  obtain ⟨t, path, ht⟩ := (Machine.exists_path hs.2 :
    ∃ t, (Machine.ofFn (fun s => ∃ now, s = .empty now)
      (Machine.guardFn SweepsOnce (InvestigationStore.next named))).Path s replanned t ∧ _)
  have hguarded : ((investigationMachine named).guarded SweepsOnce).Path s replanned t :=
    path.of_guardFn
  exact ⟨s, t, hs.1, beq_iff_eq.mp ht, settled_is_history reach hguarded⟩

end Example

end Solvan.Investigation
