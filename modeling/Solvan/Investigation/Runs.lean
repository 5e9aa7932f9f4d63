import Solvan.Investigation.Acceptance
import Solvan.Investigation.Completion
import Solvan.Investigation.Reservation

/-! What holds in every run of the investigations. -/
namespace Solvan.Investigation

variable {allowed : Turn → Prop} {s s' : InvestigationStore} {step : StepRow} {r run : RunRow}
  {dispatch : RuntimeDispatch} {hashing : Hashing} {move : InvestigationMove}

/-- A pending run is one of the step it names, if any. -/
def Pending (s : InvestigationStore) (handle : PendingRuntimeRun) : Prop :=
  ∃ r ∈ s.runs, r.id = handle.runId ∧ r.investigationStepId = handle.investigationStepId

structure Sound (s : InvestigationStore) : Prop extends Coherent s where
  unfinished : Unfinished s
  given : ∀ dispatch ∈ s.dispatches, Given s dispatch
  pending : ∀ handle ∈ s.pendings, Pending s handle

/-- What a transaction may do only in some states. -/
def InvestigationMove.turns (s : InvestigationStore) : InvestigationMove → Turn → Prop
  | .reserveReadyDispatches incidentId _ _ _, .unputOff => Burns s incidentId
  | .reserveReadyDispatches incidentId _ _ _, .resettled => Resweeps s incidentId
  | .commitAgentCompletion _ _ _, .succeeded => True
  | .commitAgentCompletion _ completion _, .unputOff => Rejects s completion
  | _, _ => False

theorem Coherent.of_same (hs : Coherent s) (plans : s'.plans = s.plans) (steps : s'.steps = s.steps)
    (runs : s'.runs = s.runs) : Coherent s' := by
  cases s
  cases s'
  cases plans
  cases steps
  cases runs
  exact ⟨⟨hs.planKeys, hs.planVersions, hs.stepKeys, hs.stepNames, hs.runKeys, hs.owned, hs.planned,
    hs.shape⟩, hs.standing, hs.unblocked, hs.latest, hs.completed⟩

theorem Unfinished.of_same (hu : Unfinished s) (plans : s'.plans = s.plans)
    (steps : s'.steps = s.steps) : Unfinished s' := by
  unfold Unfinished
  rw [plans, steps]
  exact hu

theorem Pending.moves {handle : PendingRuntimeRun} (pending : Pending s handle) (m : Moves allowed s s') :
    Pending s' handle := by
  obtain ⟨r, hr, hid, hstep⟩ := pending
  obtain ⟨r', hr', hsame⟩ := m.same r hr
  exact ⟨r', hr', hsame.id.trans hid, hsame.step.trans hstep⟩

theorem pendingRuns_pending {handle : PendingRuntimeRun} (h : handle ∈ pendingRuns s) :
    Pending s handle := by
  obtain ⟨r, hr, h⟩ := List.mem_filterMap.mp h
  split at h
  · cases h
    exact ⟨r, List.mem_of_mem_filter hr, rfl, rfl⟩
  · cases h

theorem Sound.of_givenOut (hs : Sound s) (h : dispatch.givenOut s = true) : Given s dispatch := by
  obtain ⟨d, hd, h⟩ := List.any_eq_true.mp h
  simp only [Bool.and_eq_true, beq_iff_eq] at h
  obtain ⟨r, hr, hid, hstep⟩ := hs.given d hd
  exact ⟨r, hr, hid.trans h.1.1.1, by rw [hstep, h.1.2]⟩

/-- A transaction that gives out no handles. -/
theorem Passes.sound (pass : Passes allowed s s') (hs : Sound s) : Sound s' :=
  ⟨pass.coherent, pass.unfinished hs.unfinished,
    fun d hd => (hs.given d (pass.moves.frame.2.1 ▸ hd)).moves pass.moves,
    fun p hp => (hs.pending p (pass.moves.frame.2.2 ▸ hp)).moves pass.moves⟩

/-- A run of no step, which no statement here looks at. -/
theorem supervise_advance {key : String} (hkey : run.logicalStepKey = .other key)
    (hstep : run.investigationStepId = none) (h : insertRun s run = some s') :
    Advance allowed s s' id := by
  obtain ⟨rfl, hnew⟩ := insertRun_eq h
  refine ⟨⟨⟨rfl, rfl, rfl⟩, by rw [List.map_id], fun _ => ⟨rfl, rfl, rfl⟩, by rw [List.map_id], fun step _ => ?_,
    .insert hnew ?_⟩, fun _ _ hp hne => absurd hp hne, fun _ _ hst => hst⟩
  · have hruns : InvestigationStore.runsOf { s with runs := s.runs ++ [run] } step.id =
        s.runsOf step.id := by
      rw [InvestigationStore.runsOf, InvestigationStore.runsOf, List.filter_append]
      simp [hstep]
    rw [hruns]
    exact .same
  · simp only [Owned, hstep]
    exact ⟨key, hkey⟩

/-- The tables as they were, when a transaction commits. -/
def InvestigationStore.tables (s s' : InvestigationStore) : InvestigationStore :=
  { s' with
    plans := s.plans
    steps := s.steps
    runs := s.runs }

theorem Moves.onto {s₁ : InvestigationStore} (m : Moves allowed s s₁) (now : s'.now = s₁.now)
    (steps : s'.steps = s₁.steps) (runs : s'.runs = s₁.runs) : Moves allowed (s.tables s') s' := by
  have hnow : s.now = s'.now := (now.trans m.frame.1).symm
  have hruns : ∀ id, s'.runsOf id = s₁.runsOf id := fun id => by
    simp only [InvestigationStore.runsOf, runs]
  refine ⟨⟨rfl, rfl, rfl⟩, fun step hm => ?_, fun step hm => ?_, fun r hr he => runs ▸ m.ended r hr he,
    fun r hr => runs ▸ m.same r hr⟩
  · obtain ⟨step', hm', hleads⟩ := m.forth step hm
    refine ⟨step', steps ▸ hm', ?_⟩
    rw [hruns]
    exact hnow ▸ hleads
  · obtain ⟨step', runs', hleads, hfrom⟩ := m.back step (steps ▸ hm)
    refine ⟨step', runs', ?_, hfrom⟩
    rw [hruns]
    exact hnow ▸ hleads

/-- The tables are left alone. -/
theorem Moves.idle (steps : s'.steps = s.steps) (runs : s'.runs = s.runs) :
    Moves allowed (s.tables s') s' := .of_same ⟨rfl, rfl, rfl⟩ steps runs

theorem Passes.onto (pass : Passes allowed s s') : Moves allowed (s.tables s') s' :=
  pass.moves.onto rfl rfl rfl

theorem Advance.committed {g : StepRow → StepRow} (a : Advance (fun _ => False) s s' g)
    (hs : Sound s) : Sound s' ∧ Moves (fun _ => False) (s.tables s') s' := by
  have pass := a.passes hs.toCoherent not_false
  exact ⟨pass.sound hs, pass.onto⟩

/-- Every transaction keeps the tables sound, and does to a step what it may. -/
theorem apply_sound (hs : Sound s) (h : s.apply hashing move = some s') :
    Sound s' ∧ Moves (move.turns s) (s.tables s') s' := by
  cases move with
  | tick micros =>
    cases h
    exact ⟨⟨hs.toCoherent.of_same rfl rfl rfl, hs.unfinished, hs.given, hs.pending⟩, .idle rfl rfl⟩
  | incidents rows =>
    cases h
    exact ⟨⟨hs.toCoherent.of_same rfl rfl rfl, hs.unfinished, hs.given, hs.pending⟩, .idle rfl rfl⟩
  | supervise run =>
    simp only [InvestigationStore.apply] at h
    split at h
    · rename_i key hkey hstep
      exact (supervise_advance hkey hstep h).committed hs
    · cases h
  | persistAcceptedPlan incidentId supervisorRunId authority plan planId stepIds =>
    have pass : Passes (fun _ => False) s s' := persistAcceptedPlan_passes not_false hs.toCoherent h
    exact ⟨pass.sound hs, pass.onto⟩
  | reserveReadyDispatches incidentId authority batchSize news =>
    obtain ⟨⟨s₁, dispatches⟩, hreserve, rfl⟩ := Option.map_eq_some_iff.mp h
    have hpass : Passes (InvestigationMove.turns s
        (.reserveReadyDispatches incidentId authority batchSize news)) s s₁ ∧
        ∀ d ∈ dispatches, Given s₁ d :=
      reserveReadyDispatches_passes (by exact not_false) hs.toCoherent (fun h => h) (fun h => h) hreserve
    obtain ⟨pass, hgiven⟩ := hpass
    have sound := pass.sound hs
    refine ⟨⟨pass.coherent.of_same rfl rfl rfl, sound.unfinished, fun d hd => ?_, sound.pending⟩,
      pass.moves.onto rfl rfl rfl⟩
    rcases List.mem_append.mp hd with hd | hd
    · exact hgiven d hd
    · exact sound.given d hd
  | attachDispatchContext dispatch context newHash =>
    obtain ⟨-, h⟩ := Option.ite_none_right_eq_some.mp h
    exact (attachDispatchContext_advance h).committed hs
  | recordRuntimeDispatch dispatch receipt =>
    obtain ⟨-, h⟩ := Option.ite_none_right_eq_some.mp h
    exact (recordRuntimeDispatch_advance h).committed hs
  | recordRuntimeDispatchFailure dispatch errorClass =>
    obtain ⟨hgiven, h⟩ := Option.ite_none_right_eq_some.mp h
    obtain ⟨g, advance⟩ := recordRuntimeDispatchFailure_advance hs.toCoherent (hs.of_givenOut hgiven) h
    exact advance.committed hs
  | pending =>
    cases h
    refine ⟨⟨hs.toCoherent.of_same rfl rfl rfl, hs.unfinished, hs.given, fun p hp => ?_⟩, .idle rfl rfl⟩
    rcases List.mem_append.mp hp with hp | hp
    · exact pendingRuns_pending hp
    · exact hs.pending p hp
  | commitAgentCompletion authority completion evidence =>
    obtain ⟨⟨s₁, disposition⟩, hcommit, rfl⟩ := Option.map_eq_some_iff.mp h
    have pass : Passes (InvestigationMove.turns s (.commitAgentCompletion authority completion evidence))
        s s₁ := commitAgentCompletion_passes (by exact trivial) hs.toCoherent (fun h => h) hcommit
    exact ⟨pass.sound hs, pass.onto⟩
  | adoptCreatedDispatch run runtimeOutputRef =>
    exact (adoptCreatedDispatch_advance h).committed hs
  | expireCreated run expiry =>
    cases h
    obtain ⟨g, advance⟩ := expireCreated_advance hs.toCoherent
    exact advance.committed hs
  | fail run errorClass =>
    obtain ⟨hpending, h⟩ := Option.ite_none_right_eq_some.mp h
    obtain ⟨g, advance⟩ := fail_advance hs.toCoherent (hs.pending run hpending) h
    exact advance.committed hs

theorem empty_sound (now : Int) : Sound (.empty now) := by
  refine ⟨⟨⟨List.nodup_nil, List.nodup_nil, List.nodup_nil, List.nodup_nil, List.nodup_nil, ?_, ?_, ?_⟩,
    ?_, ?_, ?_, ?_⟩, ?_, ?_, ?_⟩ <;> exact fun _ h => nomatch h

theorem next_sound (hs : Sound s) (h : s.next hashing move = some s') :
    Sound s' ∧ Moves (move.turns s) (s.tables s') s' :=
  apply_sound hs (Option.filter_eq_some_iff.mp h).1

/-- Plans, steps and runs agree in every reachable state. -/
theorem reach_sound (h : (investigationMachine hashing).Reach s) : Sound s := by
  refine h.invariant (fun s hstart => ?_) (fun s move s' _ hs hnext => (next_sound hs hnext).1)
  obtain ⟨now, rfl⟩ := hstart
  exact empty_sound now

end Solvan.Investigation
