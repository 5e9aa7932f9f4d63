import Solvan.Scale.Lifecycle

/-! How the jobs of a tenant's lifecycle come to their ends. -/
namespace Solvan.Scale

/-- How many states may follow without a job being unblocked. -/
def LifecycleState.rank : LifecycleState → Nat
  | .pending => 8
  | .quiescing => 7
  | .exporting => 6
  | .restoring => 5
  | .verifying => 4
  | .cutoverReady => 3
  | .cutoverCommitted => 2
  | .blocked => 1
  | .completed | .failed | .cancelled => 0

/-- A move that takes a blocked job up again. -/
def LifecycleMove.unblocks : LifecycleMove → Bool
  | .transition .blocked .pending _ => true
  | _ => false

/-- What no move of a job changes. -/
structure SameJob (job job' : LifecycleJob) : Prop where
  organization : job'.organizationId = job.organizationId
  identity : job'.jobId = job.jobId
  kind : job'.jobKind = job.jobKind
  expected : job'.expectedPlacementEpoch = job.expectedPlacementEpoch
  source : job'.sourceCellId = job.sourceCellId
  request : job'.requestHash = job.requestHash
  hold : job'.legalHoldRef = job.legalHoldRef
  unsettled : job'.unsettledMutationCount = job.unsettledMutationCount

theorem SameJob.refl (job : LifecycleJob) : SameJob job job := ⟨rfl, rfl, rfl, rfl, rfl, rfl, rfl, rfl⟩

theorem SameJob.trans {job job' job'' : LifecycleJob} (h : SameJob job job') (h' : SameJob job' job'') :
    SameJob job job'' :=
  ⟨h'.organization.trans h.organization, h'.identity.trans h.identity, h'.kind.trans h.kind,
    h'.expected.trans h.expected, h'.source.trans h.source, h'.request.trans h.request, h'.hold.trans h.hold,
    h'.unsettled.trans h.unsettled⟩

/-- A job that may be called complete. -/
structure Proven (job : LifecycleJob) : Prop where
  proof : job.completionProofHash.any typedHash = true
  released : job.jobKind = .delete → given job.legalHoldRef = none ∧ job.unsettledMutationCount = 0

variable {job job' : LifecycleJobState} {expectedFrom toState : LifecycleState} {proof : Option String}
  {m : LifecycleMove} {moves : List LifecycleMove} {kind : LifecycleKind}

/-- Every declared edge goes down, but for the one that unblocks. -/
theorem rank_lt : ∀ edge ∈ lifecycleTransitions,
    edge = (.blocked, .pending) ∨ edge.2.rank < edge.1.rank := by decide

/-- A job is completed only with a proof, and a deletion only where nothing holds it. -/
theorem transition_proven (h : transition job expectedFrom toState proof = some job')
    (hcompleted : job'.state = .completed) : Proven job'.toLifecycleJob := by
  have hto : toState = .completed := by
    obtain ⟨-, -, -, proof', rfl⟩ := transition_cases h
    exact hcompleted
  unfold transition at h
  obtain ⟨-, h⟩ := Option.ite_none_left_eq_some.mp h
  obtain ⟨-, h⟩ := Option.ite_none_left_eq_some.mp h
  obtain ⟨-, h⟩ := Option.ite_none_left_eq_some.mp h
  obtain ⟨-, h⟩ := Option.ite_none_left_eq_some.mp h
  rw [if_pos hto] at h
  obtain ⟨hheld, h⟩ := Option.ite_none_left_eq_some.mp h
  split at h
  · cases h
  · rename_i given' hgiven
    obtain ⟨htyped, h⟩ := Option.ite_none_right_eq_some.mp h
    obtain rfl := Option.some.inj h
    refine ⟨htyped, fun hdelete => ?_⟩
    have hnone : ¬((given job.legalHoldRef).isSome = true ∨ job.unsettledMutationCount ≠ 0) :=
      fun hhold => hheld ⟨hdelete, hhold⟩
    rw [not_or, not_not, Option.not_isSome_iff_eq_none] at hnone
    exact hnone

/-- What a move does: it follows a declared edge, and leaves what it may not change. -/
structure Stepped (job : LifecycleJobState) (m : LifecycleMove) (job' : LifecycleJobState) : Prop where
  declared : (job.state, job'.state) ∈ lifecycleTransitions
  unblocks : (job.state, job'.state) = (.blocked, .pending) → m.unblocks = true
  same : SameJob job.toLifecycleJob job'.toLifecycleJob
  proven : job'.state = .completed → Proven job'.toLifecycleJob
  cutover : job.jobKind = .move → job'.state = .completed → job.state = .cutoverCommitted

theorem next_stepped (h : job.next m = some job') : Stepped job m job' := by
  cases m with
  | transition expectedFrom toState proof =>
    have hproven := transition_proven h
    obtain ⟨rfl, hdeclared, hmove, proof', rfl⟩ := transition_cases h
    refine ⟨hdeclared, fun hedge => ?_, ⟨rfl, rfl, rfl, rfl, rfl, rfl, rfl, rfl⟩, hproven, hmove⟩
    obtain ⟨hfrom, hto⟩ := Prod.mk.inj hedge
    have hto' : toState = .pending := hto
    rw [hfrom, hto']
    rfl
  | prepareMove move =>
    obtain ⟨hready, hnext⟩ := Option.ite_none_left_eq_some.mp h
    obtain ⟨verified, heq⟩ := Option.dite_none_right_eq_some.mp hnext
    obtain rfl := Option.some.inj heq
    rw [not_or, not_not, not_not] at hready
    refine ⟨?_, fun hedge => ?_, ⟨rfl, rfl, rfl, rfl, rfl, rfl, rfl, rfl⟩, fun hcompleted => ?_, fun _ hcompleted => ?_⟩
    · rw [hready.2]
      exact (by decide : (LifecycleState.verifying, LifecycleState.cutoverReady) ∈ lifecycleTransitions)
    · rw [hready.2] at hedge
      cases hedge
    · cases hcompleted
    · cases hcompleted
  | commitMove decisionRef =>
    obtain ⟨hready, hnext⟩ := Option.ite_none_left_eq_some.mp h
    obtain rfl := Option.some.inj hnext
    rw [not_or, not_not, not_not] at hready
    refine ⟨?_, fun hedge => ?_, ⟨rfl, rfl, rfl, rfl, rfl, rfl, rfl, rfl⟩, fun hcompleted => ?_, fun _ hcompleted => ?_⟩
    · rw [hready.1]
      exact (by decide : (LifecycleState.cutoverReady, LifecycleState.cutoverCommitted) ∈ lifecycleTransitions)
    · rw [hready.1] at hedge
      cases hedge
    · cases hcompleted
    · cases hcompleted

/-- A job that has come to its end goes nowhere. -/
theorem terminal_stays (h : job.state.terminal = true) (m : LifecycleMove) : job.next m = none := by
  cases hnext : job.next m with
  | none => rfl
  | some job' =>
    have hdeclared := (next_stepped hnext).declared
    have hleaves : ∀ edge ∈ lifecycleTransitions, edge.1.terminal = false := by decide
    rw [hleaves _ hdeclared] at h
    cases h

/-- What the moves of a run amount to. -/
structure Ran (job : LifecycleJobState) (moves : List LifecycleMove) (job' : LifecycleJobState) : Prop where
  bounded : moves.length + job'.state.rank ≤ job.state.rank + 8 * moves.countP LifecycleMove.unblocks
  same : SameJob job.toLifecycleJob job'.toLifecycleJob
  proven : job'.state = .completed → job.state = .completed ∨ Proven job'.toLifecycleJob

theorem path_ran (h : (lifecycle kind).Path job moves job') : Ran job moves job' := by
  induction h with
  | nil => exact ⟨by rw [List.length_nil]; omega, .refl _, .inl⟩
  | @cons job between job' m moves move rest ih =>
    have hstep : Stepped job m between := next_stepped move
    refine ⟨?_, hstep.same.trans ih.same, fun hcompleted => ?_⟩
    · have hbounded := ih.bounded
      rw [List.length_cons]
      obtain hedge | hdown := rank_lt _ hstep.declared
      · obtain ⟨hfrom, hto⟩ := Prod.mk.inj hedge
        rw [List.countP_cons_of_pos (hstep.unblocks hedge), hfrom]
        rw [hto] at hbounded
        simp only [LifecycleState.rank] at hbounded ⊢
        omega
      · have hcount := (List.sublist_cons_self m moves).countP_le (p := LifecycleMove.unblocks)
        dsimp only at hdown
        omega
    · obtain hbetween | hproven := ih.proven hcompleted
      · cases rest with
        | nil => exact .inr (hstep.proven hcompleted)
        | cons later _ =>
          have hstuck := @terminal_stays between (by rw [hbetween]; rfl)
          exact nomatch (hstuck _).symm.trans later
      · exact .inr hproven

/-- A move is complete only after its cutover was committed. -/
theorem path_cutover (h : (lifecycle kind).Path job moves job') (hkind : job.jobKind = .move)
    (hcompleted : job'.state = .completed) (hstart : job.state ≠ .completed) :
    ∃ before after between, moves = before ++ after ∧ (lifecycle kind).Path job before between ∧
      between.state = .cutoverCommitted ∧ (lifecycle kind).Path between after job' := by
  induction h with
  | nil => exact absurd hcompleted hstart
  | @cons job between job' m moves move rest ih =>
    have hstep : Stepped job m between := next_stepped move
    by_cases hbetween : between.state = .completed
    · exact ⟨[], m :: moves, job, rfl, .nil, hstep.cutover hkind hbetween, .cons move rest⟩
    · obtain ⟨before, after, u, rfl, hbefore, hcommitted, hafter⟩ :=
        ih (hstep.same.kind.trans hkind) hcompleted hbetween
      exact ⟨m :: before, after, u, rfl, .cons move hbefore, hcommitted, hafter⟩

/-- Every run of a job keeps what the job is, and comes to an end but for the times that it is unblocked; a job is
completed only with a typed proof, a deletion only without holds, and a move only after its cutover. -/
theorem lifecycle_settles (start : job.jobKind = kind ∧ job.state = .pending)
    (h : (lifecycle kind).Path job moves job') :
    moves.length ≤ 8 + 8 * moves.countP LifecycleMove.unblocks ∧ SameJob job.toLifecycleJob job'.toLifecycleJob ∧
      (job'.state.terminal = true → ∀ m, job'.next m = none) ∧
      (job'.state = .completed → Proven job'.toLifecycleJob ∧ (kind = .move →
        ∃ before after between, moves = before ++ after ∧ (lifecycle kind).Path job before between ∧
          between.state = .cutoverCommitted ∧ (lifecycle kind).Path between after job')) := by
  have hran := path_ran h
  have hpending : job.state ≠ .completed := by
    rw [start.2]
    nofun
  refine ⟨?_, hran.same, terminal_stays, fun hcompleted => ⟨?_, fun hkind => ?_⟩⟩
  · have hbounded := hran.bounded
    rw [start.2] at hbounded
    simp only [LifecycleState.rank] at hbounded
    omega
  · exact (hran.proven hcompleted).resolve_left hpending
  · exact path_cutover h (start.1.trans hkind) hcompleted hpending

/-- A move of five steps is complete. -/
theorem lifecycle_settles_move : ∃ job : LifecycleJobState, job.state = .completed ∧ Proven job.toLifecycleJob := by
  obtain ⟨job, path, hjob⟩ := (Machine.exists_path (by decide +kernel) :
    ∃ job, (lifecycle .move).Path moving
      [.transition .pending .quiescing none, .transition .quiescing .verifying none, .prepareMove verifiedMove,
        .commitMove "ref_cutover_1", .transition .cutoverCommitted .completed (some "sha256:5")] job ∧
      decide (job.state = .completed) = true)
  have hcompleted := of_decide_eq_true hjob
  exact ⟨job, hcompleted, ((@lifecycle_settles moving job _ .move ⟨rfl, rfl⟩ path).2.2.2 hcompleted).1⟩

end Solvan.Scale
