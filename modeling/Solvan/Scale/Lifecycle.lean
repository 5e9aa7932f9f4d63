import Solvan.Base.Machine

/-! The lifecycle of a tenant's job, and what a move has to carry before its
cutover. -/
namespace Solvan.Scale

inductive LifecycleKind where
  | provision | suspend | resume | move | export_ | delete | restoreTest
deriving DecidableEq, Repr

inductive LifecycleState where
  | pending | quiescing | exporting | restoring | verifying | cutoverReady | cutoverCommitted
  | completed | blocked | failed | cancelled
deriving DecidableEq, Repr

/-- `_LIFECYCLE_TRANSITIONS` -/
def lifecycleTransitions : List (LifecycleState × LifecycleState) :=
  [(.pending, .quiescing), (.pending, .blocked), (.pending, .failed), (.pending, .cancelled),
    (.quiescing, .exporting), (.quiescing, .verifying), (.quiescing, .blocked),
    (.quiescing, .failed), (.quiescing, .cancelled), (.exporting, .restoring),
    (.exporting, .verifying), (.exporting, .blocked), (.exporting, .failed),
    (.restoring, .verifying), (.restoring, .blocked), (.restoring, .failed),
    (.verifying, .cutoverReady), (.verifying, .completed), (.verifying, .blocked),
    (.verifying, .failed), (.cutoverReady, .cutoverCommitted), (.cutoverReady, .blocked),
    (.cutoverReady, .failed), (.cutoverReady, .cancelled), (.cutoverCommitted, .completed),
    (.blocked, .pending), (.blocked, .failed), (.blocked, .cancelled)]

def LifecycleState.terminal (state : LifecycleState) : Bool :=
  state == .completed || state == .failed || state == .cancelled

/-- Whether a string begins with another. -/
def beginsWith (start s : String) : Bool := start.toList.isPrefixOf s.toList

/-- A typed hash. -/
def typedHash (s : String) : Bool := beginsWith "sha256:" s

structure LifecycleJob where
  organizationId : String
  jobId : String
  jobKind : LifecycleKind
  expectedPlacementEpoch : Int
  sourceCellId : String
  state : LifecycleState
  destinationCellId : Option String
  proposedPlacementEpoch : Option Int
  requestHash : String
  quiesceReceiptHash : Option String
  sourceHighWater : Option Int
  exportManifestHash : Option String
  destinationVerificationHash : Option String
  isolationVerificationHash : Option String
  cutoverDecisionRef : Option String
  completionProofHash : Option String
  legalHoldRef : Option String
  unsettledMutationCount : Int
deriving DecidableEq, Repr

/-- What `__post_init__` checks. -/
structure LifecycleJob.Valid (job : LifecycleJob) : Prop where
  organization : job.organizationId ≠ ""
  identity : job.jobId ≠ ""
  expected : 1 ≤ job.expectedPlacementEpoch
  request : job.requestHash = "" ∨ typedHash job.requestHash = true
  proposed : ∀ epoch ∈ job.proposedPlacementEpoch, job.expectedPlacementEpoch < epoch
  unsettled : 0 ≤ job.unsettledMutationCount

structure LifecycleJobState extends LifecycleJob where
  valid : toLifecycleJob.Valid

/-- A string argument that counts as given. -/
def given (s : Option String) : Option String := s.filter (fun s => s != "")

/-- `replace(job, state=…, completion_proof_hash=…)` -/
def LifecycleJobState.enter (job : LifecycleJobState) (state : LifecycleState)
    (proof : Option String) : LifecycleJobState where
  toLifecycleJob := { job.toLifecycleJob with state := state, completionProofHash := proof }
  valid := ⟨job.valid.organization, job.valid.identity, job.valid.expected, job.valid.request,
    job.valid.proposed, job.valid.unsettled⟩

/-- `transition` -/
def transition (job : LifecycleJobState) (expectedFrom toState : LifecycleState)
    (completionProofHash : Option String) : Option LifecycleJobState :=
  if job.state ≠ expectedFrom then none
  else if job.state.terminal then none
  else if !lifecycleTransitions.contains (expectedFrom, toState) then none
  else if job.jobKind = .move ∧ toState = .completed ∧ expectedFrom ≠ .cutoverCommitted then none
  else if toState = .completed then
    if job.jobKind = .delete ∧
        ((given job.legalHoldRef).isSome = true ∨ job.unsettledMutationCount ≠ 0) then none
    else
      match (given completionProofHash).or (given job.completionProofHash) with
      | none => none
      | some proof => if typedHash proof then some (job.enter toState (some proof)) else none
  else some (job.enter toState job.completionProofHash)

/-- The operands of `prepare_move`. -/
structure MoveOperands where
  destinationCellId : String
  proposedPlacementEpoch : Int
  quiesceReceiptHash : String
  sourceHighWater : Int
  exportManifestHash : String
  destinationVerificationHash : String
  isolationVerificationHash : String
  cutoverDecisionRef : String
deriving DecidableEq, Repr

def MoveOperands.hashes (move : MoveOperands) : List String :=
  [move.quiesceReceiptHash, move.exportManifestHash, move.destinationVerificationHash,
    move.isolationVerificationHash]

/-- What `prepare_move` checks of its operands. -/
structure MoveOperands.Verified (move : MoveOperands) (job : LifecycleJobState) : Prop where
  destination : move.destinationCellId ≠ "" ∧ move.destinationCellId ≠ job.sourceCellId
  epoch : job.expectedPlacementEpoch < move.proposedPlacementEpoch
  highWater : 0 ≤ move.sourceHighWater
  decision : beginsWith "ref_" move.cutoverDecisionRef = true
  hashes : ∀ hash ∈ move.hashes, typedHash hash = true

instance (move : MoveOperands) (job : LifecycleJobState) : Decidable (move.Verified job) :=
  decidable_of_iff
    ((move.destinationCellId ≠ "" ∧ move.destinationCellId ≠ job.sourceCellId) ∧
      job.expectedPlacementEpoch < move.proposedPlacementEpoch ∧ 0 ≤ move.sourceHighWater ∧
      beginsWith "ref_" move.cutoverDecisionRef = true ∧ ∀ hash ∈ move.hashes, typedHash hash = true)
    ⟨fun ⟨a, b, c, d, e⟩ => ⟨a, b, c, d, e⟩, fun ⟨a, b, c, d, e⟩ => ⟨a, b, c, d, e⟩⟩

/-- The job that `prepare_move` returns. -/
def LifecycleJobState.prepared (job : LifecycleJobState) (move : MoveOperands)
    (verified : move.Verified job) : LifecycleJobState where
  toLifecycleJob :=
    { job.toLifecycleJob with
      state := .cutoverReady
      destinationCellId := some move.destinationCellId
      proposedPlacementEpoch := some move.proposedPlacementEpoch
      quiesceReceiptHash := some move.quiesceReceiptHash
      sourceHighWater := some move.sourceHighWater
      exportManifestHash := some move.exportManifestHash
      destinationVerificationHash := some move.destinationVerificationHash
      isolationVerificationHash := some move.isolationVerificationHash
      cutoverDecisionRef := some move.cutoverDecisionRef }
  valid := ⟨job.valid.organization, job.valid.identity, job.valid.expected, job.valid.request,
    fun _ h => Option.some.inj h ▸ verified.epoch, job.valid.unsettled⟩

/-- `prepare_move` -/
def prepareMove (job : LifecycleJobState) (move : MoveOperands) : Option LifecycleJobState :=
  if job.jobKind ≠ .move ∨ job.state ≠ .verifying then none
  else if verified : move.Verified job then some (job.prepared move verified)
  else none

/-- `commit_move` -/
def commitMove (job : LifecycleJobState) (decisionRef : String) : Option LifecycleJobState :=
  if job.state ≠ .cutoverReady ∨ job.cutoverDecisionRef ≠ some decisionRef then none
  else some (job.enter .cutoverCommitted job.completionProofHash)

inductive LifecycleMove where
  | transition (expectedFrom toState : LifecycleState) (completionProofHash : Option String)
  | prepareMove (move : MoveOperands)
  | commitMove (decisionRef : String)

def LifecycleJobState.next (job : LifecycleJobState) : LifecycleMove → Option LifecycleJobState
  | .transition expectedFrom toState proof => transition job expectedFrom toState proof
  | .prepareMove move => Scale.prepareMove job move
  | .commitMove decisionRef => Scale.commitMove job decisionRef

/-- The jobs of one kind, from `PENDING` on. -/
def lifecycle (kind : LifecycleKind) : Machine LifecycleJobState LifecycleMove :=
  Machine.ofFn (fun job => job.jobKind = kind ∧ job.state = .pending) LifecycleJobState.next

/-- What a move carries once it is ready for its cutover. -/
structure CutoverVerified (job : LifecycleJob) : Prop where
  destination : job.destinationCellId.any (fun cell => cell != "" && cell != job.sourceCellId) = true
  epoch : job.proposedPlacementEpoch.any (fun epoch => decide (job.expectedPlacementEpoch < epoch)) =
    true
  decision : job.cutoverDecisionRef.any (beginsWith "ref_") = true
  highWater : job.sourceHighWater.any (fun mark => decide (0 ≤ mark)) = true
  quiesced : job.quiesceReceiptHash.any typedHash = true
  exported : job.exportManifestHash.any typedHash = true
  verified : job.destinationVerificationHash.any typedHash = true
  isolated : job.isolationVerificationHash.any typedHash = true

/-- The states that a move reaches by its cutover alone. -/
def LifecycleState.pastCutover (state : LifecycleState) : Prop :=
  state = .cutoverReady ∨ state = .cutoverCommitted ∨ state = .completed

variable {job job' : LifecycleJobState} {expectedFrom toState : LifecycleState}
  {proof : Option String} {move : MoveOperands} {m : LifecycleMove}

/-- What the generic transition does, and when. -/
theorem transition_cases (h : transition job expectedFrom toState proof = some job') :
    job.state = expectedFrom ∧ (expectedFrom, toState) ∈ lifecycleTransitions ∧
      (job.jobKind = .move → toState = .completed → expectedFrom = .cutoverCommitted) ∧
      ∃ proof', job' = job.enter toState proof' := by
  unfold transition at h
  obtain ⟨hfrom, h⟩ := Option.ite_none_left_eq_some.mp h
  obtain ⟨-, h⟩ := Option.ite_none_left_eq_some.mp h
  obtain ⟨hdeclared, h⟩ := Option.ite_none_left_eq_some.mp h
  obtain ⟨hmove, h⟩ := Option.ite_none_left_eq_some.mp h
  refine ⟨not_not.mp hfrom, by simpa using hdeclared, fun hkind hcompleted => ?_, ?_⟩
  · by_contra hskipped
    exact hmove ⟨hkind, hcompleted, hskipped⟩
  · split at h
    · obtain ⟨-, h⟩ := Option.ite_none_left_eq_some.mp h
      split at h
      · cases h
      · rename_i proof' hproof
        obtain ⟨-, h⟩ := Option.ite_none_right_eq_some.mp h
        exact ⟨some proof', (Option.some.inj h).symm⟩
    · exact ⟨_, (Option.some.inj h).symm⟩

/-- What a job carries does not depend on the state it is in. -/
theorem CutoverVerified.enter (h : CutoverVerified job.toLifecycleJob) :
    CutoverVerified (job.enter toState proof).toLifecycleJob :=
  ⟨h.destination, h.epoch, h.decision, h.highWater, h.quiesced, h.exported, h.verified, h.isolated⟩

theorem CutoverVerified.prepared (verified : move.Verified job) :
    CutoverVerified (job.prepared move verified).toLifecycleJob where
  destination := by simpa [LifecycleJobState.prepared] using verified.destination
  epoch := decide_eq_true verified.epoch
  decision := by simpa [LifecycleJobState.prepared] using verified.decision
  highWater := decide_eq_true verified.highWater
  quiesced := by
    simpa [LifecycleJobState.prepared] using verified.hashes move.quiesceReceiptHash (by
      simp [MoveOperands.hashes])
  exported := by
    simpa [LifecycleJobState.prepared] using verified.hashes move.exportManifestHash (by
      simp [MoveOperands.hashes])
  verified := by
    simpa [LifecycleJobState.prepared] using verified.hashes move.destinationVerificationHash (by
      simp [MoveOperands.hashes])
  isolated := by
    simpa [LifecycleJobState.prepared] using verified.hashes move.isolationVerificationHash (by
      simp [MoveOperands.hashes])

/-- The generic transition is used neither to commit a cutover, nor to declare
one ready that carries no verification. -/
def KeepsCutover (job : LifecycleJobState) : LifecycleMove → Prop
  | .transition _ toState _ => toState ≠ .cutoverCommitted ∧
      (toState = .cutoverReady → CutoverVerified job.toLifecycleJob)
  | _ => True

theorem next_verified (hkind : job.jobKind = .move)
    (h : job.state.pastCutover → CutoverVerified job.toLifecycleJob) (keeps : KeepsCutover job m)
    (hnext : job.next m = some job') :
    job'.jobKind = .move ∧ (job'.state.pastCutover → CutoverVerified job'.toLifecycleJob) := by
  cases m with
  | transition expectedFrom toState proof =>
    obtain ⟨hfrom, -, hcompleted, proof', rfl⟩ := transition_cases hnext
    refine ⟨hkind, ?_⟩
    rintro (hready | hcommitted | hdone)
    · exact (keeps.2 hready).enter
    · exact absurd hcommitted keeps.1
    · exact (h (.inr (.inl (hfrom.trans (hcompleted hkind hdone))))).enter
  | prepareMove move =>
    obtain ⟨-, hnext⟩ := Option.ite_none_left_eq_some.mp hnext
    obtain ⟨verified, heq⟩ := Option.dite_none_right_eq_some.mp hnext
    rw [← Option.some.inj heq]
    exact ⟨hkind, fun _ => .prepared verified⟩
  | commitMove decisionRef =>
    obtain ⟨hready, hnext⟩ := Option.ite_none_left_eq_some.mp hnext
    rw [← Option.some.inj hnext]
    rw [not_or, not_not] at hready
    exact ⟨hkind, fun _ => (h (.inl hready.1)).enter⟩

/-- A cutover is committed by the decision that is recorded. -/
theorem next_committed (keeps : KeepsCutover job m) (hnext : job.next m = some job')
    (hcommitted : job'.state = .cutoverCommitted) :
    ∃ decisionRef, m = .commitMove decisionRef ∧ job.cutoverDecisionRef = some decisionRef := by
  cases m with
  | transition expectedFrom toState proof =>
    obtain ⟨-, -, -, proof', rfl⟩ := transition_cases hnext
    exact absurd hcommitted keeps.1
  | prepareMove move =>
    obtain ⟨-, hnext⟩ := Option.ite_none_left_eq_some.mp hnext
    obtain ⟨verified, heq⟩ := Option.dite_none_right_eq_some.mp hnext
    rw [← Option.some.inj heq] at hcommitted
    cases hcommitted
  | commitMove decisionRef =>
    obtain ⟨hready, -⟩ := Option.ite_none_left_eq_some.mp hnext
    rw [not_or, not_not, not_not] at hready
    exact ⟨decisionRef, rfl, hready.2⟩

/-- What holds of a move and of every step from it. -/
def CutoverSafe (steps : Machine LifecycleJobState LifecycleMove) (job : LifecycleJobState) : Prop :=
  (job.state.pastCutover → CutoverVerified job.toLifecycleJob) ∧
    ∀ m job', steps.step job m job' → job'.state = .cutoverCommitted →
      ∃ decisionRef, m = .commitMove decisionRef ∧ job.cutoverDecisionRef = some decisionRef

theorem move_cutover_verified (h : ((lifecycle .move).guarded KeepsCutover).Reach job) :
    CutoverSafe ((lifecycle .move).guarded KeepsCutover) job := by
  have hinvariant : job.jobKind = .move ∧
      (job.state.pastCutover → CutoverVerified job.toLifecycleJob) := by
    refine h.invariant ?_ (fun _ _ _ _ hs step => next_verified hs.1 hs.2 step.1 step.2)
    rintro job ⟨hkind, hpending⟩
    refine ⟨hkind, ?_⟩
    rw [hpending]
    rintro (hstate | hstate | hstate) <;> cases hstate
  exact ⟨hinvariant.2, fun m job' step => next_committed step.1 step.2⟩

section Example

instance (job : LifecycleJob) : Decidable (CutoverVerified job) :=
  decidable_of_iff
    (job.destinationCellId.any (fun cell => cell != "" && cell != job.sourceCellId) = true ∧
      job.proposedPlacementEpoch.any (fun epoch => decide (job.expectedPlacementEpoch < epoch)) =
        true ∧
      job.cutoverDecisionRef.any (beginsWith "ref_") = true ∧
      job.sourceHighWater.any (fun mark => decide (0 ≤ mark)) = true ∧
      job.quiesceReceiptHash.any typedHash = true ∧ job.exportManifestHash.any typedHash = true ∧
      job.destinationVerificationHash.any typedHash = true ∧
      job.isolationVerificationHash.any typedHash = true)
    ⟨fun ⟨a, b, c, d, e, f, g, i⟩ => ⟨a, b, c, d, e, f, g, i⟩,
      fun ⟨a, b, c, d, e, f, g, i⟩ => ⟨a, b, c, d, e, f, g, i⟩⟩

instance (job : LifecycleJobState) (m : LifecycleMove) : Decidable (KeepsCutover job m) :=
  match m with
  | .transition _ toState _ => inferInstanceAs (Decidable (toState ≠ .cutoverCommitted ∧
      (toState = .cutoverReady → CutoverVerified job.toLifecycleJob)))
  | .prepareMove _ | .commitMove _ => isTrue trivial

def moving : LifecycleJobState where
  organizationId := "org-a"
  jobId := "job_move_1"
  jobKind := .move
  expectedPlacementEpoch := 7
  sourceCellId := "cell-a"
  state := .pending
  destinationCellId := none
  proposedPlacementEpoch := none
  requestHash := ""
  quiesceReceiptHash := none
  sourceHighWater := none
  exportManifestHash := none
  destinationVerificationHash := none
  isolationVerificationHash := none
  cutoverDecisionRef := none
  completionProofHash := none
  legalHoldRef := none
  unsettledMutationCount := 0
  valid := ⟨by decide, by decide, by decide, .inl rfl, by simp, by decide⟩

def verifiedMove : MoveOperands :=
  ⟨"cell-b", 8, "sha256:1", 42, "sha256:2", "sha256:3", "sha256:4", "ref_cutover_1"⟩

theorem move_cutover_verified_committed : ∃ job,
    ((lifecycle .move).guarded KeepsCutover).Reach job ∧ job.state = .cutoverCommitted ∧
      CutoverSafe ((lifecycle .move).guarded KeepsCutover) job := by
  obtain ⟨job, path, hjob⟩ := (Machine.exists_path (by decide +kernel) :
    ∃ job, (Machine.ofFn (fun job => job.jobKind = .move ∧ job.state = .pending)
      (Machine.guardFn KeepsCutover LifecycleJobState.next)).Path moving
        [.transition .pending .quiescing none, .transition .quiescing .verifying none,
          .prepareMove verifiedMove, .commitMove "ref_cutover_1"] job ∧
        decide (job.state = .cutoverCommitted) = true)
  have hguarded : ((lifecycle .move).guarded KeepsCutover).Reach job :=
    (path.reach (.start ⟨rfl, rfl⟩)).of_guardFn
  exact ⟨job, hguarded, of_decide_eq_true hjob, move_cutover_verified hguarded⟩

/-- The transition table leads past both operations that check a cutover. -/
theorem move_cutover_unverified :
    ¬∀ job, (lifecycle .move).Reach job → CutoverSafe (lifecycle .move) job := by
  intro hall
  obtain ⟨job, path, hjob⟩ := (Machine.exists_path (by decide +kernel) :
    ∃ job, (lifecycle .move).Path moving
      [.transition .pending .quiescing none, .transition .quiescing .verifying none,
        .transition .verifying .cutoverReady none,
        .transition .cutoverReady .cutoverCommitted none] job ∧
      decide (job.state = .cutoverCommitted ∧ job.destinationCellId = none) = true)
  obtain ⟨hcommitted, hnone⟩ := of_decide_eq_true hjob
  have hcarried := ((hall job (path.reach (.start ⟨rfl, rfl⟩))).1 (.inr (.inl hcommitted))).destination
  rw [hnone] at hcarried
  cases hcarried

end Example

end Solvan.Scale
