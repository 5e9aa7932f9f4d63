import Solvan.Domain.Actions

namespace Solvan.Domain

inductive ApprovalDecision where
  | approve | reject | revoke
deriving DecidableEq, Repr

structure ApprovalRecord where
  actionId : String
  actionDigest : String
  targetKey : String
  expectedTargetVersion : String
  expectedTargetEpoch : Int
  evidenceVersion : Int
  policyVersion : String
  approverPrincipal : String
  decision : ApprovalDecision
  decidedAt : Datetime
  expiresAt : Datetime
  aware : decidedAt.aware = true ∧ expiresAt.aware = true
  later : decidedAt.instant < expiresAt.instant

structure ExecutionAuthoritySnapshot where
  now : Datetime
  workflowVersion : Int
  evidenceVersion : Int
  targetVersion : String
  targetEpoch : Int
  reservationExpectedTargetEpoch : Int
  reservationEpoch : Int
  policyVersion : String
  approverRoleActive : Bool
  reservationActionId : String
  aware : now.aware = true

def validateExecutionAuthority (material : ActionMaterial) (execution : ExecutionAuthoritySnapshot) :
    Except Raised Unit :=
  firstFailure .actionPolicyError
    [(decide (execution.now.instant < material.expiresAt.instant), "action_expired"),
      (execution.workflowVersion == material.workflowVersion, "workflow_version_stale"),
      (execution.evidenceVersion == material.evidenceVersion, "evidence_version_stale"),
      (execution.targetVersion == material.expectedTargetVersion, "target_version_changed"),
      (execution.reservationExpectedTargetEpoch == material.expectedTargetEpoch,
        "reservation_expected_epoch_changed"),
      (execution.reservationEpoch == material.expectedTargetEpoch + 1, "reservation_epoch_changed"),
      (execution.targetEpoch == execution.reservationEpoch, "target_epoch_changed"),
      (execution.policyVersion == material.policyVersion, "policy_version_changed"),
      (execution.reservationActionId == material.actionId, "reservation_not_owned")]

/-- `validate_exact_approval`. The digest is computed before the first check is made. -/
def validateExactApproval (sha256 : ByteArray → String) (material : ActionMaterial)
    (approval : ApprovalRecord) (execution : ExecutionAuthoritySnapshot) : Except Raised Unit := do
  let approvalDigest ← material.approvalDigest sha256
  firstFailure .actionPolicyError
    [(approval.decision == .approve, "approval_not_active"),
      (approval.actionId == material.actionId, "approval_action_mismatch"),
      (approval.actionDigest == approvalDigest, "approval_digest_mismatch"),
      (approval.targetKey == material.targetKey, "approval_target_mismatch"),
      (approval.expectedTargetVersion == material.expectedTargetVersion,
        "approval_target_version_mismatch"),
      (approval.expectedTargetEpoch == material.expectedTargetEpoch,
        "approval_target_epoch_mismatch"),
      (approval.evidenceVersion == material.evidenceVersion, "approval_evidence_stale"),
      (approval.policyVersion == material.policyVersion, "approval_policy_stale"),
      (decide (execution.now.instant < approval.expiresAt.instant), "approval_expired"),
      (execution.approverRoleActive, "approver_role_revoked")]
  validateExecutionAuthority material execution

theorem ok_bind {ε α β : Type} {x : Except ε α} {a : α} (h : x = .ok a) (f : α → Except ε β) :
    (x >>= f) = f a := by
  rw [h]
  rfl

theorem ok_of_bind {ε α β : Type} {x : Except ε α} {f : α → Except ε β} {b : β}
    (h : (x >>= f) = .ok b) : ∃ a, x = .ok a ∧ f a = .ok b := by
  cases x with
  | error e => cases h
  | ok a => exact ⟨a, rfl, h⟩

/-- Checks pass exactly when each of them does. -/
theorem firstFailure_ok {raised : String → Raised} {checks : List (Bool × String)} :
    firstFailure raised checks = .ok () ↔ ∀ check ∈ checks, check.1 = true := by
  induction checks with
  | nil => simp [firstFailure]
  | cons check checks ih =>
    obtain ⟨valid, reason⟩ := check
    cases valid with
    | true => simpa [firstFailure] using ih
    | false => simp [firstFailure]

end Solvan.Domain
