import Solvan.Workflow.Leases

/-! The incident machine of `incident-transitions.yaml`. -/
namespace Solvan.Workflow

inductive IncidentEvent where
  | triageStarted | falsePositiveConfirmed | operatorCancelled | investigationStarted
  | failureExhausted | diagnosisStarted | liaisonSteerAccepted | mitigationSelected
  | authorityExhausted | approvalRequired | preauthorized | actionBudgetExhausted
  | approvalGranted | approvalDenied | approvalInvalidated | mutationReconciled
  | mutationFailedRetryable | mutationAmbiguous | verificationPassed
  | verificationFailedRetryable | verificationExhausted | closureCriteriaPassed
  | caseTerminatedWithoutRepair
deriving DecidableEq, Repr

def IncidentEvent.name : IncidentEvent → String
  | .triageStarted => "TRIAGE_STARTED"
  | .falsePositiveConfirmed => "FALSE_POSITIVE_CONFIRMED"
  | .operatorCancelled => "OPERATOR_CANCELLED"
  | .investigationStarted => "INVESTIGATION_STARTED"
  | .failureExhausted => "FAILURE_EXHAUSTED"
  | .diagnosisStarted => "DIAGNOSIS_STARTED"
  | .liaisonSteerAccepted => "LIAISON_STEER_ACCEPTED"
  | .mitigationSelected => "MITIGATION_SELECTED"
  | .authorityExhausted => "AUTHORITY_EXHAUSTED"
  | .approvalRequired => "APPROVAL_REQUIRED"
  | .preauthorized => "PREAUTHORIZED"
  | .actionBudgetExhausted => "ACTION_BUDGET_EXHAUSTED"
  | .approvalGranted => "APPROVAL_GRANTED"
  | .approvalDenied => "APPROVAL_DENIED"
  | .approvalInvalidated => "APPROVAL_INVALIDATED"
  | .mutationReconciled => "MUTATION_RECONCILED"
  | .mutationFailedRetryable => "MUTATION_FAILED_RETRYABLE"
  | .mutationAmbiguous => "MUTATION_AMBIGUOUS"
  | .verificationPassed => "VERIFICATION_PASSED"
  | .verificationFailedRetryable => "VERIFICATION_FAILED_RETRYABLE"
  | .verificationExhausted => "VERIFICATION_EXHAUSTED"
  | .closureCriteriaPassed => "CLOSURE_CRITERIA_PASSED"
  | .caseTerminatedWithoutRepair => "CASE_TERMINATED_WITHOUT_REPAIR"

inductive IncidentGuard where
  | always
  | detectorFalsePositiveRulePassed
  | operatorOrAdminAndNoConnectorRequestInFlight
  | retryOrTimeBudgetExhausted
  | liveOperatorConfirmedBoundedReadOnlySteer
  | confirmedOrPolicySupportedHypothesis
  | noAllowlistedActionExists
  | validActionAndPolicyRequiresApproval
  | exactStandingPreauthorizationMatches
  | actionBudgetOrOscillationLimitReached
  | exactUnexpiredApprovalAndTargetUnchanged
  | actionBudgetRemaining
  | conclusiveExecutionReceipt
  | actionBudgetRemainingAndNoEffect
  | ambiguousExecutionReceipt
  | exactBoundProfilePassed
  | actionBudgetRemainingAndCooldownSatisfied
  | retryOrActionBudgetExhausted
  | noPermanentRepairRequiredOrLinkedCaseClosedVerified
  | linkedCaseCancelledAndResidualRiskRequiresOwner
deriving DecidableEq, Repr

structure IncidentEdge where
  source : IncidentState
  event : IncidentEvent
  target : IncidentState
  guard : IncidentGuard
deriving DecidableEq, Repr

def incidentTransitions : List IncidentEdge :=
  [⟨.detected, .triageStarted, .triaging, .always⟩,
    ⟨.detected, .falsePositiveConfirmed, .falsePositive, .detectorFalsePositiveRulePassed⟩,
    ⟨.detected, .operatorCancelled, .cancelled, .operatorOrAdminAndNoConnectorRequestInFlight⟩,
    ⟨.triaging, .investigationStarted, .investigating, .always⟩,
    ⟨.triaging, .falsePositiveConfirmed, .falsePositive, .detectorFalsePositiveRulePassed⟩,
    ⟨.triaging, .failureExhausted, .escalated, .retryOrTimeBudgetExhausted⟩,
    ⟨.triaging, .operatorCancelled, .cancelled, .operatorOrAdminAndNoConnectorRequestInFlight⟩,
    ⟨.investigating, .diagnosisStarted, .diagnosing, .always⟩,
    ⟨.investigating, .liaisonSteerAccepted, .investigating,
      .liveOperatorConfirmedBoundedReadOnlySteer⟩,
    ⟨.investigating, .failureExhausted, .escalated, .retryOrTimeBudgetExhausted⟩,
    ⟨.investigating, .operatorCancelled, .cancelled, .operatorOrAdminAndNoConnectorRequestInFlight⟩,
    ⟨.diagnosing, .mitigationSelected, .mitigationProposed, .confirmedOrPolicySupportedHypothesis⟩,
    ⟨.diagnosing, .authorityExhausted, .unresolvable, .noAllowlistedActionExists⟩,
    ⟨.diagnosing, .failureExhausted, .escalated, .retryOrTimeBudgetExhausted⟩,
    ⟨.diagnosing, .operatorCancelled, .cancelled, .operatorOrAdminAndNoConnectorRequestInFlight⟩,
    ⟨.mitigationProposed, .approvalRequired, .awaitingApproval,
      .validActionAndPolicyRequiresApproval⟩,
    ⟨.mitigationProposed, .preauthorized, .mitigating, .exactStandingPreauthorizationMatches⟩,
    ⟨.mitigationProposed, .actionBudgetExhausted, .escalated,
      .actionBudgetOrOscillationLimitReached⟩,
    ⟨.mitigationProposed, .operatorCancelled, .cancelled,
      .operatorOrAdminAndNoConnectorRequestInFlight⟩,
    ⟨.awaitingApproval, .approvalGranted, .mitigating, .exactUnexpiredApprovalAndTargetUnchanged⟩,
    ⟨.awaitingApproval, .approvalDenied, .mitigationProposed, .actionBudgetRemaining⟩,
    ⟨.awaitingApproval, .approvalInvalidated, .mitigationProposed, .actionBudgetRemaining⟩,
    ⟨.awaitingApproval, .actionBudgetExhausted, .escalated, .actionBudgetOrOscillationLimitReached⟩,
    ⟨.awaitingApproval, .operatorCancelled, .cancelled,
      .operatorOrAdminAndNoConnectorRequestInFlight⟩,
    ⟨.mitigating, .mutationReconciled, .verifyingMitigation, .conclusiveExecutionReceipt⟩,
    ⟨.mitigating, .mutationFailedRetryable, .mitigationProposed, .actionBudgetRemainingAndNoEffect⟩,
    ⟨.mitigating, .mutationAmbiguous, .escalated, .ambiguousExecutionReceipt⟩,
    ⟨.verifyingMitigation, .verificationPassed, .mitigated, .exactBoundProfilePassed⟩,
    ⟨.verifyingMitigation, .verificationFailedRetryable, .mitigationProposed,
      .actionBudgetRemainingAndCooldownSatisfied⟩,
    ⟨.verifyingMitigation, .verificationExhausted, .escalated, .retryOrActionBudgetExhausted⟩,
    ⟨.verifyingMitigation, .operatorCancelled, .cancelled,
      .operatorOrAdminAndNoConnectorRequestInFlight⟩,
    ⟨.mitigated, .closureCriteriaPassed, .resolved,
      .noPermanentRepairRequiredOrLinkedCaseClosedVerified⟩,
    ⟨.mitigated, .caseTerminatedWithoutRepair, .escalated,
      .linkedCaseCancelledAndResidualRiskRequiresOwner⟩]

end Solvan.Workflow
