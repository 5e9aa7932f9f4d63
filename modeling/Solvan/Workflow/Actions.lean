import Solvan.Domain.Actions
import Solvan.Workflow.Leases

namespace Solvan.Workflow
open Domain (ActionType RiskClass Mapping ExpectedEffect)

inductive ActionStatus where
  | proposed | awaitingApproval | authorized | executing | reconciling | succeeded | failed
  | ambiguous | dryRunMismatch | invalidated | cancelled
deriving DecidableEq, Repr

/-- A row of `actions`. -/
structure ActionRow where
  id : String
  displayId : String
  incidentId : String
  workflowVersion : Nat
  evidenceVersion : Nat
  actionType : ActionType
  normalizedSignature : String
  targetKey : String
  expectedTargetVersion : String
  expectedTargetEpoch : Nat
  payload : Mapping
  payloadDigest : String
  expectedEffect : ExpectedEffect
  riskClass : RiskClass
  reversible : Bool
  rollbackPlan : Mapping
  verificationProfileId : String
  verificationProfileVersion : Nat
  policyDecisionId : String
  proposerPrincipal : String
  standingPreauthorization : Option (String × Nat)
  requiresApproval : Bool
  status : ActionStatus
  idempotencyKey : String
  expiresAt : Int

end Solvan.Workflow
