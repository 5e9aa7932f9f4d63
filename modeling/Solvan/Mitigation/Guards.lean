import Solvan.Mitigation.Planner

namespace Solvan.Mitigation
open Domain (RiskClass)
open Workflow

def riskRank : RiskClass → Nat
  | .low => 0
  | .medium => 1
  | .high => 2
  | .critical => 3

/-- A live standing authority that an action of an incident matches exactly. -/
structure StandingMatch (now : Int) (incident : IncidentRow) (action : ActionRow)
    (authority : StandingPreauthorizationRow) : Prop where
  named : action.standingPreauthorization = some (authority.id, authority.version)
  approved : authority.status = .approved
  actionType : action.actionType = authority.actionType
  risk : riskRank action.riskClass ≤ riskRank authority.maximumRiskClass
  service : incident.primaryServiceId = authority.serviceId
  incidentClass : incident.incidentClass = authority.incidentClass
  payload : .obj action.payload = authority.payloadConstraints
  attempts : incident.actionAttemptCount < authority.maximumAttempts
  cooldown : cooldownActive now incident = false
  live : authority.validFrom ≤ now ∧ now < authority.validUntil

/-- A confirmed cause, by an approved rule whose every observation is on record. -/
structure ConfirmedCause (db : Database) (incident : IncidentRow) (h : HypothesisRow) : Prop where
  owned : h.incidentId = incident.id
  linked : incident.confirmedRootCauseId = some h.id
  confirmed : h.status = .confirmed
  supported : ∃ rule ∈ db.confirmationRules, rule.id = h.confirmationRuleId ∧
    rule.version = h.confirmationRuleVersion ∧ rule.status = .approved ∧
    rule.incidentClass = incident.incidentClass ∧
    ∃ spec, parseConfirmationSpec rule.requiredObservations = .ok spec ∧
      matchingEvidence db incident.id spec.allRequired = some h.supportingEvidenceRefs

variable (sha256 : ByteArray → String)

/-- An action whose effect follows from its payload, that has not expired, and
that policy wants approved. -/
structure ApprovableAction (db : Database) (incident : IncidentRow) (action : ActionRow) : Prop where
  owned : action.incidentId = incident.id
  waiting : action.status = .awaitingApproval ∧ action.requiresApproval = true
  effect : expectedEffectOf sha256 action.actionType action.targetKey action.expectedTargetVersion
    action.payload = .ok action.expectedEffect
  unexpired : db.now < action.expiresAt
  policy : ∃ decision ∈ db.policyDecisions, decision.id = action.policyDecisionId ∧
    decision.decision = .requireApproval

/-- What a guard asks of the state a transition is committed from. The guards
of edges no planner takes are never met. -/
def GuardHolds (c : Commit) (incident : IncidentRow) : IncidentGuard → Prop
  | .always => True
  | .confirmedOrPolicySupportedHypothesis =>
    ∃ h ∈ c.before.hypotheses, ConfirmedCause c.before incident h
  | .exactStandingPreauthorizationMatches =>
    ∃ action ∈ c.before.actions, c.write.transitionKey = "PREAUTHORIZED:" ++ action.id ∧
      action.incidentId = incident.id ∧
      ∃ authority ∈ c.before.standingPreauthorizations,
        StandingMatch c.before.now incident action authority
  | .validActionAndPolicyRequiresApproval =>
    ∃ action ∈ c.before.actions, c.write.transitionKey = "APPROVAL_REQUIRED:" ++ action.id ∧
      ApprovableAction sha256 c.before incident action
  | .actionBudgetRemainingAndCooldownSatisfied =>
    incident.actionAttemptCount < incident.actionBudget ∧
      cooldownActive c.before.now incident = false
  | _ => False

/-- A committed transition is an edge of the incident machine whose guard holds
where it was committed. -/
def Commit.Conforms (c : Commit) : Prop :=
  ∃ incident ∈ c.before.incidents, incident.id = c.lease.entityId ∧
    incident.state = c.write.fromState ∧
    ∃ edge ∈ incidentTransitions, edge.source = c.write.fromState ∧
      edge.target = c.write.toState ∧
      (∃ subject, c.write.transitionKey = edge.event.name ++ ":" ++ subject) ∧
      GuardHolds sha256 c incident edge.guard

/-- The version an action is bound to is the one its incident has when it may
execute: at once, or once its approval is granted. -/
def FoundAtExecution (db : Database) (action : ActionRow) : Prop :=
  ∃ incident ∈ db.incidents, incident.id = action.incidentId ∧
    ((incident.state = .mitigating ∧ incident.workflowVersion = action.workflowVersion) ∨
      (incident.state = .awaitingApproval ∧
        ∀ later lease write granted version,
          (∃ i ∈ later.db.incidents, i.id = incident.id ∧
            i.workflowVersion = incident.workflowVersion) →
          lease.entityId = incident.id → write.fromState = .awaitingApproval →
          write.toState = .mitigating →
          commitTransition later lease write = .ok (granted, version) →
          version = action.workflowVersion))

/-- What a plan's outcome owes to the incident machine. A plan that raises
leaves its transaction to be rolled back. -/
def Refines {α : Type} (actionId : α → Option String)
    (outcome : Except PersistenceError (Session × α)) : Prop :=
  ∀ s result, outcome = .ok (s, result) →
    (∀ c ∈ s.commits, c.Conforms sha256) ∧
    ∀ id, actionId result = some id →
      ∃ action ∈ s.db.actions, action.id = id ∧ FoundAtExecution s.db action

end Solvan.Mitigation
