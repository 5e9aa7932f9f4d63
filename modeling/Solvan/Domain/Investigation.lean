import Mathlib.Data.Finset.Basic
import Mathlib.Data.String.Basic
import Solvan.Base.Kahn
import Solvan.Base.Keyed
import Solvan.Base.Lines

/-! The plan of an investigation: what a proposal has to keep to, and the order its
steps are accepted in. -/
namespace Solvan.Planning

open Solvan.Base

inductive InvestigationStepKind where
  | invokeAgent | coordinatorCheck
deriving DecidableEq, Repr

/-- `not text.strip()` -/
def blank (text : String) : Bool := (strip text.toList).isEmpty

structure StepBudget where
  deadlineMs : Int
  maxToolCalls : Int
  maxOutputBytes : Int
  maxModelCalls : Int := 1
  maxReplans : Int := 0
  deadline : 1 ≤ deadlineMs
  toolCalls : 0 ≤ maxToolCalls
  outputBytes : 1 ≤ maxOutputBytes
  modelCalls : 0 ≤ maxModelCalls
  replans : 0 ≤ maxReplans
deriving DecidableEq

structure AgentLimit where
  agentResource : String
  agentRevision : String
  maximum : StepBudget
  allowedScopeRefs : Finset String
  allowedToolNames : List String
  named : blank agentResource = false ∧ blank agentRevision = false
  scopes : allowedScopeRefs.Nonempty
  tools : allowedToolNames.Nodup ∧ ∀ tool ∈ allowedToolNames, blank tool = false

structure ProposedStep where
  stepKey : String
  kind : InvestigationStepKind
  agentKey : Option String
  scopeRef : String
  purpose : String
  required : Bool
  dependsOn : List String
  budget : StepBudget
  fallbackRef : Option String := none
deriving DecidableEq

structure InvestigationPlanProposal where
  objective : String
  completionCondition : String
  uncertainties : List String
  steps : List ProposedStep

structure PlanValidationPolicy where
  agentLimits : String → Option AgentLimit
  allowedScopeRefs : Finset String
  maximumSteps : Int
  requiredAgentKeys : Finset String := ∅

structure AcceptedStep where
  ordinal : Nat
  proposal : ProposedStep
  agentResource : Option String
  agentRevision : Option String
  allowedToolNames : List String
deriving DecidableEq

structure AcceptedInvestigationPlan where
  objective : String
  completionCondition : String
  uncertainties : List String
  steps : List AcceptedStep

def lowercase (c : Char) : Bool := decide ('a' ≤ c) && decide (c ≤ 'z')

/-- `^[a-z][a-z0-9-]{0,62}$`, all of the key -/
def stepKeyMatches (key : String) : Bool :=
  match key.toList with
  | [] => false
  | c :: rest =>
    lowercase c && decide (rest.length ≤ 62) &&
      rest.all (fun c => lowercase c || (decide ('0' ≤ c) && decide (c ≤ '9')) || c == '-')

/-- No part of a budget is above that of another. -/
def StepBudget.within (budget maximum : StepBudget) : Bool :=
  decide (budget.deadlineMs ≤ maximum.deadlineMs) && decide (budget.maxToolCalls ≤ maximum.maxToolCalls) &&
    decide (budget.maxOutputBytes ≤ maximum.maxOutputBytes) &&
    decide (budget.maxModelCalls ≤ maximum.maxModelCalls) && decide (budget.maxReplans ≤ maximum.maxReplans)

/-- `_validate_agent_and_budget` -/
def validateAgentAndBudget (step : ProposedStep) (policy : PlanValidationPolicy) : Except String Unit :=
  match step.kind with
  | .coordinatorCheck =>
    if step.agentKey ≠ none ∨ step.budget.maxToolCalls ≠ 0 ∨ step.budget.maxModelCalls ≠ 0 ∨
        step.budget.maxReplans ≠ 0 then
      .error ("coordinator check " ++ step.stepKey ++ " cannot invoke an agent or tool")
    else .ok ()
  | .invokeAgent =>
    match step.agentKey.bind policy.agentLimits with
    | none => .error ("unknown agent for " ++ step.stepKey)
    | some agent =>
      if step.scopeRef ∉ agent.allowedScopeRefs then
        .error ("agent scope widening rejected for " ++ step.stepKey)
      else if !step.budget.within agent.maximum then
        .error ("agent budget exceeds policy for " ++ step.stepKey)
      else .ok ()

/-- What is checked of a step, with the keys of the steps before it. -/
def validateStep (policy : PlanValidationPolicy) (seen : List String) (step : ProposedStep) :
    Except String Unit :=
  if !stepKeyMatches step.stepKey then .error ("invalid step key " ++ step.stepKey)
  else if step.stepKey ∈ seen then .error ("duplicate step key " ++ step.stepKey)
  else if step.scopeRef ∉ policy.allowedScopeRefs then
    .error ("scope widening rejected for " ++ step.stepKey)
  else if blank step.purpose then .error ("step purpose is required for " ++ step.stepKey)
  else if ¬step.dependsOn.Nodup then .error ("duplicate dependency in " ++ step.stepKey)
  else validateAgentAndBudget step policy

def validateSteps (policy : PlanValidationPolicy) : List String → List ProposedStep → Except String Unit
  | _, [] => .ok ()
  | seen, step :: steps =>
    match validateStep policy seen step with
    | .error text => .error text
    | .ok () => validateSteps policy (seen ++ [step.stepKey]) steps

def InvestigationPlanProposal.keys (proposal : InvestigationPlanProposal) : List String :=
  proposal.steps.map ProposedStep.stepKey

/-- `by_key` -/
def InvestigationPlanProposal.byKey (proposal : InvestigationPlanProposal) (key : String) :
    Option ProposedStep := Keyed.get ProposedStep.stepKey proposal.steps key

/-- The agents that steps invoke. -/
def InvestigationPlanProposal.selectedAgents (proposal : InvestigationPlanProposal) : Finset String :=
  (proposal.steps.filterMap (fun step =>
    if step.kind = .invokeAgent then step.agentKey else none)).toFinset

section

-- How `f"{sorted(names)}"` writes a set of names.
variable (sortedText : Finset String → String)

/-- The checks of the dependencies, step by step. -/
def validateDependencies (keys : List String) : List ProposedStep → Except String Unit
  | [] => .ok ()
  | step :: steps =>
    let unknown := step.dependsOn.toFinset \ keys.toFinset
    if unknown.Nonempty then
      .error ("unknown dependencies for " ++ step.stepKey ++ ": " ++ sortedText unknown)
    else if step.stepKey ∈ step.dependsOn then
      .error ("step " ++ step.stepKey ++ " depends on itself")
    else validateDependencies keys steps

/-- Everything `validate_investigation_plan` checks before it puts the steps in order. -/
def validateFields (proposal : InvestigationPlanProposal) (policy : PlanValidationPolicy) :
    Except String Unit :=
  if blank proposal.objective || blank proposal.completionCondition then
    .error "plan objective and completion condition are required"
  else if proposal.steps = [] ∨ policy.maximumSteps < proposal.steps.length then
    .error "plan step count exceeds policy"
  else
    match validateSteps policy [] proposal.steps with
    | .error text => .error text
    | .ok () =>
      let unknownRequired := policy.requiredAgentKeys.filter (fun key => (policy.agentLimits key).isNone)
      let missingRequired := policy.requiredAgentKeys \ proposal.selectedAgents
      if unknownRequired.Nonempty then
        .error ("plan policy requires unregistered agents: " ++ sortedText unknownRequired)
      else if missingRequired.Nonempty then
        .error ("plan omits required agents: " ++ sortedText missingRequired)
      else validateDependencies sortedText proposal.keys proposal.steps

/-- `len(step.depends_on)` counts these. -/
def InvestigationPlanProposal.dependsOn (proposal : InvestigationPlanProposal) (key : String) : List String :=
  ((proposal.byKey key).map ProposedStep.dependsOn).getD []

/-- `dependents` -/
def InvestigationPlanProposal.dependents (proposal : InvestigationPlanProposal) (key : String) :
    List String :=
  proposal.steps.flatMap (fun step =>
    (step.dependsOn.filter (fun dependency => dependency == key)).map (fun _ => step.stepKey))

/-- `ordered`: the loop over the heap. A step is popped once at most, so it needs no more
turns than there are steps. -/
def InvestigationPlanProposal.ordered (proposal : InvestigationPlanProposal) : Option (List String) :=
  (Kahn.State.start proposal.keys proposal.dependsOn).loop proposal.dependents proposal.steps.length

/-- `_accepted_step` -/
def acceptedStep (ordinal : Nat) (step : ProposedStep) (policy : PlanValidationPolicy) : AcceptedStep :=
  match step.agentKey.bind policy.agentLimits with
  | none => ⟨ordinal, step, none, none, []⟩
  | some agent => ⟨ordinal, step, some agent.agentResource, some agent.agentRevision, agent.allowedToolNames⟩

/-- The steps of the keys, numbered. -/
def acceptedSteps (proposal : InvestigationPlanProposal) (policy : PlanValidationPolicy)
    (ordered : List String) : List AcceptedStep :=
  ordered.zipIdx.filterMap (fun entry =>
    (proposal.byKey entry.1).map (fun step => acceptedStep entry.2 step policy))

def cycleText : String := "investigation plan contains a dependency cycle"

/-- `validate_investigation_plan`, or the text of the error it raises. -/
def validateInvestigationPlan (proposal : InvestigationPlanProposal) (policy : PlanValidationPolicy) :
    Except String AcceptedInvestigationPlan :=
  match validateFields sortedText proposal policy with
  | .error text => .error text
  | .ok () =>
    let ordered := proposal.ordered.getD []
    if ordered.length ≠ proposal.steps.length then .error cycleText
    else
      .ok ⟨proposal.objective, proposal.completionCondition, proposal.uncertainties,
        acceptedSteps proposal policy ordered⟩

end

end Solvan.Planning
