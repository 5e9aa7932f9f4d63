import Solvan.Liaison.Turn

/-! The composer with a planner: a model selects among the enumerated questions, and code drafts the answer. -/
namespace Solvan.Liaison.Turn
open Solvan.Base

inductive QuestionId where
  | isItFixed | whatHappened | whatWasTheImpact | whatNeedsMe | wasDataLost | isAnythingElseAffected
  | whatIsTheEvidence | wasTheChangeApplied | whereAreWe | isItClosed
deriving DecidableEq, Repr

def QuestionId.question : QuestionId → Question
  | .isItFixed => Turn.isItFixed
  | .whatHappened => Turn.whatHappened
  | .whatWasTheImpact => Turn.whatWasTheImpact
  | .whatNeedsMe => Turn.whatNeedsMe
  | .wasDataLost => Turn.wasDataLost
  | .isAnythingElseAffected => Turn.isAnythingElseAffected
  | .whatIsTheEvidence => Turn.whatIsTheEvidence
  | .wasTheChangeApplied => Turn.wasTheChangeApplied
  | .whereAreWe => Turn.whereAreWe
  | .isItClosed => Turn.isItClosed

def QuestionId.text (id : QuestionId) : String := id.question.id

/-- `ClassifiedIntent` -/
inductive ClassifiedIntent where
  | ledgerQuery | social | help | outOfScope
deriving DecidableEq, Repr

def ClassifiedIntent.text : ClassifiedIntent → String
  | .ledgerQuery => "LEDGER_QUERY"
  | .social => "SOCIAL"
  | .help => "HELP"
  | .outOfScope => "OUT_OF_SCOPE"

/-- A plan with what its model checks: three questions at most, and exactly one outcome. -/
structure LiaisonQuestionPlan where
  questionIds : List QuestionId
  parkedRequest : Option Record
  conversationIntent : ClassifiedIntent
  short : questionIds.length ≤ 3
  exactlyOneOutcome :
    if conversationIntent ≠ .ledgerQuery then questionIds = [] ∧ parkedRequest = none
    else questionIds ≠ [] ↔ parkedRequest = none

/-- What comes of asking the planner: a screening block, any other failure, or a plan with the tokens it
cost and the park tools it called. An error of the grant ends the program. -/
inductive Planned where
  | blocked
  | failed
  | plan (plan : LiaisonQuestionPlan) (tokens parkToolCalls : Nat)

abbrev QuestionPlanner := String → Anchor → Option String → DraftProgram Planned

/-- What the loop over the planned questions carries along. -/
structure Merged where
  drafts : List Draft
  suggestions : List String
  escalation : Option Escalation

/-- One answer more. -/
def Merged.add (merged : Merged) (selected : Composition) : Merged where
  drafts := merged.drafts ++ selected.drafts
  suggestions := merged.suggestions ++ selected.suggested
  escalation := merged.escalation.or selected.escalation

/-- The loop over the planned questions. -/
def mergeQuestions (fallback : Composer) (anchor : Anchor) : List QuestionId → Merged → DraftProgram Merged
  | [], merged => pure merged
  | id :: rest, merged => do
    let selected ← fallback (questionPrompt id.text) anchor none
    mergeQuestions fallback anchor rest (merged.add selected)

/-- What is delivered for the planned questions. -/
def Merged.composition (merged : Merged) (tokens parkToolCalls : Nat) : Composition :=
  { drafts := merged.drafts
    escalation := merged.escalation
    suggested := merged.suggestions.eraseDups
    modelCalls := 1
    toolCalls := parkToolCalls
    tokens := tokens }

/-- The composition after a failure of the planner. -/
def Composition.degraded (fallback : Composition) : Composition :=
  { drafts := fallback.drafts
    escalation := fallback.escalation
    suggested := fallback.suggested
    modelCalls := 1
    providerDegraded := true }

/-- The composition of a question that the router had placed. -/
def Composition.placed (deterministic : Composition) (tokens parkToolCalls : Nat) : Composition :=
  { drafts := deterministic.drafts
    escalation := deterministic.escalation
    hold := deterministic.hold
    suggested := deterministic.suggested
    modelCalls := 1
    toolCalls := parkToolCalls
    tokens := tokens }

/-- `AdkQuestionComposer.compose`, given whether the router deferred a text -/
def adkQuestionComposer (planner : QuestionPlanner) (fallback : Composer) (routerDeferred : String → Bool) :
    Composer := fun question anchor providerInput => do
  match ← planner question anchor providerInput with
  | .blocked => pure { screeningBlocked := true }
  | .failed =>
    let answered ← fallback question anchor none
    return answered.degraded
  | .plan plan tokens parkToolCalls =>
    match plan.parkedRequest with
    | some payload =>
      pure { modelCalls := 1, toolCalls := parkToolCalls, tokens := tokens, parkedRequest := some payload }
    | none =>
      if plan.conversationIntent ≠ .ledgerQuery then
        if routerDeferred question then
          pure
            { modelCalls := 1
              toolCalls := parkToolCalls
              tokens := tokens
              replyIntent := some plan.conversationIntent.text }
        else do
          let deterministic ← fallback question anchor none
          return deterministic.placed tokens parkToolCalls
      else do
        let merged ← mergeQuestions fallback anchor plan.questionIds.eraseDups ⟨[], [], none⟩
        return merged.composition tokens parkToolCalls

section Programs

variable {planner : QuestionPlanner} {fallback : Composer} {routerDeferred : String → Bool} {question : String}
  {anchor : Anchor} {providerInput : Option String} {plan : LiaisonQuestionPlan} {tokens parkToolCalls : Nat}

/-- A plan that names questions parks nothing. -/
theorem LiaisonQuestionPlan.unparked (plan : LiaisonQuestionPlan) (hids : plan.questionIds ≠ []) :
    plan.conversationIntent = .ledgerQuery ∧ plan.parkedRequest = none := by
  have houtcome := plan.exactlyOneOutcome
  by_cases hintent : plan.conversationIntent = .ledgerQuery
  · rw [if_neg (not_not_intro hintent)] at houtcome
    exact ⟨hintent, houtcome.mp hids⟩
  · rw [if_pos hintent] at houtcome
    exact absurd houtcome.1 hids

/-- After a plan that was made without a read, only the questions of the plan read. -/
theorem adk_planned (hplanner : planner question anchor providerInput = pure (.plan plan tokens parkToolCalls))
    (hids : plan.questionIds ≠ []) :
    adkQuestionComposer planner fallback routerDeferred question anchor providerInput =
      (do
        let merged ← mergeQuestions fallback anchor plan.questionIds.eraseDups ⟨[], [], none⟩
        return merged.composition tokens parkToolCalls) := by
  obtain ⟨hintent, hparked⟩ := plan.unparked hids
  unfold adkQuestionComposer
  rw [hplanner]
  simp only [pure_bind, hparked, hintent, ne_eq, not_true_eq_false, if_false]

/-- A planner that fails before it reads leaves the question to the fallback. -/
theorem adk_failed (hplanner : planner question anchor providerInput = pure .failed) :
    adkQuestionComposer planner fallback routerDeferred question anchor providerInput =
      (do
        let answered ← fallback question anchor none
        return answered.degraded) := by
  unfold adkQuestionComposer
  rw [hplanner]
  rfl

end Programs

section Merge

variable {fallback : Composer} {anchor : Anchor} {merged : Merged} {oracle : (call : Drafting) → call.Answer}

theorem mergeQuestions_value (ids : List QuestionId) :
    (mergeQuestions fallback anchor ids merged).value oracle =
      (ids.map (fun id => (fallback (questionPrompt id.text) anchor none).value oracle)).foldl Merged.add merged := by
  induction ids generalizing merged with
  | nil => rfl
  | cons id rest ih =>
    simp only [mergeQuestions, Program.value_bind, List.map_cons, List.foldl_cons]
    exact ih

theorem mergeQuestions_asked (ids : List QuestionId) :
    (mergeQuestions fallback anchor ids merged).asked oracle =
      ids.flatMap (fun id => (fallback (questionPrompt id.text) anchor none).asked oracle) := by
  induction ids generalizing merged with
  | nil => rfl
  | cons id rest ih =>
    simp only [mergeQuestions, Program.asked_bind, List.flatMap_cons]
    rw [ih]

end Merge

section Runs

variable {env : Surroundings} {planner : QuestionPlanner} {routerDeferred : String → Bool} {question : String}
  {anchor : Anchor} {providerInput : Option String} {plan : LiaisonQuestionPlan} {tokens parkToolCalls : Nat}

/-- How often the answers to a plan read. -/
def plannedReads (env : Platform) (anchor : Anchor) (ids : List QuestionId) : Nat :=
  ids.countP (fun id => reads env (questionPrompt id.text) anchor)

theorem merge_asked {oracle : (call : Drafting) → call.Answer} (ids : List QuestionId) (merged : Merged) :
    (mergeQuestions (enumeratedComposer env.platform) anchor ids merged).asked oracle =
      List.replicate (plannedReads env.platform anchor ids) (anchorCall anchor) := by
  rw [mergeQuestions_asked]
  unfold plannedReads
  induction ids with
  | nil => rfl
  | cons id rest ih =>
    rw [List.flatMap_cons, ih, enumerated_asked, List.countP_cons]
    split
    · rw [List.replicate_succ, List.singleton_append]
    · rfl

/-- The answers to the planned questions. -/
def plannedAnswers (env : Surroundings) (anchor : Anchor) (ids : List QuestionId) : List Composition :=
  ids.map (fun id =>
    (enumeratedComposer env.platform (questionPrompt id.text) anchor none).value env.draftingAnswer)

/-- After a plan that was made without a read, each answer reads the same once more. -/
theorem planned_run (hcovers : env.Covers (anchorCall anchor).arguments)
    (hplanner : planner question anchor providerInput = pure (.plan plan tokens parkToolCalls))
    (hids : plan.questionIds ≠ []) :
    (adkQuestionComposer planner (enumeratedComposer env.platform) routerDeferred question anchor
        providerInput).run env.granted .start =
      (.ok (((plannedAnswers env anchor plan.questionIds.eraseDups).foldl Merged.add ⟨[], [], none⟩).composition
          tokens parkToolCalls),
        Session.repeated (anchorCall anchor).arguments
          (plannedReads env.platform anchor plan.questionIds.eraseDups)) := by
  have hrun := Program.run_answered env.draftingAnswer (fun call s => s.drafted call.arguments)
    (h := env.granted) (I := fun _ => True) (s := .start)
    (p := mergeQuestions (enumeratedComposer env.platform) anchor plan.questionIds.eraseDups ⟨[], [], none⟩)
    (fun _ _ _ => trivial)
    (fun call hcall s _ => by
      rw [merge_asked] at hcall
      obtain rfl := List.eq_of_mem_replicate hcall
      exact granted_covered hcovers) trivial
  rw [merge_asked, drafted_repeatedly, mergeQuestions_value] at hrun
  rw [adk_planned hplanner hids, Program.run_bind, hrun]
  rfl

end Runs

end Solvan.Liaison.Turn
