import Solvan.Liaison.Containment
import Solvan.Liaison.Planner

/-! When the loop guard takes the answers to a plan for a loop. -/
namespace Solvan.Liaison.Turn
open Solvan.Base

/-- The turn is parked with the question about a repeated read. -/
def ParkedOnLoop (result : Except String TurnResult) : Prop :=
  ∃ turn, result = .ok turn ∧ turn.state = .parked ∧ ∃ part ∈ turn.parts, part.payload = repeatedRead

section Exits

variable {env : TurnSettings} {question : String} {anchor : Anchor} {composition : Composition} {s : Session}
  {turn : TurnResult}

theorem gated_state (h : gated env composition s = .ok turn) : turn.state ≠ .parked := by
  unfold gated at h
  split at h
  · cases h
  · obtain rfl := Except.ok.inj h
    nofun
  · obtain rfl := Except.ok.inj h
    nofun

/-- Without a loop and without a request to park, a turn does not park. -/
theorem assembled_state (hlooped : s.looped = false) (hparked : composition.parkedRequest = none)
    (h : assembled env question anchor composition s = .ok turn) : turn.state ≠ .parked := by
  have hgated : parkedOrGated env composition s = .ok turn → turn.state ≠ .parked := by
    unfold parkedOrGated
    rw [hparked]
    exact gated_state
  have hreplied : replied env question anchor composition s = .ok turn → turn.state ≠ .parked := by
    intro hreply
    unfold replied at hreply
    split at hreply
    · exact hgated hreply
    · split at hreply
      · cases hreply
      · split at hreply
        · exact hgated hreply
        · rename_i templateId phrase hresolved
          cases hsentence : env.registry.render env.platform.lang templateId phrase with
          | error message =>
            rw [hsentence] at hreply
            cases hreply
          | ok sentence =>
            rw [hsentence] at hreply
            obtain rfl := Except.ok.inj hreply
            nofun
  unfold assembled at h
  rw [hlooped] at h
  simp only [Bool.false_eq_true, if_false] at h
  split at h
  · obtain rfl := Except.ok.inj h
    nofun
  · split at h
    · obtain rfl := Except.ok.inj h
      nofun
    · exact hreplied h

/-- A turn is parked on a loop if and only if its drafter looped. -/
theorem assembled_loop_iff (hparked : composition.parkedRequest = none) :
    ParkedOnLoop (assembled env question anchor composition s) ↔ s.looped = true := by
  constructor
  · rintro ⟨turn, hturn, hstate, -⟩
    by_contra hlooped
    exact assembled_state (by simpa using hlooped) hparked hturn hstate
  · intro hlooped
    unfold assembled
    rw [if_pos hlooped]
    exact ⟨_, rfl, rfl, _, List.mem_singleton_self _, rfl⟩

end Exits

section Plans

variable {env : TurnSettings} {planner : QuestionPlanner} {routerDeferred : String → Bool} {question : String}
  {incidentId : String} {providerInput : Option String} {plan : LiaisonQuestionPlan}
  {tokens parkToolCalls : Nat}

/-- Every answer about an incident reads it. -/
theorem plannedReads_incident (ids : List QuestionId) :
    plannedReads env.platform (.record ("incident", incidentId)) ids = ids.length :=
  List.countP_eq_length.mpr (fun _ _ => rfl)

theorem distinct_kept {ids : List QuestionId} (h : ids.Nodup) : ids.eraseDups = ids := by
  induction ids with
  | nil => rfl
  | cons id rest ih =>
    obtain ⟨hfirst, hrest⟩ := List.nodup_cons.mp h
    have hothers : rest.filter (fun other => !other == id) = rest :=
      List.filter_eq_self.mpr (fun other hother => by
        have hne : other ≠ id := fun heq => hfirst (heq ▸ hother)
        simpa using hne)
    rw [List.eraseDups_cons, hothers, ih hrest]

/-- An answer to a plan of distinct questions about an incident is not taken for a loop if and only if
the plan names fewer questions than the threshold of the guard. -/
theorem plan_unlooped_iff (hcovers : env.Covers (.read "incident" incidentId))
    (hplanner : planner question (.record ("incident", incidentId)) providerInput =
      pure (.plan plan tokens parkToolCalls)) (hids : plan.questionIds ≠ [])
    (hdistinct : plan.questionIds.Nodup) :
    ¬ParkedOnLoop (runTurn env (adkQuestionComposer planner (enumeratedComposer env.platform) routerDeferred)
        question (.record ("incident", incidentId)) providerInput) ↔ plan.questionIds.length < threshold := by
  unfold runTurn
  rw [planned_run hcovers hplanner hids, plannedReads_incident, distinct_kept hdistinct]
  dsimp only
  rw [assembled_loop_iff rfl]
  simp [Session.charged, Session.repeated]

end Plans

/-- A plan of three questions, which its schema admits. -/
def threeQuestions : LiaisonQuestionPlan where
  questionIds := [.whereAreWe, .whatHappened, .whatWasTheImpact]
  parkedRequest := none
  conversationIntent := .ledgerQuery
  short := by decide
  exactlyOneOutcome := by simp

def planning (plan : LiaisonQuestionPlan) : QuestionPlanner := fun _ _ _ => pure (.plan plan 40 0)

theorem incidentTurn_covers (records : List (RecordKey × Record)) (recordType recordId : String) :
    (incidentTurn records).Covers (.read recordType recordId) := fun _ => rfl

/-- Two questions are answered. -/
theorem two_unparked :
    ¬ParkedOnLoop (runTurn (incidentTurn [mitigated])
      (adkQuestionComposer (planning ⟨[.whereAreWe, .isItClosed], none, .ledgerQuery, by decide, by simp⟩)
        (enumeratedComposer asciiPlatform) (fun _ => false))
      "What is going on?" (.record ("incident", "INC-1")) none) :=
  (@plan_unlooped_iff (incidentTurn [mitigated]) _ (fun _ => false) "What is going on?" "INC-1" none _ 40 0
    (incidentTurn_covers _ _ _) rfl (by decide) (by decide)).mpr (by decide)

theorem three_parked :
    ¬∀ (env : TurnSettings) (planner : QuestionPlanner) (plan : LiaisonQuestionPlan) (tokens parkToolCalls : Nat)
      (question incidentId : String), env.Covers (.read "incident" incidentId) →
      (env.contained "incident" incidentId).isSome = true →
      planner question (.record ("incident", incidentId)) none = pure (.plan plan tokens parkToolCalls) →
      plan.questionIds ≠ [] → plan.questionIds.Nodup →
      ¬ParkedOnLoop (runTurn env (adkQuestionComposer planner (enumeratedComposer env.platform) (fun _ => false))
        question (.record ("incident", incidentId)) none) := by
  intro h
  have hreadable : ((incidentTurn [mitigated]).contained "incident" "INC-1").isSome = true := by
    unfold Surroundings.contained Surroundings.readWithin
    rw [incidentTurn_authorized]
    rfl
  refine h (incidentTurn [mitigated]) (planning threeQuestions) threeQuestions 40 0 "What is going on?" "INC-1"
    (incidentTurn_covers _ _ _) hreadable rfl (by decide) (by decide) ?_
  unfold runTurn
  rw [@planned_run (incidentTurn [mitigated]).toSurroundings (planning threeQuestions) (fun _ => false)
    "What is going on?" (.record ("incident", "INC-1")) none threeQuestions 40 0 (incidentTurn_covers _ _ _) rfl
    (by decide)]
  exact (assembled_loop_iff rfl).mpr rfl

end Solvan.Liaison.Turn
