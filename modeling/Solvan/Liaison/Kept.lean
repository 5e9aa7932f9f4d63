import Solvan.Liaison.Degraded
import Solvan.Liaison.Envelope

/-! What a plan delivers of the answers to its questions. -/
namespace Solvan.Liaison.Turn
open Solvan.Base

/-- Claims, refusals and drafts of an escalation are what an answer is about. -/
def Part.Promised (part : Part) : Prop := part.kind = .claim ∨ part.kind = .refusal ∨ part.kind = .steerDraft

/-- Each promised part of the second turn is in the first, wherever it stands there. -/
def Carries (planned alone : Except String TurnResult) : Prop :=
  ∀ turn, alone = .ok turn → ∀ part ∈ turn.parts, part.Promised →
    ∃ turn', planned = .ok turn' ∧ ∃ part' ∈ turn'.parts, part'.body = part.body

/-- A question is answered: the read of its answer is within the ceilings, and the gate lets something of it
through. -/
def Says (env : TurnSettings) (question : String) (anchor : Anchor) : Prop :=
  (reads env.platform question anchor = true → 0 < env.ceilings.toolCalls) ∧
    ∃ part ∈ ((enumeratedComposer env.platform question anchor none).value env.draftingAnswer).bodies env,
      part.Promised

/-- The answers to a plan read less often than the guard allows, and are within the ceilings. -/
def Fits (env : TurnSettings) (anchor : Anchor) (ids : List QuestionId) (tokens parkToolCalls : Nat) : Prop :=
  plannedReads env.platform anchor ids < threshold ∧
    plannedReads env.platform anchor ids + parkToolCalls ≤ env.ceilings.toolCalls ∧
    1 ≤ env.ceilings.modelCalls ∧ tokens ≤ env.ceilings.tokens

section Merged

variable {answers : List Composition} {merged : Merged}

theorem merged_drafts :
    (answers.foldl Merged.add merged).drafts = merged.drafts ++ answers.flatMap Composition.drafts := by
  induction answers generalizing merged with
  | nil => simp
  | cons first rest ih =>
    rw [List.foldl_cons, ih, List.flatMap_cons, ← List.append_assoc]
    rfl

theorem merged_escalation :
    (answers.foldl Merged.add merged).escalation =
      merged.escalation.or (answers.findSome? Composition.escalation) := by
  induction answers generalizing merged with
  | nil => simp
  | cons first rest ih =>
    rw [List.foldl_cons, ih, List.findSome?_cons]
    show (merged.escalation.or first.escalation).or _ = _
    rw [Option.or_assoc]
    cases first.escalation <;> rfl

end Merged

section Alone

variable {env : TurnSettings} {question : String} {anchor : Anchor} {providerInput : Option String}
  {composition : Composition} {part : Part}

/-- No answer escalates by itself, so all escalations are alike. -/
theorem answer_escalation {lang : Language} {incidentId questionId : String} {record : Record} {answered : Answered}
    (hanswer : answer lang incidentId record questionId = some answered) : answered.2 = none := by
  have hmem := answer_mem hanswer
  simp only [answers, List.mem_cons, Prod.mk.injEq, List.not_mem_nil, or_false] at hmem
  rcases hmem with ⟨-, rfl⟩ | ⟨-, rfl⟩ | ⟨-, rfl⟩ | ⟨-, rfl⟩ | ⟨-, rfl⟩ | ⟨-, rfl⟩ | ⟨-, rfl⟩ | ⟨-, rfl⟩ | ⟨-, rfl⟩ |
    ⟨-, rfl⟩ <;> rfl

theorem enumerated_escalation {oracle : (call : Drafting) → call.Answer} {escalation : Escalation}
    (h : ((enumeratedComposer env.platform question anchor providerInput).value oracle).escalation =
      some escalation) : escalation = noAnswerShape := by
  cases hincident : incidentOf anchor with
  | some incidentId =>
    obtain rfl := incidentOf_some hincident
    rw [enumerated_value_incident] at h
    cases hread : oracle (.read "incident" incidentId) with
    | none =>
      rw [hread] at h
      cases h
    | some record =>
      rw [hread, composeAbout] at h
      unfold composeRecord at h
      split at h
      · exact (Option.some.inj h).symm
      · split at h
        · cases h
        · rename_i answered hanswer
          rw [answer_escalation hanswer] at h
          cases h
  | none =>
    unfold enumeratedComposer composeAcrossRecords at h
    rw [hincident] at h
    dsimp only at h
    split at h
    · cases h
    · rename_i matched hmatched
      split at h
      · cases h
      · change (composeIncidents matched _).escalation = some escalation at h
        unfold composeIncidents at h
        split at h <;> cases h

/-- What a turn of the composer delivers whose reads are let through. -/
theorem alone_turn (hregistry : env.registry = liaisonRegistry) (hcovers : ∀ arguments, env.Covers arguments)
    (hceiling : reads env.platform question anchor = true → 0 < env.ceilings.toolCalls) :
    ∃ turn, runTurn env (enumeratedComposer env.platform) question anchor providerInput = .ok turn ∧
      turn.parts.map Part.body =
        ((enumeratedComposer env.platform question anchor providerInput).value env.draftingAnswer).bodies env := by
  have hplain := @enumerated_plain env.platform env.draftingAnswer question providerInput anchor
  obtain ⟨message, -, -, hcomplaint⟩ | ⟨hrun, -⟩ := @enumerated_run env question anchor providerInput
  · rw [show env.complaint .start (anchorCall anchor).arguments = none from hcovers _ _] at hcomplaint
    cases hcomplaint
  · unfold runTurn
    rw [hrun]
    dsimp only
    rw [hplain.charged]
    have hrenders := fun item => @enumerated_renders item env.platform env.draftingAnswer question anchor providerInput
    cases hreads : reads env.platform question anchor with
    | false =>
      rw [if_neg Bool.false_ne_true, hplain.assembled rfl (TurnBudget.exceededBy_none.mpr
        ⟨Nat.zero_le _, Nat.zero_le _, Nat.zero_le _⟩)]
      exact gated_covered hregistry (hcovers _) hrenders rfl
    | true =>
      rw [if_pos rfl, hplain.assembled (drafted_once _) ((within_one_read _).mpr (hceiling hreads))]
      exact gated_covered hregistry (hcovers _) hrenders rfl

/-- Without a tool call to read with, a turn delivers nothing promised. -/
theorem alone_silent (hreads : reads env.platform question anchor = true) (hceiling : env.ceilings.toolCalls = 0)
    {turn : TurnResult} (h : runTurn env (enumeratedComposer env.platform) question anchor providerInput = .ok turn)
    (hpart : part ∈ turn.parts) : ¬part.Promised := by
  have hplain := @enumerated_plain env.platform env.draftingAnswer question providerInput anchor
  unfold runTurn at h
  obtain ⟨message, hrun, -, -⟩ | ⟨hrun, -⟩ := @enumerated_run env question anchor providerInput
  · rw [hrun] at h
    obtain rfl := Except.ok.inj h
    obtain rfl := List.mem_singleton.mp hpart
    rintro (h | h | h) <;> cases h
  · rw [hrun] at h
    dsimp only at h
    have hover : env.ceilings.exceededBy (Session.start.drafted (anchorCall anchor).arguments).usage ≠ none := by
      rw [ne_eq, within_one_read]
      omega
    obtain ⟨ceiling, hceiling⟩ := Option.ne_none_iff_exists'.mp hover
    rw [hplain.charged, hreads, if_pos rfl, assembled_over (drafted_once _) hceiling] at h
    obtain rfl := Except.ok.inj h
    obtain rfl := List.mem_singleton.mp hpart
    rintro (h | h | h) <;> cases h

/-- A draft is never made into a hold of the composition. -/
theorem draftBody_hold {item : Draft} {hold : Hold} {sequence : Nat} :
    draftBody env item ≠ some (holdPart env hold sequence) := by
  intro h
  unfold draftBody at h
  split at h
  · split at h
    · cases congrArg Part.kind (Option.some.inj h)
    · cases h
  · split at h
    · split at h
      · cases h
      · cases congrArg Part.accessMode (Option.some.inj h)
    · cases h

/-- A composition without a hold delivers none. -/
theorem unheld_bodies {hold : Hold} {sequence : Nat} (hhold : composition.hold = none) :
    holdPart env hold sequence ∉ composition.bodies env := by
  intro hmem
  simp only [Composition.bodies, List.mem_append, List.mem_filterMap, hhold, Option.mem_toList,
    Option.map_eq_some_iff, reduceCtorEq, false_and, exists_false, or_false] at hmem
  obtain ⟨item, -, hbody⟩ | ⟨escalation, -, hsteer⟩ := hmem
  · exact draftBody_hold hbody
  · cases congrArg Part.kind hsteer

end Alone

section Plan

variable {env : TurnSettings} {planner : QuestionPlanner} {routerDeferred : String → Bool} {question : String}
  {anchor : Anchor} {providerInput : Option String} {plan : LiaisonQuestionPlan} {tokens parkToolCalls : Nat}

/-- What is composed for a plan. -/
def planned (env : TurnSettings) (anchor : Anchor) (ids : List QuestionId) (tokens parkToolCalls : Nat) :
    Composition :=
  ((plannedAnswers env.toSurroundings anchor ids).foldl Merged.add ⟨[], [], none⟩).composition tokens parkToolCalls

theorem planned_drafts {ids : List QuestionId} :
    (planned env anchor ids tokens parkToolCalls).drafts =
      (plannedAnswers env.toSurroundings anchor ids).flatMap Composition.drafts := merged_drafts

theorem planned_renders {ids : List QuestionId} {item : Draft}
    (h : item ∈ (planned env anchor ids tokens parkToolCalls).drafts) : item.Renders env.platform.lang := by
  rw [planned_drafts] at h
  obtain ⟨composition, hcomposition, hitem⟩ := List.mem_flatMap.mp h
  obtain ⟨id, -, rfl⟩ := List.mem_map.mp hcomposition
  exact enumerated_renders hitem

/-- A turn with a plan comes to its gate if its answers fit, and to nothing promised if not. -/
theorem planned_turn (hregistry : env.registry = liaisonRegistry) (hcovers : ∀ arguments, env.Covers arguments)
    (hplanner : planner question anchor providerInput = pure (.plan plan tokens parkToolCalls))
    (hids : plan.questionIds ≠ []) :
    ∃ turn, runTurn env (adkQuestionComposer planner (enumeratedComposer env.platform) routerDeferred) question
        anchor providerInput = .ok turn ∧
      (Fits env anchor plan.questionIds.eraseDups tokens parkToolCalls → turn.parts.map Part.body =
        (planned env anchor plan.questionIds.eraseDups tokens parkToolCalls).bodies env) ∧
      (¬Fits env anchor plan.questionIds.eraseDups tokens parkToolCalls → ∀ part ∈ turn.parts, ¬part.Promised) := by
  unfold runTurn
  rw [planned_run (hcovers _) hplanner hids]
  dsimp only
  generalize hids' : plan.questionIds.eraseDups = ids
  generalize hs : (Session.repeated (anchorCall anchor).arguments (plannedReads env.platform anchor ids)).charged
    (planned env anchor ids tokens parkToolCalls) = s
  have hlooped : s.looped = decide (threshold ≤ plannedReads env.platform anchor ids) := by
    rw [← hs]
    rfl
  have husage : s.usage = ⟨plannedReads env.platform anchor ids + parkToolCalls, 1, tokens, 0⟩ := by
    rw [← hs]
    simp [Session.charged, Session.repeated, planned, Merged.composition]
  have hfresh : s.authorized = none := by
    rw [← hs]
    rfl
  change ∃ turn, assembled env question anchor (planned env anchor ids tokens parkToolCalls)
    ((Session.repeated (anchorCall anchor).arguments (plannedReads env.platform anchor ids)).charged
      (planned env anchor ids tokens parkToolCalls)) = .ok turn ∧ _
  rw [hs]
  by_cases hthreshold : threshold ≤ plannedReads env.platform anchor ids
  · refine ⟨_, if_pos (by simpa [hlooped] using hthreshold), fun hfits => ?_, fun _ part hpart => ?_⟩
    · exact absurd hfits.1 (by omega)
    · obtain rfl := List.mem_singleton.mp hpart
      rintro (h | h | h) <;> cases h
  have hunlooped : s.looped = false := by simpa [hlooped] using hthreshold
  cases hwithin : env.ceilings.exceededBy s.usage with
  | none =>
    obtain ⟨turn, hturn, hbodies⟩ := gated_covered hregistry (hcovers _) (fun _ => planned_renders) hfresh
    refine ⟨turn, ?_, fun _ => hbodies, fun hnot => absurd ?_ hnot⟩
    · rw [assembled_gated rfl rfl rfl hunlooped hwithin, hturn]
    · rw [husage, TurnBudget.exceededBy_none] at hwithin
      exact ⟨by omega, hwithin⟩
  | some ceiling =>
    refine ⟨_, assembled_over hunlooped hwithin, fun hfits => ?_, fun _ part hpart => ?_⟩
    · rw [husage, TurnBudget.exceededBy_none.mpr hfits.2] at hwithin
      cases hwithin
    · obtain rfl := List.mem_singleton.mp hpart
      rintro (h | h | h) <;> cases h

/-- What is delivered of an answer without a hold is delivered of the plan. -/
theorem answer_planned {ids : List QuestionId} {id : QuestionId} {part : Part} (hid : id ∈ ids)
    (hhold : ((enumeratedComposer env.platform (questionPrompt id.text) anchor none).value
      env.draftingAnswer).hold = none)
    (hpart : part ∈ ((enumeratedComposer env.platform (questionPrompt id.text) anchor none).value
      env.draftingAnswer).bodies env) : part ∈ (planned env anchor ids tokens parkToolCalls).bodies env := by
  have hanswer : (enumeratedComposer env.platform (questionPrompt id.text) anchor none).value env.draftingAnswer ∈
      plannedAnswers env.toSurroundings anchor ids := List.mem_map_of_mem hid
  simp only [Composition.bodies, List.mem_append, List.mem_filterMap, hhold, Option.mem_toList,
    Option.map_eq_some_iff, reduceCtorEq, false_and, exists_false, or_false] at hpart ⊢
  obtain ⟨item, hitem, hbody⟩ | ⟨escalation, hescalation, rfl⟩ := hpart
  · refine .inl (.inl ⟨item, ?_, hbody⟩)
    rw [planned_drafts]
    exact List.mem_flatMap.mpr ⟨_, hanswer, hitem⟩
  · obtain rfl := enumerated_escalation hescalation
    refine .inr ⟨noAnswerShape, ?_, rfl⟩
    show ((plannedAnswers env.toSurroundings anchor ids).foldl Merged.add ⟨[], [], none⟩).escalation = _
    rw [merged_escalation]
    -- The first escalation is taken, and there is no other.
    cases hfirst : (plannedAnswers env.toSurroundings anchor ids).findSome? Composition.escalation with
    | none => rw [List.findSome?_eq_none_iff.mp hfirst _ hanswer] at hescalation; cases hescalation
    | some first =>
      obtain ⟨composition, hcomposition, hfound⟩ := List.exists_of_findSome?_eq_some hfirst
      obtain ⟨other, -, rfl⟩ := List.mem_map.mp hcomposition
      rw [enumerated_escalation hfound]
      rfl

/-- A plan delivers what its questions promise if and only if, for each question that says something, the
answers to the plan fit and its own answer is no hold. -/
theorem plan_carries_iff (hregistry : env.registry = liaisonRegistry) (hcovers : ∀ arguments, env.Covers arguments)
    (hplanner : planner question anchor providerInput = pure (.plan plan tokens parkToolCalls))
    (hids : plan.questionIds ≠ []) :
    (∀ id ∈ plan.questionIds, Carries
        (runTurn env (adkQuestionComposer planner (enumeratedComposer env.platform) routerDeferred) question anchor
          providerInput)
        (runTurn env (enumeratedComposer env.platform) (questionPrompt id.text) anchor none)) ↔
      ∀ id ∈ plan.questionIds, Says env (questionPrompt id.text) anchor →
        Fits env anchor plan.questionIds.eraseDups tokens parkToolCalls ∧
          ¬Missing env (questionPrompt id.text) anchor := by
  obtain ⟨turn, hturn, hfitting, hunfitting⟩ := @planned_turn env planner routerDeferred question anchor
    providerInput plan tokens parkToolCalls hregistry hcovers hplanner hids
  rw [hturn]
  refine forall₂_congr (fun id hid => ⟨fun hcarries hanswered => ?_, fun hkept alone halone part hpart hpromised => ?_⟩)
  · obtain ⟨hceiling, said, hsaid, hpromised⟩ := hanswered
    obtain ⟨alone, halone, hbodies⟩ := @alone_turn env (questionPrompt id.text) anchor none hregistry hcovers hceiling
    -- Each part of the answer that is promised is delivered.
    have hdelivered : ∀ body ∈ ((enumeratedComposer env.platform (questionPrompt id.text) anchor none).value
        env.draftingAnswer).bodies env, body.Promised → ∃ part ∈ turn.parts, part.body = body := by
      intro body hbody hpromised
      rw [← hbodies] at hbody
      obtain ⟨part, hpart, rfl⟩ := List.mem_map.mp hbody
      obtain ⟨turn', hturn', part', hpart', heq⟩ := hcarries alone halone part hpart hpromised
      obtain rfl := Except.ok.inj hturn'
      exact ⟨part', hpart', heq⟩
    have hfits : Fits env anchor plan.questionIds.eraseDups tokens parkToolCalls := by
      by_contra hnot
      obtain ⟨part, hpart, rfl⟩ := hdelivered said hsaid hpromised
      exact hunfitting hnot part hpart hpromised
    refine ⟨hfits, fun hmissing => ?_⟩
    obtain ⟨hold, hhold⟩ := Option.isSome_iff_exists.mp
      ((@hold_iff env (questionPrompt id.text) anchor none).mpr hmissing)
    obtain ⟨part, hpart, heq⟩ := hdelivered (holdPart env hold 0) (by simp [Composition.bodies, hhold])
      (.inr (.inl rfl))
    have hmem := List.mem_map_of_mem (f := Part.body) hpart
    rw [heq, hfitting hfits] at hmem
    exact unheld_bodies rfl hmem
  · have hceiling : reads env.platform (questionPrompt id.text) anchor = true → 0 < env.ceilings.toolCalls := by
      intro hreads
      by_contra hnone
      exact alone_silent hreads (by omega) halone hpart hpromised
    obtain ⟨found, hfound, hbodies⟩ := @alone_turn env (questionPrompt id.text) anchor none hregistry hcovers hceiling
    obtain rfl := Except.ok.inj (halone.symm.trans hfound)
    have hbody : part.body ∈ ((enumeratedComposer env.platform (questionPrompt id.text) anchor none).value
        env.draftingAnswer).bodies env := by
      rw [← hbodies]
      exact List.mem_map_of_mem hpart
    obtain ⟨hfits, hmissing⟩ := hkept ⟨hceiling, part.body, hbody, hpromised⟩
    have hhold : ((enumeratedComposer env.platform (questionPrompt id.text) anchor none).value
        env.draftingAnswer).hold = none := by
      rw [← Option.not_isSome_iff_eq_none, hold_iff]
      exact hmissing
    have hmem : part.body ∈ turn.parts.map Part.body := by
      rw [hfitting hfits]
      exact answer_planned (List.mem_eraseDups.mpr hid) hhold hbody
    obtain ⟨part', hpart', heq⟩ := List.mem_map.mp hmem
    exact ⟨turn, rfl, part', hpart', heq⟩

end Plan

/-- A planner that is lost for one question and plans two for the others. -/
def unsteady : QuestionPlanner := fun question _ _ =>
  if question = "Is it fixed?" then pure .failed
  else pure (.plan ⟨[.whereAreWe, .isItClosed], none, .ledgerQuery, by decide, by simp⟩ 40 0)

theorem mitigated_there (question : String) :
    ¬Missing (incidentTurn [mitigated]) question (.record ("incident", "INC-1")) := by
  intro hmissing
  have hnone : (incidentTurn [mitigated]).contained "incident" "INC-1" = none := hmissing
  rw [mitigated_read] at hnone
  cases hnone

end Solvan.Liaison.Turn
