import Solvan.Liaison.Containment
import Solvan.Liaison.Planner

/-! What a turn delivers whose grant lets all its reads through. -/
namespace Solvan.Liaison.Turn
open Solvan.Base

theorem holding_registered : ∀ template ∈ claimTemplates, template.held = true →
    (claimTemplates.claim (template.holdingTemplate.getD "")).isSome = true := by
  decide

section Registry

variable {lang : Language} {reader : ProjectionReader} {draft : ClaimDraft} {template : ClaimTemplate}
  {reason : String}

theorem degrade_total (htemplate : template ∈ claimTemplates) :
    ∃ rendered, Liaison.degrade lang claimTemplates template draft reason reader = .ok rendered := by
  unfold Liaison.degrade
  split
  · rename_i hheld
    obtain ⟨holding, hholding⟩ := Option.isSome_iff_exists.mp
      (holding_registered template htemplate (Bool.and_eq_true_iff.mp hheld).1)
    unfold Liaison.hold
    rw [hholding]
    dsimp only
    split
    · exact ⟨_, rfl⟩
    · split <;> exact ⟨_, rfl⟩
  · exact ⟨_, rfl⟩

/-- With the registered templates, the gate always comes to a claim. -/
theorem composeClaim_total :
    ∃ rendered, Liaison.composeClaim lang claimTemplates reader draft = .ok rendered := by
  unfold Liaison.composeClaim
  split
  · exact ⟨_, rfl⟩
  · rename_i template htemplate
    have hmem := (TemplateRegistry.claim_some htemplate).1
    dsimp only
    split
    · exact ⟨_, rfl⟩
    · split
      · exact degrade_total hmem
      · rename_i values hfilled
        split
        · exact degrade_total hmem
        · split
          · exact ⟨_, rfl⟩
          · obtain ⟨sentence, hsentence⟩ := render_filled hfilled
            rw [hsentence]
            exact ⟨_, rfl⟩

/-- Joining text of the registry, or a claim. -/
def Draft.Renders (lang : Language) : Draft → Prop
  | .claim _ => True
  | .connective templateId phrase => ∃ sentence, liaisonRegistry.render lang templateId phrase = .ok sentence

variable {incidentId questionId : String} {record : Record} {answered : Answered} {item : Draft}

/-- Claims for each of a few records, after a permitted phrase. -/
theorem framed_renders {α : Type} {templateId phrase : String} {items : List α} {claim : α → ClaimDraft}
    (h : (Draft.connective templateId phrase).Renders lang)
    (hitem : item ∈ .connective templateId phrase :: items.map (fun item => .claim (claim item))) :
    item.Renders lang := by
  obtain rfl | hclaim := List.mem_cons.mp hitem
  · exact h
  · obtain ⟨found, -, rfl⟩ := List.mem_map.mp hclaim
    trivial

/-- The composer says no phrase that the registry does not permit. -/
theorem answer_renders (hanswer : answer lang incidentId record questionId = some answered)
    (hitem : item ∈ answered.1) : item.Renders lang := by
  have hmem := answer_mem hanswer
  simp only [answers, List.mem_cons, Prod.mk.injEq, List.not_mem_nil, or_false] at hmem
  rcases hmem with ⟨-, rfl⟩ | ⟨-, rfl⟩ | ⟨-, rfl⟩ | ⟨-, rfl⟩ | ⟨-, rfl⟩ | ⟨-, rfl⟩ | ⟨-, rfl⟩ | ⟨-, rfl⟩ | ⟨-, rfl⟩ |
    ⟨-, rfl⟩
  · obtain rfl | hitem := List.mem_cons.mp hitem
    · exact ⟨_, rfl⟩
    · simp only [List.mem_cons, List.not_mem_nil, or_false] at hitem
      rcases hitem with rfl | rfl | rfl <;> trivial
  · obtain rfl := List.mem_singleton.mp hitem
    trivial
  · simp only [answerIsItFixed, List.mem_cons, List.not_mem_nil, or_false] at hitem
    rcases hitem with rfl | rfl
    · exact ⟨_, rfl⟩
    · trivial
  · obtain rfl | hstep := List.mem_cons.mp hitem
    · exact ⟨_, rfl⟩
    obtain ⟨step, -, hmem⟩ := List.mem_flatMap.mp hstep
    obtain hlabel | hclaim := List.mem_append.mp hmem
    · split at hlabel
      · rename_i hpermitted
        obtain rfl := List.mem_singleton.mp hlabel
        exact ⟨_, if_pos hpermitted⟩
      · cases hlabel
    · obtain rfl := List.mem_singleton.mp hclaim
      trivial
  · exact framed_renders ⟨_, rfl⟩ hitem
  · simp only [answerWhatNeedsMe, List.mem_cons, List.not_mem_nil, or_false] at hitem
    rcases hitem with rfl | rfl
    · trivial
    · exact ⟨_, rfl⟩
  · obtain rfl := List.mem_singleton.mp hitem
    trivial
  · obtain rfl := List.mem_singleton.mp hitem
    trivial
  · exact framed_renders ⟨_, rfl⟩ hitem
  · obtain ⟨action, -, rfl⟩ := List.mem_map.mp hitem
    trivial

theorem incidents_render {matched : Question} {incidents : List String}
    (hitem : item ∈ (composeIncidents matched incidents).drafts) : item.Renders lang := by
  unfold composeIncidents at hitem
  split at hitem
  · cases hitem
  obtain rfl | hclaim := List.mem_cons.mp hitem
  · split <;> exact ⟨_, rfl⟩
  · obtain ⟨incident, -, hmem⟩ := List.mem_flatMap.mp hclaim
    unfold crossRecordDrafts at hmem
    split at hmem
    · obtain rfl := List.mem_singleton.mp hmem
      trivial
    · simp only [List.mem_cons, List.not_mem_nil, or_false] at hmem
      rcases hmem with rfl | rfl <;> trivial

/-- So does none of its compositions. -/
theorem enumerated_renders {env : Platform} {oracle : (call : Drafting) → call.Answer} {question : String}
    {anchor : Anchor} {providerInput : Option String}
    (hitem : item ∈ ((enumeratedComposer env question anchor providerInput).value oracle).drafts) :
    item.Renders env.lang := by
  obtain ⟨incidentId, record, matched, answered, -, -, -, hanswer, hmem⟩ | ⟨-, matched, incidents, hmem⟩ :=
    enumerated_drafts hitem
  · exact answer_renders hanswer hmem
  · exact incidents_render hmem

end Registry

/-- A part wherever it stands in an answer. -/
def Part.body (part : Part) : Part := { part with sequence := 0 }

/-- What the gate makes of a draft. -/
def draftBody (env : TurnSettings) : Draft → Option Part
  | .connective templateId phrase =>
    match env.registry.render env.platform.lang templateId phrase with
    | .ok sentence => some (connectivePart sentence 0 templateId)
    | .error _ => none
  | .claim draft =>
    match Liaison.composeClaim env.platform.lang env.registry.templates env.contained draft with
    | .ok (claim, _) =>
      if claim.outcome = .suppressed then none else some (claimPart claim 0 env.classification)
    | .error _ => none

/-- What is delivered of a composition. -/
def Composition.bodies (env : TurnSettings) (composition : Composition) : List Part :=
  composition.drafts.filterMap (draftBody env) ++
    (composition.hold.map (fun hold => holdPart env hold 0)).toList ++
    (composition.escalation.map (fun escalation => steerPart env escalation 0)).toList

section Covered

variable {env : TurnSettings} {s : Session} {draft : ClaimDraft} {composition : Composition}

/-- Where the grant lets its reads through, the gate is answered by the records of the grant. -/
theorem verification_covered (hcovers : env.Covers (.read "" "")) (hpinned : s.Pinned env.toSurroundings)
    (call : Gating) : env.forVerification call s =
      (.ok (gatingAnswer env.contained call), (env.forVerification call s).2) := by
  cases call with
  | read recordType recordId =>
    have hcomplaint : env.complaint s (.read recordType recordId) = none := hcovers s.authorizations
    simp only [Surroundings.forVerification, hcomplaint, hpinned.getD]
    rfl
  | unresolvedCitations count => rfl
  | unknownTemplate => rfl
  | record outcome reason => rfl

theorem composeClaim_covered (hcovers : env.Covers (.read "" "")) (hpinned : s.Pinned env.toSurroundings) :
    ∃ s', (composeClaim env.platform.lang env.registry.templates draft).run env.forVerification s =
        (.ok (Liaison.composeClaim env.platform.lang env.registry.templates env.contained draft), s') ∧
      s'.Pinned env.toSurroundings := by
  have hrun := Program.run_answered (gatingAnswer env.contained) (fun call s => (env.forVerification call s).2)
    (p := composeClaim env.platform.lang env.registry.templates draft) (I := Session.Pinned env.toSurroundings)
    (fun call _ => verification_pinned call) (fun call _ _ hpinned => verification_covered hcovers hpinned call)
    hpinned
  rw [value_composeClaim] at hrun
  refine ⟨_, hrun, ?_⟩
  have hkept := Program.run_keeps (I := Session.Pinned env.toSurroundings) (h := env.forVerification)
    (p := composeClaim env.platform.lang env.registry.templates draft)
    (fun call _ => verification_pinned call) hpinned
  rwa [hrun] at hkept

/-- The gate delivers what it makes of each draft. -/
theorem gate_covered (hregistry : env.registry = liaisonRegistry) (hcovers : env.Covers (.read "" ""))
    {drafts : List Draft} (hrenders : ∀ item ∈ drafts, item.Renders env.platform.lang) (parts : List Part)
    (hpinned : s.Pinned env.toSurroundings) :
    ∃ parts' s', gate env drafts parts s = (none, parts', s') ∧
      parts'.map Part.body = parts.map Part.body ++ drafts.filterMap (draftBody env) := by
  induction drafts generalizing parts s with
  | nil => exact ⟨parts, s, rfl, by simp⟩
  | cons item rest ih =>
    have hrest : ∀ item ∈ rest, item.Renders env.platform.lang :=
      fun other hother => hrenders other (List.mem_cons_of_mem _ hother)
    cases item with
    | connective templateId phrase =>
      obtain ⟨sentence, hsentence⟩ := hrenders _ List.mem_cons_self
      rw [← hregistry] at hsentence
      obtain ⟨parts', s', hgate, hbodies⟩ := ih hrest (parts ++ [connectivePart sentence parts.length templateId])
        hpinned
      refine ⟨parts', s', ?_, ?_⟩
      · simp only [gate, hsentence]
        exact hgate
      · rw [hbodies, List.map_append, List.append_assoc, List.filterMap_cons]
        simp only [draftBody, hsentence]
        rfl
    | claim draft =>
      obtain ⟨s', hrun, hpinned'⟩ := @composeClaim_covered env s draft hcovers hpinned
      obtain ⟨⟨claim, values⟩, hclaim⟩ := @composeClaim_total env.platform.lang env.contained draft
      have htemplates : env.registry.templates = claimTemplates := by rw [hregistry]; rfl
      rw [← htemplates] at hclaim
      rw [hclaim] at hrun
      by_cases hsuppressed : claim.outcome = .suppressed
      · obtain ⟨parts', s'', hgate, hbodies⟩ := ih hrest parts hpinned'
        refine ⟨parts', s'', ?_, ?_⟩
        · simp only [gate, hrun, if_pos hsuppressed]
          exact hgate
        · rw [hbodies, List.filterMap_cons]
          simp only [draftBody, hclaim, if_pos hsuppressed]
      · obtain ⟨parts', s'', hgate, hbodies⟩ := ih hrest
          (parts ++ [claimPart claim parts.length env.classification]) hpinned'
        refine ⟨parts', s'', ?_, ?_⟩
        · simp only [gate, hrun, if_neg hsuppressed]
          exact hgate
        · rw [hbodies, List.map_append, List.append_assoc, List.filterMap_cons]
          simp only [draftBody, hclaim, if_neg hsuppressed]
          rfl

/-- A turn that comes to its gate delivers what was composed. -/
theorem gated_covered (hregistry : env.registry = liaisonRegistry) (hcovers : env.Covers (.read "" ""))
    (hrenders : ∀ item ∈ composition.drafts, item.Renders env.platform.lang) (hfresh : s.authorized = none) :
    ∃ turn, gated env composition s = .ok turn ∧ turn.parts.map Part.body = composition.bodies env := by
  obtain ⟨parts, s', hgate, hbodies⟩ := gate_covered hregistry hcovers hrenders [] (pinned_of_fresh hfresh)
  unfold gated
  rw [hgate]
  refine ⟨_, rfl, ?_⟩
  simp only [ended, closing, List.map_append, hbodies, Composition.bodies, List.map_nil, List.nil_append]
  cases composition.hold <;> cases composition.escalation <;> rfl

end Covered

end Solvan.Liaison.Turn
