import Solvan.Liaison.Delivered
import Solvan.Liaison.Loops

/-! Whether the reader of an answer may see each of its parts. -/
namespace Solvan.Liaison.Turn
open Solvan.Base

/-- The parts of an answer that depend on records are all visible to the one it was composed for. -/
def OwnAnswerVisible (env : TurnSettings) (turn : TurnResult) : Prop :=
  ∀ participants, ∀ part ∈ turn.parts, part.accessMode = .recordSet →
    readerMaySee part env.grant.principal env.resolveAuthorizedRecords participants = true

/-- The answer to a question would cite nothing of this record. -/
def Unfounded (lang : Language) (record : Record) (questionId : String) : Prop :=
  ((questionId = "IS_IT_FIXED" ∨ questionId = "WAS_DATA_LOST") ∧ verificationCitation lang record = []) ∨
    (questionId = "IS_ANYTHING_ELSE_AFFECTED" ∧ downstreamCitations lang record = [])

/-- The incident of the anchor is read under the grant, and the question it is asked would cite nothing. -/
def Uncited (env : TurnSettings) (question : String) (anchor : Anchor) : Prop :=
  0 < env.ceilings.toolCalls ∧ ∃ incidentId record matched, incidentOf anchor = some incidentId ∧
    env.complaint .start (.read "incident" incidentId) = none ∧
    env.contained "incident" incidentId = some record ∧
    matchQuestion env.platform question (some record) = some matched ∧
    Unfounded env.platform.lang record matched.id

section Drafts

variable {lang : Language} {incidentId : String} {record : Record} {questionId : String} {answered : Answered}
  {draft : ClaimDraft}

/-- Answers of which each claim cites a record. -/
def Answered.Cited (answered : Answered) : Prop := ∀ draft, .claim draft ∈ answered.1 → draft.citations ≠ []

theorem whereAreWe_cited : (answerWhereAreWe lang incidentId record).Cited := by
  intro draft hdraft
  simp only [answerWhereAreWe, incidentClaim, List.mem_cons, reduceCtorEq, Draft.claim.injEq, List.not_mem_nil,
    or_false, false_or] at hdraft
  rcases hdraft with rfl | rfl | rfl <;> exact List.cons_ne_nil _ _

theorem isItClosed_cited : (answerIsItClosed incidentId).Cited := by
  intro draft hdraft
  obtain rfl := Draft.claim.inj (List.mem_singleton.mp hdraft)
  exact List.cons_ne_nil _ _

theorem whatHappened_cited : (answerWhatHappened lang incidentId record).Cited := by
  intro draft hdraft
  obtain hlead | hstep := List.mem_cons.mp hdraft
  · cases hlead
  obtain ⟨step, -, hmem⟩ := List.mem_flatMap.mp hstep
  obtain hlabel | hclaim := List.mem_append.mp hmem
  · split at hlabel
    · cases List.mem_singleton.mp hlabel
    · cases hlabel
  · obtain rfl := Draft.claim.inj (List.mem_singleton.mp hclaim)
    exact List.cons_ne_nil _ _

/-- A frame before claims that cite something. -/
theorem framed_cited {templateId phrase : String} {records : List Record} {claim : Record → ClaimDraft}
    (h : ∀ item, (claim item).citations ≠ []) :
    Answered.Cited (.connective templateId phrase :: records.map (fun item => .claim (claim item)), none) := by
  intro draft hdraft
  obtain hframe | hclaim := List.mem_cons.mp hdraft
  · cases hframe
  obtain ⟨item, -, heq⟩ := List.mem_map.mp hclaim
  obtain rfl := Draft.claim.inj heq
  exact h item

theorem whatNeedsMe_cited : (answerWhatNeedsMe lang incidentId record).Cited := by
  intro draft hdraft
  simp only [answerWhatNeedsMe, incidentClaim, List.mem_cons, reduceCtorEq, Draft.claim.injEq, List.not_mem_nil,
    or_false] at hdraft
  subst hdraft
  exact List.cons_ne_nil _ _

theorem wasTheChangeApplied_cited : (answerWasTheChangeApplied lang record).Cited := by
  intro draft hdraft
  obtain ⟨action, -, heq⟩ := List.mem_map.mp hdraft
  obtain rfl := Draft.claim.inj heq
  exact List.cons_ne_nil _ _

/-- The answers of one claim that has what it cites from elsewhere. -/
theorem borrowed_cited (front : List Draft) {templateId : String} {values : Values} {citations : List Citation}
    (hfront : ∀ draft, .claim draft ∉ front) (hcited : citations ≠ []) :
    Answered.Cited (front ++ [.claim ⟨templateId, incidentId, values, citations⟩], none) := by
  intro draft hdraft
  obtain hmem | hclaim := List.mem_append.mp hdraft
  · exact absurd hmem (hfront draft)
  · obtain rfl := Draft.claim.inj (List.mem_singleton.mp hclaim)
    exact hcited

/-- Only the unfounded answers draft a claim that cites nothing. -/
theorem answer_cited (hanswer : answer lang incidentId record questionId = some answered)
    (hfounded : ¬Unfounded lang record questionId) : answered.Cited := by
  unfold Unfounded at hfounded
  push Not at hfounded
  obtain ⟨hverification, hdownstream⟩ := hfounded
  have hmem := answer_mem hanswer
  simp only [answers, List.mem_cons, Prod.mk.injEq, List.not_mem_nil, or_false] at hmem
  rcases hmem with ⟨-, rfl⟩ | ⟨-, rfl⟩ | ⟨hfixed, rfl⟩ | ⟨-, rfl⟩ | ⟨-, rfl⟩ | ⟨-, rfl⟩ | ⟨hlost, rfl⟩ |
    ⟨haffected, rfl⟩ | ⟨-, rfl⟩ | ⟨-, rfl⟩
  · exact whereAreWe_cited
  · exact isItClosed_cited
  · exact borrowed_cited [_] (by simp) (hverification (.inl hfixed))
  · exact whatHappened_cited
  · exact framed_cited (fun _ => List.cons_ne_nil _ _)
  · exact whatNeedsMe_cited
  · exact borrowed_cited [] (by simp) (hverification (.inr hlost))
  · exact borrowed_cited [] (by simp) (hdownstream haffected)
  · exact framed_cited (fun _ => List.cons_ne_nil _ _)
  · exact wasTheChangeApplied_cited

theorem incidents_cited {matched : Question} {incidents : List String}
    (hdraft : .claim draft ∈ (composeIncidents matched incidents).drafts) :
    draft.citations ≠ [] := by
  unfold composeIncidents at hdraft
  split at hdraft
  · cases hdraft
  obtain hframe | hclaim := List.mem_cons.mp hdraft
  · cases hframe
  obtain ⟨incident, -, hmem⟩ := List.mem_flatMap.mp hclaim
  unfold crossRecordDrafts at hmem
  split at hmem
  · obtain rfl := Draft.claim.inj (List.mem_singleton.mp hmem)
    exact List.cons_ne_nil _ _
  · simp only [incidentClaim, List.mem_cons, Draft.claim.injEq, List.not_mem_nil, or_false] at hmem
    rcases hmem with rfl | rfl <;> exact List.cons_ne_nil _ _
/-- The claims that are held where nothing is cited. -/
def heldUncited : List ClaimTemplate := [recoveryVerified, dataLossAbsent, blastRadiusContained]

/-- A holding form needs no record, so the gate holds such a claim without reading any. -/
theorem uncited_held {subjectRef : String} {values : Values} {template : ClaimTemplate}
    (h : template ∈ heldUncited) :
    ∃ reason claim filled, claim.outcome = .held ∧ claim.citations = [] ∧
      composeClaim lang claimTemplates ⟨template.id, subjectRef, values, []⟩ =
        .ask (.record .held reason) (fun _ => .done (.ok (claim, filled))) := by
  simp only [heldUncited, List.mem_cons, List.not_mem_nil, or_false] at h
  rcases h with rfl | rfl | rfl
  · exact ⟨_, _, _, rfl, rfl, rfl⟩
  · exact ⟨_, _, _, rfl, rfl, rfl⟩
  · exact ⟨_, _, _, rfl, rfl, rfl⟩

/-- An unfounded answer ends in such a claim, after nothing but a lead. -/
theorem answer_unfounded (h : Unfounded lang record questionId) :
    ∃ answered front template values, answer lang incidentId record questionId = some answered ∧
      (front = [] ∨ front = [.connective "LEAD_IN" "Here is what I can confirm."]) ∧ template ∈ heldUncited ∧
      answered.1 = front ++ [.claim ⟨template.id, incidentId, values, []⟩] := by
  rcases h with ⟨rfl | rfl, hnone⟩ | ⟨rfl, hnone⟩
  · have hshape : (answerIsItFixed lang incidentId record).1 =
        [_, .claim ⟨recoveryVerified.id, incidentId, _, verificationCitation lang record⟩] := rfl
    rw [hnone] at hshape
    exact ⟨_, [_], recoveryVerified, _, rfl, .inr rfl, by decide, hshape⟩
  · have hshape : (answerWasDataLost lang incidentId record).1 =
        [.claim ⟨dataLossAbsent.id, incidentId, _, verificationCitation lang record⟩] := rfl
    rw [hnone] at hshape
    exact ⟨_, [], dataLossAbsent, _, rfl, .inl rfl, by decide, hshape⟩
  · have hshape : (answerIsAnythingElseAffected lang incidentId record).1 =
        [.claim ⟨blastRadiusContained.id, incidentId, _, downstreamCitations lang record⟩] := rfl
    rw [hnone] at hshape
    exact ⟨_, [], blastRadiusContained, _, rfl, .inl rfl, by decide, hshape⟩

end Drafts

section Parts

variable {env : TurnSettings} {draft : ClaimDraft} {claim : ComposedClaim} {values : Values} {s : Session}
  {drafts : List Draft} {parts : List Part} {part : Part}

/-- Each part of the gate is for everyone, or carries a claim that was drafted and delivered. -/
theorem gate_parts (hpinned : s.Pinned env.toSurroundings) (hpart : part ∈ (gate env drafts parts s).2.1) :
    part ∈ parts ∨ part.accessMode = .systemPublic ∨
      ∃ draft claim values sequence, .claim draft ∈ drafts ∧
        Liaison.composeClaim env.platform.lang env.registry.templates env.contained draft = .ok (claim, values) ∧
        claim.outcome ≠ .suppressed ∧ part = claimPart claim sequence env.classification := by
  induction drafts generalizing parts s with
  | nil => exact .inl hpart
  | cons first rest ih =>
    -- What holds of the parts of the later drafts holds of them here.
    have hlater : ∀ {parts : List Part} {s : Session}, s.Pinned env.toSurroundings →
        part ∈ (gate env rest parts s).2.1 → part ∈ parts ∨ part.accessMode = .systemPublic ∨
        ∃ draft claim values sequence, .claim draft ∈ first :: rest ∧
          Liaison.composeClaim env.platform.lang env.registry.templates env.contained draft =
            .ok (claim, values) ∧
          claim.outcome ≠ .suppressed ∧ part = claimPart claim sequence env.classification := by
      intro parts s hpinned hmem
      obtain hmem | hpublic | ⟨draft, claim, values, sequence, hdraft, hclaim⟩ := ih hpinned hmem
      · exact .inl hmem
      · exact .inr (.inl hpublic)
      · exact .inr (.inr ⟨draft, claim, values, sequence, List.mem_cons_of_mem _ hdraft, hclaim⟩)
    cases first with
    | connective templateId phrase =>
      simp only [gate] at hpart
      split at hpart
      · exact .inl hpart
      · obtain hmem | hrest := hlater hpinned hpart
        · obtain hmem | hnew := List.mem_append.mp hmem
          · exact .inl hmem
          · obtain rfl := List.mem_singleton.mp hnew
            exact .inr (.inl rfl)
        · exact .inr hrest
    | claim draft =>
      simp only [gate] at hpart
      have hkept : ((composeClaim env.platform.lang env.registry.templates draft).run env.forVerification s).2.Pinned
          env.toSurroundings :=
        Program.run_keeps (I := Session.Pinned env.toSurroundings) (fun call _ => verification_pinned call) hpinned
      split at hpart
      · exact .inl hpart
      · exact .inl hpart
      · rename_i claim values s' hrun
        rw [hrun] at hkept
        have hclaim := Program.value_of_run (gatingAnswer env.contained) (I := Session.Pinned env.toSurroundings)
          (fun call _ => verification_pinned call)
          (fun call _ _ hpinned hanswer => verification_honest call hpinned hanswer) hpinned hrun
        rw [value_composeClaim] at hclaim
        split at hpart
        · exact hlater hkept hpart
        · rename_i hdelivered
          obtain hmem | hrest := hlater hkept hpart
          · obtain hmem | hnew := List.mem_append.mp hmem
            · exact .inl hmem
            · exact .inr (.inr ⟨draft, claim, values, _, List.mem_cons_self, hclaim.symm, hdelivered,
                List.mem_singleton.mp hnew⟩)
          · exact .inr hrest

/-- A delivered claim that cites something cites records of the grant alone. -/
theorem claimPart_visible {participants : List String} {sequence : Nat}
    (hclaim : Liaison.composeClaim env.platform.lang env.registry.templates env.contained draft =
      .ok (claim, values)) (hdelivered : claim.outcome ≠ .suppressed) (hcites : draft.citations ≠ []) :
    readerMaySee (claimPart claim sequence env.classification) env.grant.principal env.resolveAuthorizedRecords
      participants = true := by
  obtain ⟨-, -, hresolves, -⟩ := composeClaim_delivered hclaim hdelivered
  have hcitations := composeClaim_citations hclaim hdelivered
  simp only [readerMaySee, claimPart, accessSetFromClaim, hcitations, Bool.and_eq_true, Bool.not_eq_true',
    List.isEmpty_eq_false_iff, ne_eq, List.map_eq_nil_iff, List.all_map, List.all_eq_true]
  refine ⟨hcites, fun citation hcitation => ?_⟩
  have hread := hresolves citation hcitation
  unfold ProjectionReader.cited Surroundings.contained Surroundings.readWithin at hread
  split at hread
  · assumption
  · cases hread

/-- A claim that cites nothing is visible to no one. -/
theorem claimPart_hidden {principal : String} {records : List RecordKey} {participants : List String}
    {sequence : Nat} (h : claim.citations = []) :
    readerMaySee (claimPart claim sequence env.classification) principal records participants = false := by
  simp [readerMaySee, claimPart, accessSetFromClaim, h]

theorem closing_parts {composition : Composition} (hpart : part ∈ closing env composition parts) :
    part ∈ parts ∨ part.accessMode = .systemPublic := by
  simp only [closing, List.mem_append, Option.mem_toList, Option.map_eq_some_iff] at hpart
  rcases hpart with (hmem | ⟨hold, -, rfl⟩) | ⟨escalation, -, rfl⟩
  · exact .inl hmem
  · exact .inr rfl
  · exact .inr rfl

/-- What is added to the parts of the gate is for everyone. -/
theorem gated_parts {composition : Composition} {turn : TurnResult} (h : gated env composition s = .ok turn) :
    (∀ part ∈ (gate env composition.drafts [] s).2.1, part ∈ turn.parts) ∧
      ∀ part ∈ turn.parts, part ∈ (gate env composition.drafts [] s).2.1 ∨ part.accessMode = .systemPublic := by
  unfold gated at h
  split at h
  · cases h
  · rename_i message parts s' hgate
    obtain rfl := Except.ok.inj h
    rw [hgate]
    refine ⟨fun part hpart => List.mem_append_left _ hpart, fun part hpart => ?_⟩
    obtain hmem | hnew := List.mem_append.mp hpart
    · exact .inl hmem
    · obtain rfl := List.mem_singleton.mp hnew
      exact .inr rfl
  · rename_i parts s' hgate
    obtain rfl := Except.ok.inj h
    rw [hgate]
    refine ⟨fun part hpart => ?_, fun part hpart => closing_parts hpart⟩
    exact List.mem_append_left _ (List.mem_append_left _ hpart)

/-- What a turn of the enumerated composer does: it tells everyone why it stopped, or it gates what was
composed of the grant's records. -/
theorem enumerated_turn {question : String} {anchor : Anchor} {providerInput : Option String} {turn : TurnResult}
    (h : runTurn env (enumeratedComposer env.platform) question anchor providerInput = .ok turn) :
    (∀ part ∈ turn.parts, part.accessMode = .systemPublic) ∨
      ∃ s, (enumeratedComposer env.platform question anchor providerInput).run env.granted .start =
          (.ok ((enumeratedComposer env.platform question anchor providerInput).value env.draftingAnswer), s) ∧
        env.ceilings.exceededBy s.usage = none ∧
        gated env ((enumeratedComposer env.platform question anchor providerInput).value env.draftingAnswer) s =
          .ok turn := by
  have hplain := @enumerated_plain env.platform env.draftingAnswer question providerInput anchor
  unfold runTurn at h
  split at h
  · obtain rfl := Except.ok.inj h
    refine .inl (fun part hpart => ?_)
    obtain rfl := List.mem_singleton.mp hpart
    rfl
  · rename_i composition s hrun
    obtain ⟨rfl, -⟩ := granted_run hrun
    rw [hplain.charged] at h
    unfold assembled at h
    split at h
    · obtain rfl := Except.ok.inj h
      refine .inl (fun part hpart => ?_)
      obtain rfl := List.mem_singleton.mp hpart
      rfl
    · rename_i hlooped
      split at h
      · obtain rfl := Except.ok.inj h
        refine .inl (fun part hpart => ?_)
        obtain rfl := List.mem_singleton.mp hpart
        rfl
      · rename_i hwithin
        refine .inr ⟨s, hrun, hwithin, ?_⟩
        unfold replied parkedOrGated at h
        rw [hplain.screeningBlocked, hplain.replyIntent, hplain.parkedRequest] at h
        exact h

/-- A claim that cites nothing gets its part from the gate. -/
theorem gate_uncited (hregistry : env.registry = liaisonRegistry) {front : List Draft} {template : ClaimTemplate}
    {subjectRef : String} (htemplate : template ∈ heldUncited)
    (hfront : front = [] ∨ front = [.connective "LEAD_IN" "Here is what I can confirm."]) :
    ∃ claim sequence, claim.citations = [] ∧ claimPart claim sequence env.classification ∈
      (gate env (front ++ [.claim ⟨template.id, subjectRef, values, []⟩]) [] s).2.1 := by
  obtain ⟨reason, claim, filled, hheld, hcitations, hclaim⟩ :=
    @uncited_held env.platform.lang subjectRef values template htemplate
  have hgate : ∀ parts, claimPart claim parts.length env.classification ∈
      (gate env [.claim ⟨template.id, subjectRef, values, []⟩] parts s).2.1 := by
    intro parts
    have htemplates : env.registry.templates = claimTemplates := by rw [hregistry]; rfl
    simp [gate, htemplates, hclaim, Program.run, Surroundings.forVerification, hheld]
  rcases hfront with rfl | rfl
  · exact ⟨claim, _, hcitations, hgate []⟩
  · have hlead : env.registry.render env.platform.lang "LEAD_IN" "Here is what I can confirm." =
        .ok "Here is what I can confirm." := by rw [hregistry]; rfl
    refine ⟨claim, 1, hcitations, ?_⟩
    rw [List.singleton_append, gate, hlead]
    exact hgate _

end Parts

section Turns

variable {env : TurnSettings} {question : String} {anchor : Anchor} {providerInput : Option String}
  {turn : TurnResult} {incidentId : String} {s : Session} {draft : ClaimDraft}

/-- The run of the composer about an incident is one read. -/
theorem enumerated_run_incident :
    (enumeratedComposer env.platform question (.record ("incident", incidentId)) providerInput).run env.granted s =
      match env.complaint s (.read "incident" incidentId) with
      | some message => (.error message, s.asked)
      | none => (.ok (composeAbout env.platform question incidentId (env.contained "incident" incidentId)),
          s.drafted (.read "incident" incidentId)) := by
  show Program.run env.granted (.ask (.read "incident" incidentId) _) s = _
  cases hcomplaint : env.complaint s (.read "incident" incidentId) with
  | some message =>
    have hanswer : env.granted (.read "incident" incidentId) s = (.error message, s.asked) := by
      unfold Surroundings.granted Drafting.arguments
      simp only [hcomplaint]
    simp only [Program.run, hanswer]
  | none =>
    have hanswer : env.granted (.read "incident" incidentId) s =
        (.ok (env.draftingAnswer (.read "incident" incidentId)), s.drafted (.read "incident" incidentId)) := by
      unfold Surroundings.granted Drafting.arguments
      simp only [hcomplaint]
    simp only [Program.run, hanswer]
    rfl

/-- The drafts of a turn that is gated cite something, unless its answer is uncited. -/
theorem drafts_cited {composition : Composition} (hcited : ¬Uncited env question anchor)
    (hrun : (enumeratedComposer env.platform question anchor providerInput).run env.granted .start =
      (.ok composition, s))
    (hwithin : env.ceilings.exceededBy s.usage = none) (hdraft : .claim draft ∈ composition.drafts) :
    draft.citations ≠ [] := by
  obtain ⟨rfl, -⟩ := granted_run hrun
  obtain ⟨incidentId, record, matched, answered, hincident, hread, hmatched, hanswer, hmem⟩ |
    ⟨-, matched, incidents, hmem⟩ := enumerated_drafts hdraft
  · obtain rfl := incidentOf_some hincident
    rw [enumerated_run_incident] at hrun
    split at hrun
    · cases hrun
    rename_i hcomplaint
    obtain ⟨-, rfl⟩ := Prod.mk.inj hrun
    refine answer_cited hanswer (fun hunfounded => hcited ?_) draft hmem
    exact ⟨(within_one_read _).mp hwithin, incidentId, record, matched, hincident, hcomplaint, hread, hmatched,
      hunfounded⟩
  · exact incidents_cited hmem

/-- Where the answer cites something, its reader sees it. -/
theorem visible_of_cited (h : runTurn env (enumeratedComposer env.platform) question anchor providerInput = .ok turn)
    (hcited : ¬Uncited env question anchor) : OwnAnswerVisible env turn := by
  intro participants part hpart hset
  have hrefuse : part.accessMode ≠ .systemPublic := by
    rw [hset]
    decide
  obtain hpublic | ⟨s, hrun, hwithin, hgated⟩ := enumerated_turn h
  · exact absurd (hpublic part hpart) hrefuse
  obtain hmem | hpublic := (gated_parts hgated).2 part hpart
  · obtain hnone | hpublic | ⟨draft, claim, values, sequence, hdraft, hclaim, hdelivered, rfl⟩ :=
      gate_parts (pinned_of_fresh (drafting_fresh hrun)) hmem
    · cases hnone
    · exact absurd hpublic hrefuse
    · exact claimPart_visible hclaim hdelivered (drafts_cited hcited hrun hwithin hdraft)
  · exact absurd hpublic hrefuse

/-- An uncited answer is hidden from its own reader. -/
theorem hidden_of_uncited (hregistry : env.registry = liaisonRegistry)
    (h : runTurn env (enumeratedComposer env.platform) question anchor providerInput = .ok turn)
    (huncited : Uncited env question anchor) : ¬OwnAnswerVisible env turn := by
  obtain ⟨hceiling, incidentId, record, matched, hincident, hcomplaint, hread, hmatched, hunfounded⟩ := huncited
  obtain rfl := incidentOf_some hincident
  obtain ⟨answered, front, template, values, hanswer, hfront, htemplate, hdrafts⟩ :=
    @answer_unfounded env.platform.lang incidentId record matched.id hunfounded
  unfold runTurn at h
  rw [enumerated_run_incident, hcomplaint] at h
  dsimp only at h
  have hplain := @composeAbout_plain env.platform question incidentId (env.contained "incident" incidentId)
  rw [hplain.charged, hplain.assembled rfl ((within_one_read _).mpr hceiling)] at h
  obtain ⟨hkept, -⟩ := gated_parts h
  rw [hread] at hkept
  simp only [composeAbout, composeRecord, hmatched, hanswer, hdrafts] at hkept
  obtain ⟨claim, sequence, hcitations, hpart⟩ := @gate_uncited env values
    (Session.start.drafted (.read "incident" incidentId)) hregistry front template incidentId htemplate hfront
  intro hvisible
  have hsees := hvisible [] _ (hkept _ hpart) rfl
  rw [claimPart_hidden hcitations] at hsees
  cases hsees

/-- The parts of an answer are for everyone or depend on records. -/
theorem access_modes (h : runTurn env (enumeratedComposer env.platform) question anchor providerInput = .ok turn)
    {part : Part} (hpart : part ∈ turn.parts) :
    part.accessMode = .systemPublic ∨ part.accessMode = .recordSet := by
  obtain hpublic | ⟨s, hrun, -, hgated⟩ := enumerated_turn h
  · exact .inl (hpublic part hpart)
  obtain hmem | hpublic := (gated_parts hgated).2 part hpart
  · obtain hnone | hpublic | ⟨draft, claim, values, sequence, -, -, -, rfl⟩ :=
      gate_parts (pinned_of_fresh (drafting_fresh hrun)) hmem
    · cases hnone
    · exact .inl hpublic
    · exact .inr rfl
  · exact .inl hpublic

/-- Nothing of an answer is replaced for its own reader if and only if each part is visible. -/
theorem unreplaced_iff (h : runTurn env (enumeratedComposer env.platform) question anchor providerInput = .ok turn) :
    (∀ participants, visibleParts turn.parts env.grant.principal env.resolveAuthorizedRecords participants =
      turn.parts) ↔ OwnAnswerVisible env turn := by
  constructor
  · intro hsame participants part hpart hset
    have hpart' := List.map_inj_left.mp ((hsame participants).trans (List.map_id _).symm) part hpart
    dsimp only [id] at hpart'
    split at hpart'
    · assumption
    · rw [← hpart'] at hset
      cases hset
  · intro hvisible participants
    refine (List.map_inj_left.mpr (fun part hpart => ?_)).trans (List.map_id _)
    have hsees : readerMaySee part env.grant.principal env.resolveAuthorizedRecords participants = true := by
      rcases access_modes h hpart with hpublic | hset
      · unfold readerMaySee
        rw [hpublic]
      · exact hvisible participants part hpart hset
    rw [if_pos hsees]
    rfl

/-- The reader of an answer sees all of it, and nothing of it is replaced, if and only if the answer cites
something: it is not that of an incident that was read, to a question of which nothing is on record. -/
theorem own_answer_visible_iff (hregistry : env.registry = liaisonRegistry)
    (h : runTurn env (enumeratedComposer env.platform) question anchor providerInput = .ok turn) :
    (OwnAnswerVisible env turn ↔ ¬Uncited env question anchor) ∧
      ((∀ participants, visibleParts turn.parts env.grant.principal env.resolveAuthorizedRecords participants =
        turn.parts) ↔ ¬Uncited env question anchor) := by
  have hvisible : OwnAnswerVisible env turn ↔ ¬Uncited env question anchor :=
    ⟨fun hvisible huncited => hidden_of_uncited hregistry h huncited hvisible, visible_of_cited h⟩
  exact ⟨hvisible, (unreplaced_iff h).trans hvisible⟩

end Turns

theorem improve_unscored {env : Platform} {words : List (List Char)} {state : Option String}
    {best : Option (Nat × Question)} {question : Question} (h : question.score env words = 0) :
    improve env words state best question = best := by
  unfold improve
  simp [h]

/-- Questions of which no keyword is asked change nothing. -/
theorem foldl_improve_unscored {env : Platform} {words : List (List Char)} {state : Option String}
    {best : Option (Nat × Question)} {asked : List Question} (h : ∀ question ∈ asked, question.score env words = 0) :
    asked.foldl (improve env words state) best = best := by
  induction asked with
  | nil => rfl
  | cons question asked ih =>
    obtain ⟨hscore, hrest⟩ := List.forall_mem_cons.mp h
    rw [List.foldl_cons, improve_unscored hscore]
    exact ih hrest

theorem fixed_matched (record : Record) : matchQuestion asciiPlatform "Is it fixed?" (some record) = some isItFixed := by
  have hwords : words asciiPlatform "Is it fixed?" = [['i', 's'], ['i', 't'], ['f', 'i', 'x', 'e', 'd']] := by
    decide +kernel
  have hscore : isItFixed.score asciiPlatform [['i', 's'], ['i', 't'], ['f', 'i', 'x', 'e', 'd']] = 1 := by
    decide +kernel
  have hothers : ∀ question ∈ questions.tail,
      question.score asciiPlatform [['i', 's'], ['i', 't'], ['f', 'i', 'x', 'e', 'd']] = 0 := by
    unfold questions
    rw [List.tail_cons]
    iterate 9 refine List.forall_mem_cons.mpr ⟨by decide +kernel, ?_⟩
    exact List.forall_mem_nil _
  have hfirst : improve asciiPlatform [['i', 's'], ['i', 't'], ['f', 'i', 'x', 'e', 'd']]
      ((some record).map (recordState asciiPlatform)) none isItFixed = some (1, isItFixed) := by
    unfold improve
    rw [hscore]
    rfl
  have hquestions : questions = isItFixed :: questions.tail := rfl
  unfold matchQuestion
  rw [hwords, hquestions]
  dsimp only
  rw [if_neg (by decide), List.foldl_cons, hfirst, foldl_improve_unscored hothers]
  rfl

theorem mitigated_read (records : List (RecordKey × Record)) :
    (incidentTurn (mitigated :: records)).contained "incident" "INC-1" = some mitigated.2 := by
  unfold Surroundings.contained Surroundings.readWithin
  rw [incidentTurn_authorized]
  rfl

theorem fixed_uncited : Uncited (incidentTurn [mitigated]) "Is it fixed?" (.record ("incident", "INC-1")) :=
  ⟨by decide, "INC-1", mitigated.2, isItFixed, rfl, rfl, mitigated_read [], fixed_matched _, .inl ⟨.inl rfl, rfl⟩⟩

/-- The question about the mitigated incident is answered. -/
theorem fixed_answered :
    ∃ turn, runTurn (incidentTurn [mitigated]) (enumeratedComposer asciiPlatform) "Is it fixed?"
      (.record ("incident", "INC-1")) none = .ok turn := by
  have hplain := @composeAbout_plain (incidentTurn [mitigated]).platform "Is it fixed?" "INC-1"
    ((incidentTurn [mitigated]).contained "incident" "INC-1")
  obtain ⟨turn, hturn, -⟩ := @gated_covered (incidentTurn [mitigated])
    (Session.start.drafted (.read "incident" "INC-1"))
    ((enumeratedComposer asciiPlatform "Is it fixed?" (.record ("incident", "INC-1")) none).value
      (incidentTurn [mitigated]).draftingAnswer) rfl (incidentTurn_covers _ _ _)
    (fun item hitem => enumerated_renders hitem) rfl
  have hvalue : (enumeratedComposer asciiPlatform "Is it fixed?" (.record ("incident", "INC-1")) none).value
      (incidentTurn [mitigated]).draftingAnswer =
        composeAbout (incidentTurn [mitigated]).platform "Is it fixed?" "INC-1"
          ((incidentTurn [mitigated]).contained "incident" "INC-1") := enumerated_value_incident
  rw [hvalue] at hturn
  refine ⟨turn, ?_⟩
  unfold runTurn
  rw [show enumeratedComposer asciiPlatform = enumeratedComposer (incidentTurn [mitigated]).platform from rfl,
    enumerated_run_incident, show (incidentTurn [mitigated]).complaint .start (.read "incident" "INC-1") = none from rfl]
  dsimp only
  rw [hplain.charged, hplain.assembled rfl ((within_one_read _).mpr (by decide))]
  exact hturn

/-- The answer to a question of which nothing is on record is hidden from the one who asked. -/
theorem fixed_hidden :
    ∃ turn, runTurn (incidentTurn [mitigated]) (enumeratedComposer asciiPlatform) "Is it fixed?"
        (.record ("incident", "INC-1")) none = .ok turn ∧
      ¬OwnAnswerVisible (incidentTurn [mitigated]) turn ∧
      ¬∀ participants, visibleParts turn.parts (incidentTurn [mitigated]).grant.principal
        (incidentTurn [mitigated]).resolveAuthorizedRecords participants = turn.parts := by
  obtain ⟨turn, hturn⟩ := fixed_answered
  obtain ⟨hvisible, hkept⟩ := @own_answer_visible_iff (incidentTurn [mitigated]) _ _ _ _ rfl hturn
  exact ⟨turn, hturn, fun h => hvisible.mp h fixed_uncited, fun h => hkept.mp h fixed_uncited⟩

theorem own_answer_hidden :
    ¬∀ (env : TurnSettings) (question : String) (anchor : Anchor) (turn : TurnResult),
      env.registry = liaisonRegistry →
      runTurn env (enumeratedComposer env.platform) question anchor none = .ok turn →
      OwnAnswerVisible env turn := by
  intro h
  obtain ⟨turn, hturn⟩ := fixed_answered
  exact hidden_of_uncited rfl hturn fixed_uncited (h (incidentTurn [mitigated]) _ _ turn rfl hturn)

end Solvan.Liaison.Turn
