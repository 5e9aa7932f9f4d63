import Solvan.Liaison.Claims

/-! Whether the words of a delivered sentence come from records about its subject. -/
namespace Solvan.Liaison

variable {lang : Language} {reader : ProjectionReader} {draft : ClaimDraft} {template : ClaimTemplate}
  {values : Values} {predicate : Predicate}

/-- A slot of the sentence that a record fills. -/
def ClaimTemplate.Bound (template : ClaimTemplate) (slot recordType field : String) : Prop :=
  slot ∈ template.slots ∧ template.slotSources.lookup slot = some (.record recordType field)

/-- A cited record about the subject stores the value. -/
def Supported (lang : Language) (reader : ProjectionReader) (draft : ClaimDraft)
    (recordType field value : String) : Prop :=
  ∃ citation ∈ draft.citations, citation.recordType = recordType ∧
    ∃ record, reader.cited citation = some record ∧ matchesSubject lang record draft.subjectRef = true ∧
      ∃ stored, record.lookup field = some stored ∧ lang.str stored = value

def Grounded (lang : Language) (reader : ProjectionReader) (draft : ClaimDraft) (template : ClaimTemplate)
    (values : Values) : Prop :=
  ∀ slot recordType field, template.Bound slot recordType field →
    ∃ value, values.lookup slot = some value ∧ Supported lang reader draft recordType field value

/-- What is delivered of a draft is grounded in records about its subject. -/
def Relevant (lang : Language) (reader : ProjectionReader) (draft : ClaimDraft) : Prop :=
  ∀ claim values, composeClaim lang claimTemplates reader draft = .ok (claim, values) →
    claim.outcome ≠ .suppressed → ∀ template ∈ claimTemplates, template.id = claim.templateId →
      Grounded lang reader draft template values

/-- The first cited record of some slot stores what no cited record about the subject does. -/
def Borrowed (lang : Language) (reader : ProjectionReader) (draft : ClaimDraft)
    (template : ClaimTemplate) : Prop :=
  ∃ slot recordType field citation record stored, template.Bound slot recordType field ∧
    first reader draft.citations recordType = some (citation, record) ∧ record.lookup field = some stored ∧
      stored.blank = false ∧ ¬Supported lang reader draft recordType field (lang.str stored)

/-- Verifiers that do not look at the record that fills the slots. -/
def Predicate.loose (predicate : Predicate) : Bool :=
  predicate == .recordFieldEquals || predicate == .always

/-- Verifiers that compare the id of a record with the subject. -/
def Predicate.byId (predicate : Predicate) : Bool :=
  predicate == .receiptReconciled || predicate == .terminalState || predicate == .humanAttentionPending

/-- The type of the records that a verifier looks at. -/
def Predicate.recordType : Predicate → Option String
  | .verificationPassed => some "verification_run"
  | .receiptReconciled => some "action"
  | .terminalState | .humanAttentionPending => some "incident"
  | .evidenceCovers => some "evidence_item"
  | .recordFieldEquals | .recordTextEquals | .always => none

/-- The slots of a template are filled from the records that its verifier looks at, if it looks at any. -/
def ClaimTemplate.filledFromVerified (template : ClaimTemplate) : Bool :=
  template.slots.all (fun slot =>
    match template.slotSources.lookup slot with
    | some (.record recordType _) => template.predicate.recordType == some recordType
    | _ => true)

theorem filled_from_verified : ∀ template ∈ claimTemplates, template.predicate.loose = false →
    template.filledFromVerified = true := by
  decide

theorem bound_type (htemplate : template ∈ claimTemplates) (hloose : template.predicate.loose = false)
    {slot recordType field : String} (hbound : template.Bound slot recordType field) :
    template.predicate.recordType = some recordType := by
  have hslot := List.all_eq_true.mp (filled_from_verified template htemplate hloose) slot hbound.1
  rw [hbound.2] at hslot
  simpa using hslot

theorem bound_of_byId : ∀ template ∈ claimTemplates, template.predicate.byId = true →
    ∃ slot ∈ template.slots, ∃ recordType field,
      template.slotSources.lookup slot = some (.record recordType field) := by
  intro template htemplate hbyId
  simp only [claimTemplates, List.mem_cons, List.not_mem_nil, or_false] at htemplate
  rcases htemplate with rfl | rfl | rfl | rfl | rfl | rfl | rfl | rfl | rfl | rfl | rfl | rfl | rfl | rfl | rfl
  all_goals first
    | exact absurd hbyId (by decide)
    | exact ⟨_, List.mem_cons_self, _, _, rfl⟩
    | exact ⟨_, List.mem_cons_of_mem _ List.mem_cons_self, _, _, rfl⟩

/-- A verifier is satisfied by the first cited record of its type only if that is about the subject. -/
theorem about_of_satisfied {recordType : String} {citation : Citation} {record : Record} {claim : Assertion}
    (hsatisfied : (predicate.verifier lang claim).satisfied = true)
    (htype : predicate.recordType = some recordType)
    (hfirst : first claim.reader claim.citations recordType = some (citation, record))
    (hsubject : predicate.byId = true → claim.subjectRef ≠ "") :
    matchesSubject lang record claim.subjectRef = true := by
  have hbyId : lang.get record "id" = claim.subjectRef → predicate.byId = true →
      matchesSubject lang record claim.subjectRef = true :=
    fun hid hby => matches_of_id hid (hsubject hby)
  cases predicate with
  | verificationPassed =>
    obtain rfl := Option.some.inj htype
    cases habout : matchesSubject lang record claim.subjectRef with
    | true => rfl
    | false =>
      simp [Predicate.verifier, verificationPassed, hfirst, habout, PredicateResult.failed] at hsatisfied
  | receiptReconciled =>
    obtain rfl := Option.some.inj htype
    refine hbyId ?_ rfl
    by_contra hother
    simp [Predicate.verifier, receiptReconciled, hfirst, hother, PredicateResult.failed] at hsatisfied
  | terminalState =>
    obtain rfl := Option.some.inj htype
    refine hbyId ?_ rfl
    by_contra hother
    simp [Predicate.verifier, terminalState, hfirst, hother, PredicateResult.failed] at hsatisfied
  | humanAttentionPending =>
    obtain rfl := Option.some.inj htype
    refine hbyId ?_ rfl
    by_contra hother
    simp [Predicate.verifier, humanAttentionPending, hfirst, hother, PredicateResult.failed] at hsatisfied
  | evidenceCovers =>
    obtain rfl := Option.some.inj htype
    obtain ⟨hcited, hevidence, hread⟩ := first_some hfirst
    cases habout : matchesSubject lang record claim.subjectRef with
    | true => rfl
    | false =>
      have hmem : citation ∈ claim.citations.filter (fun citation => citation.recordType == "evidence_item") :=
        List.mem_filter.mpr ⟨hcited, by simpa using hevidence⟩
      have hfailed : (evidenceFailure lang claim citation).isSome = true := by
        simp [evidenceFailure, hread, habout]
      have hsome : ((claim.citations.filter (fun citation => citation.recordType == "evidence_item")).findSome?
          (evidenceFailure lang claim)).isSome = true := by
        rw [List.isSome_findSome?]
        exact List.any_eq_true.mpr ⟨citation, hmem, hfailed⟩
      obtain ⟨reason, hreason⟩ := Option.isSome_iff_exists.mp hsome
      simp only [Predicate.verifier, evidenceCovers, hreason] at hsatisfied
      split at hsatisfied <;> cases hsatisfied
  | recordFieldEquals => cases htype
  | recordTextEquals => cases htype
  | always => cases htype

theorem supported_of_first {recordType field : String} {citations : List Citation} {citation : Citation}
    {record : Record} {stored : Value} (hcited : ∀ citation ∈ citations, citation ∈ draft.citations)
    (hfirst : first reader citations recordType = some (citation, record))
    (habout : matchesSubject lang record draft.subjectRef = true) (hstored : record.lookup field = some stored) :
    Supported lang reader draft recordType field (lang.str stored) := by
  obtain ⟨hmem, htype, hread⟩ := first_some hfirst
  exact ⟨citation, hcited citation hmem, htype, record, hread, habout, stored, hstored, rfl⟩

/-- A holding form is filled from records about the subject alone. -/
theorem held_grounded {reason : String} (hfilled : resolveSlots lang template draft reader
      (relevantCitations lang reader draft.citations draft.subjectRef) reason = .ok values) :
    Grounded lang reader draft template values := by
  rintro slot recordType field ⟨hslot, hsource⟩
  obtain ⟨value, hvalue, hlookup⟩ := resolveSlots_slot hfilled hslot
  obtain ⟨citation, record, stored, hfirst, hstored, -, rfl⟩ := (fillSlot_record hsource).mp hvalue
  have habout : matchesSubject lang record draft.subjectRef = true := by
    obtain ⟨hmem, -, hread⟩ := first_some hfirst
    have hrelevant := (List.mem_filter.mp hmem).2
    rw [hread] at hrelevant
    simpa using hrelevant
  exact ⟨_, hlookup, supported_of_first (fun _ hmem => (List.mem_filter.mp hmem).1) hfirst habout hstored⟩

/-- What is verified is grounded, unless a loose verifier let words of another record through. -/
theorem Released.grounded (h : Released lang reader draft template values) (htemplate : template ∈ claimTemplates)
    (hloose : template.predicate.loose = true → ¬Borrowed lang reader draft template)
    (hsubject : template.predicate.byId = true → draft.subjectRef ≠ "") :
    Grounded lang reader draft template values := by
  rintro slot recordType field ⟨hslot, hsource⟩
  obtain ⟨value, hvalue, hlookup⟩ := resolveSlots_slot h.filled hslot
  obtain ⟨citation, record, stored, hfirst, hstored, hblank, rfl⟩ := (fillSlot_record hsource).mp hvalue
  refine ⟨_, hlookup, ?_⟩
  cases hpredicate : template.predicate.loose with
  | true =>
    by_contra hnone
    exact hloose hpredicate
      ⟨slot, recordType, field, citation, record, stored, ⟨hslot, hsource⟩, hfirst, hstored, hblank, hnone⟩
  | false =>
    have htype := bound_type htemplate hpredicate ⟨hslot, hsource⟩
    exact supported_of_first (fun _ hmem => hmem) hfirst
      (about_of_satisfied h.satisfied htype hfirst hsubject) hstored

/-- The words of all that is delivered come from records about its subject if and only if no released
draft with a loose verifier borrows words from another record, and none with a verifier of ids has an
empty subject. -/
theorem claims_relevant_iff (lang : Language) (reader : ProjectionReader) (draft : ClaimDraft) :
    Relevant lang reader draft ↔
      ∀ template values, claimTemplates.claim draft.templateId = some template →
        Released lang reader draft template values →
          (template.predicate.loose = true → ¬Borrowed lang reader draft template) ∧
            (template.predicate.byId = true → draft.subjectRef ≠ "") := by
  constructor
  · intro hrelevant template values htemplate hreleased
    obtain ⟨hmem, -⟩ := TemplateRegistry.claim_some htemplate
    obtain ⟨claim, hclaim, houtcome, hid⟩ := hreleased.verified htemplate
    have hgrounded := hrelevant claim values hclaim (by rw [houtcome]; decide) template hmem hid.symm
    refine ⟨?_, ?_⟩
    · rintro - ⟨slot, recordType, field, citation, record, stored, hbound, hfirst, hstored, hblank, hnone⟩
      obtain ⟨value, hvalue, hsupported⟩ := hgrounded slot recordType field hbound
      obtain ⟨filled, hfilled, hlookup⟩ := resolveSlots_slot hreleased.filled hbound.1
      obtain rfl : value = filled := Option.some.inj (hvalue.symm.trans hlookup)
      obtain ⟨citation', record', stored', hfirst', hstored', -, rfl⟩ := (fillSlot_record hbound.2).mp hfilled
      obtain ⟨rfl, rfl⟩ := Prod.mk.inj (Option.some.inj (hfirst.symm.trans hfirst'))
      obtain rfl := Option.some.inj (hstored.symm.trans hstored')
      exact hnone hsupported
    · intro hbyId hempty
      obtain ⟨slot, hslot, recordType, field, hsource⟩ := bound_of_byId template hmem hbyId
      obtain ⟨value, -, citation, -, -, record, -, habout, -⟩ := hgrounded slot recordType field ⟨hslot, hsource⟩
      rw [hempty, not_matches_empty] at habout
      cases habout
  · intro hfair claim values hclaim hdelivered template htemplate hid
    obtain ⟨drafted, hdrafted, -, hways⟩ := composeClaim_delivered hclaim hdelivered
    have hsame : ∀ {other : ClaimTemplate}, other ∈ claimTemplates → claim.templateId = other.id →
        other = template := by
      intro other hother heq
      have hfound := claim_self template htemplate
      rw [hid, heq, claim_self other hother] at hfound
      exact Option.some.inj hfound
    rcases hways with ⟨-, hdraftedId, hreleased⟩ | ⟨-, holding, reason, hholding, hholdingId, hfilled⟩
    · obtain rfl := hsame (TemplateRegistry.claim_some hdrafted).1 hdraftedId
      obtain ⟨hloose, hsubject⟩ := hfair drafted values hdrafted hreleased
      exact hreleased.grounded htemplate hloose hsubject
    · obtain rfl := hsame (TemplateRegistry.claim_some hholding).1 hholdingId
      exact held_grounded hfilled

section Example

/-- The language on ASCII texts. -/
def asciiLanguage : Language where
  upper := fun s => String.ofList (s.toList.map Char.toUpper)
  repr := fun s => "'" ++ s ++ "'"
  written := fun _ => ""
  fromisoformat := fun _ => none

/-- An incident that waits for an approval, and a closed one. -/
def twoIncidents : ProjectionReader := fun recordType recordId =>
  if recordType = "incident" then
    if recordId = "inc_a" then some [("id", .str "inc_a"), ("state", .str "AWAITING_APPROVAL")]
    else if recordId = "inc_b" then some [("id", .str "inc_b"), ("state", .str "CLOSED")]
    else none
  else none

/-- A statement about the one, with the other cited. -/
def otherCited : ClaimDraft where
  templateId := "NO_HUMAN_ATTENTION_PENDING"
  subjectRef := "inc_a"
  values := []
  citations := [⟨"incident", "inc_b"⟩]

/-- The gate says of the waiting incident that it is closed. -/
theorem other_incident_said : ¬Relevant asciiLanguage twoIncidents otherCited := by
  have hvalues : Released asciiLanguage twoIncidents otherCited noHumanAttentionPending
      [("subject_label", "inc_a"), ("state", "CLOSED")] :=
    ⟨by unfold ClaimDraft.Resolves; decide +kernel, by decide +kernel, rfl, .inr rfl⟩
  obtain ⟨claim, hclaim, houtcome, hid⟩ := @Released.verified _ claimTemplates _ _ _ _ hvalues (by decide)
  intro hrelevant
  obtain ⟨value, -, citation, hcitation, -, record, hread, habout, -⟩ :=
    hrelevant claim _ hclaim (by rw [houtcome]; decide) noHumanAttentionPending (by decide) hid.symm
      "state" "incident" "state" ⟨by decide, by decide⟩
  obtain rfl := List.mem_singleton.mp hcitation
  obtain rfl : [("id", .str "inc_b"), ("state", .str "CLOSED")] = record := Option.some.inj hread
  revert habout
  decide

end Example

end Solvan.Liaison
