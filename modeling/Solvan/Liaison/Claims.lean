import Solvan.Liaison.Templates

/-! The gate: a drafted claim is verified and rendered, held, or suppressed. -/
namespace Solvan.Liaison
open Solvan.Base

inductive ClaimOutcome where
  | verified | held | suppressed
deriving DecidableEq, Repr

/-- What the model may produce. -/
structure ClaimDraft where
  templateId : String
  subjectRef : String
  values : Values
  citations : List Citation

structure ComposedClaim where
  outcome : ClaimOutcome
  templateId : String
  kind : String
  polarity : Polarity
  subjectRef : String
  sentence : String
  citations : List Citation
  reason : String
  releasingRecord : Option String

/-- One slot of `_resolve_slots`. -/
def fillSlot (lang : Language) (template : ClaimTemplate) (draft : ClaimDraft) (reader : ProjectionReader)
    (citations : List Citation) (holdingReason : String) (slot : String) : Except String String :=
  match template.slotSources.lookup slot with
  | none => .error ("slot " ++ slot ++ " has no source binding")
  | some .subject => .ok draft.subjectRef
  | some .holdingReason => .ok (orElse holdingReason "The releasing record is not present.")
  | some .modelQuoted =>
    let supplied := strip ((draft.values.lookup slot).getD "").toList
    if supplied.isEmpty then .error ("slot " ++ slot ++ " was left empty")
    else .ok (String.ofList supplied)
  | some (.record recordType field) =>
    match first reader citations recordType with
    | none => .error ("no " ++ recordType ++ " is cited for slot " ++ slot)
    | some (_, record) =>
      match (record.lookup field).filter (fun stored => !stored.blank) with
      | none => .error ("the cited " ++ recordType ++ " carries no " ++ field)
      | some stored => .ok (lang.str stored)

/-- `_resolve_slots`: the values, or what is missing -/
def resolveSlots (lang : Language) (template : ClaimTemplate) (draft : ClaimDraft)
    (reader : ProjectionReader) (citations : List Citation) (holdingReason : String) :
    Except String Values :=
  template.slots.mapM (fun slot =>
    (fillSlot lang template draft reader citations holdingReason slot).map (fun value => (slot, value)))

/-- `_suppressed` -/
def suppressed (templateId subjectRef reason : String) : ComposedClaim where
  outcome := .suppressed
  templateId := templateId
  kind := ""
  polarity := .neutral
  subjectRef := subjectRef
  sentence := ""
  citations := []
  reason := reason
  releasingRecord := none

/-- A claim with the slot values that it was rendered from. -/
abbrev Rendered := ComposedClaim × Values

/-- The citations of records that are about the subject. -/
def relevantCitations (lang : Language) (reader : ProjectionReader) (citations : List Citation)
    (subjectRef : String) : List Citation :=
  citations.filter (fun citation =>
    (reader.cited citation).any (fun record => matchesSubject lang record subjectRef))

/-- `_hold` -/
def hold (lang : Language) (registry : TemplateRegistry) (template : ClaimTemplate) (draft : ClaimDraft)
    (citations : List Citation) (reason : String) (reader : ProjectionReader) : Except String Rendered :=
  match registry.claim (template.holdingTemplate.getD "") with
  | none => .error ("unknown claim template " ++ template.holdingTemplate.getD "")
  | some holding =>
    match resolveSlots lang holding draft reader
        (relevantCitations lang reader citations draft.subjectRef) reason with
    | .error _ => .ok (suppressed template.id draft.subjectRef reason, [])
    | .ok values =>
      match holding.render values with
      | .error _ => .ok (suppressed template.id draft.subjectRef reason, [])
      | .ok sentence =>
        .ok ({
          outcome := .held
          templateId := holding.id
          kind := holding.kind
          polarity := holding.polarity
          subjectRef := draft.subjectRef
          sentence := sentence
          citations := citations
          reason := reason
          releasingRecord := template.releasingRecord }, values)

/-- A held kind degrades to its holding form; anything else is withheld. -/
def degrade (lang : Language) (registry : TemplateRegistry) (template : ClaimTemplate) (draft : ClaimDraft)
    (reason : String) (reader : ProjectionReader) : Except String Rendered :=
  if template.held && template.holdingTemplate.any (· != "") then
    hold lang registry template draft draft.citations reason reader
  else .ok (suppressed template.id draft.subjectRef reason, [])

/-- `compose_claim`. Where all citations resolve, the resolved ones are those of the draft. -/
def composeClaim (lang : Language) (registry : TemplateRegistry) (reader : ProjectionReader)
    (draft : ClaimDraft) : Except String Rendered :=
  match registry.claim draft.templateId with
  | none => .ok (suppressed draft.templateId draft.subjectRef "unknown claim template", [])
  | some template =>
    let dangling := draft.citations.filter (fun citation => (reader.cited citation).isNone)
    if !dangling.isEmpty then
      .ok (suppressed template.id draft.subjectRef
        (String.ofList (Nat.toDigits 10 dangling.length) ++ " cited record(s) do not resolve"), [])
    else
      match resolveSlots lang template draft reader draft.citations "" with
      | .error missing => degrade lang registry template draft missing reader
      | .ok values =>
        let result := template.predicate.verifier lang ⟨reader, draft.subjectRef, draft.citations, values⟩
        if !result.satisfied then degrade lang registry template draft result.reason reader
        else if draft.citations.isEmpty && template.predicate != .always then
          .ok (suppressed template.id draft.subjectRef "no citation resolves", [])
        else do
          let sentence ← template.render values
          return ({
            outcome := .verified
            templateId := template.id
            kind := template.kind
            polarity := template.polarity
            subjectRef := draft.subjectRef
            sentence := sentence
            citations := draft.citations
            reason := ""
            releasingRecord := template.releasingRecord }, values)

/-- All citations of a draft resolve. -/
def ClaimDraft.Resolves (draft : ClaimDraft) (reader : ProjectionReader) : Prop :=
  ∀ citation ∈ draft.citations, (reader.cited citation).isSome = true

/-- What `compose_claim` asks of a draft before it says the drafted sentence. -/
structure Released (lang : Language) (reader : ProjectionReader) (draft : ClaimDraft)
    (template : ClaimTemplate) (values : Values) : Prop where
  resolves : draft.Resolves reader
  filled : resolveSlots lang template draft reader draft.citations "" = .ok values
  satisfied : (template.predicate.verifier lang ⟨reader, draft.subjectRef, draft.citations, values⟩).satisfied = true
  founded : draft.citations ≠ [] ∨ template.predicate = .always

section Compose

variable {lang : Language} {registry : TemplateRegistry} {reader : ProjectionReader} {draft : ClaimDraft}
  {template : ClaimTemplate} {citations : List Citation} {reason : String} {values : Values}
  {claim : ComposedClaim}

theorem slots_of_mapM {f : String → Except String String} {slots : List String}
    (h : slots.mapM (fun slot => (f slot).map (fun value => (slot, value))) = .ok values) :
    values.map Prod.fst = slots ∧ (∀ value ∈ values, f value.1 = .ok value.2) ∧
      ∀ slot ∈ slots, ∃ value, f slot = .ok value ∧ values.lookup slot = some value := by
  induction slots generalizing values with
  | nil =>
    obtain rfl := Except.ok.inj h
    exact ⟨rfl, fun value hvalue => (nomatch hvalue), fun slot hslot => nomatch hslot⟩
  | cons slot slots ih =>
    rw [List.mapM_cons] at h
    cases hvalue : f slot with
    | error missing =>
      rw [hvalue] at h
      cases h
    | ok value =>
      rw [hvalue] at h
      cases hrest : slots.mapM (fun slot => (f slot).map (fun value => (slot, value))) with
      | error missing =>
        rw [hrest] at h
        cases h
      | ok rest =>
        rw [hrest] at h
        obtain rfl := Except.ok.inj h
        obtain ⟨hkeys, hfilled, hvalues⟩ := ih hrest
        refine ⟨by simp [hkeys], ?_, fun other hother => ?_⟩
        · intro found hfound
          obtain rfl | hlater := List.mem_cons.mp hfound
          · exact hvalue
          · exact hfilled found hlater
        by_cases heq : other = slot
        · subst heq
          exact ⟨value, hvalue, by simp⟩
        · obtain ⟨found, hfound, hlookup⟩ := hvalues other ((List.mem_cons.mp hother).resolve_left heq)
          have hne : (other == slot) = false := by simpa using heq
          refine ⟨found, hfound, ?_⟩
          rw [List.lookup_cons, hne]
          exact hlookup

/-- A filled slot has the value that its source gives. -/
theorem resolveSlots_slot (h : resolveSlots lang template draft reader citations reason = .ok values)
    {slot : String} (hslot : slot ∈ template.slots) :
    ∃ value, fillSlot lang template draft reader citations reason slot = .ok value ∧
      values.lookup slot = some value :=
  (slots_of_mapM h).2.2 slot hslot

/-- Filled slots render. -/
theorem render_filled (h : resolveSlots lang template draft reader citations reason = .ok values) :
    ∃ sentence, template.render values = .ok sentence := by
  obtain ⟨hkeys, -, hvalues⟩ := slots_of_mapM h
  have hmissing : template.slots.filter (fun slot => (values.lookup slot).isNone) = [] := by
    refine List.filter_eq_nil_iff.mpr (fun slot hslot => ?_)
    obtain ⟨value, -, hlookup⟩ := hvalues slot hslot
    simp [hlookup]
  have hextra : (values.map Prod.fst).filter (fun key => !template.slots.contains key) = [] := by
    rw [hkeys]
    exact List.filter_eq_nil_iff.mpr (fun slot hslot => by simpa using hslot)
  unfold ClaimTemplate.render
  rw [hmissing, hextra]
  exact ⟨_, rfl⟩

/-- A slot bound to a record holds what the first cited record of the type stores. -/
theorem fillSlot_record {slot recordType field value : String}
    (hsource : template.slotSources.lookup slot = some (.record recordType field)) :
    fillSlot lang template draft reader citations reason slot = .ok value ↔
      ∃ citation record stored, first reader citations recordType = some (citation, record) ∧
        record.lookup field = some stored ∧ stored.blank = false ∧ lang.str stored = value := by
  unfold fillSlot
  rw [hsource]
  simp only
  cases hfirst : first reader citations recordType with
  | none => simp
  | some found =>
    obtain ⟨citation, record⟩ := found
    cases hstored : record.lookup field with
    | none => simp [hstored]
    | some stored =>
      cases hblank : stored.blank <;> simp [hstored, Option.filter, hblank]

/-- The ways in which a draft is not suppressed. -/
theorem composeClaim_delivered (h : composeClaim lang registry reader draft = .ok (claim, values))
    (hdelivered : claim.outcome ≠ .suppressed) :
    ∃ template, registry.claim draft.templateId = some template ∧ draft.Resolves reader ∧
      ((claim.outcome = .verified ∧ claim.templateId = template.id ∧
          Released lang reader draft template values) ∨
        (claim.outcome = .held ∧ ∃ holding reason, registry.claim (template.holdingTemplate.getD "") = some holding ∧
          claim.templateId = holding.id ∧
          resolveSlots lang holding draft reader
            (relevantCitations lang reader draft.citations draft.subjectRef) reason = .ok values)) := by
  have hdegraded : ∀ {template : ClaimTemplate} {reason : String},
      degrade lang registry template draft reason reader = .ok (claim, values) →
      claim.outcome = .held ∧ ∃ holding reason, registry.claim (template.holdingTemplate.getD "") = some holding ∧
        claim.templateId = holding.id ∧
        resolveSlots lang holding draft reader
          (relevantCitations lang reader draft.citations draft.subjectRef) reason = .ok values := by
    intro template reason hdegrade
    have hnot : ∀ {id : String} {reason : String},
        (.ok (suppressed id draft.subjectRef reason, []) : Except String Rendered) = .ok (claim, values) → False := by
      intro id reason heq
      obtain ⟨rfl, -⟩ := Prod.mk.inj (Except.ok.inj heq)
      exact hdelivered rfl
    unfold degrade at hdegrade
    split at hdegrade
    · unfold hold at hdegrade
      split at hdegrade
      · cases hdegrade
      · rename_i holding hholding
        split at hdegrade
        · exact (hnot hdegrade).elim
        · rename_i found hfound
          split at hdegrade
          · exact (hnot hdegrade).elim
          · obtain ⟨rfl, rfl⟩ := Prod.mk.inj (Except.ok.inj hdegrade)
            exact ⟨rfl, holding, reason, hholding, rfl, hfound⟩
    · exact (hnot hdegrade).elim
  unfold composeClaim at h
  split at h
  · obtain ⟨rfl, -⟩ := Prod.mk.inj (Except.ok.inj h)
    exact absurd rfl hdelivered
  · rename_i template htemplate
    refine ⟨template, htemplate, ?_⟩
    dsimp only at h
    split at h
    · obtain ⟨rfl, -⟩ := Prod.mk.inj (Except.ok.inj h)
      exact absurd rfl hdelivered
    · rename_i hdangling
      have hresolves : draft.Resolves reader := by
        intro citation hcitation
        simp only [Bool.not_eq_true', Bool.not_eq_false, List.isEmpty_iff, List.filter_eq_nil_iff] at hdangling
        have hread := hdangling citation hcitation
        simpa [Option.isSome_iff_ne_none] using hread
      refine ⟨hresolves, ?_⟩
      split at h
      · exact .inr (hdegraded h)
      · rename_i found hfilled
        split at h
        · exact .inr (hdegraded h)
        · rename_i hsatisfied
          split at h
          · obtain ⟨rfl, -⟩ := Prod.mk.inj (Except.ok.inj h)
            exact absurd rfl hdelivered
          · rename_i hfounded
            obtain ⟨sentence, hsentence⟩ := render_filled hfilled
            rw [hsentence] at h
            obtain ⟨rfl, rfl⟩ := Prod.mk.inj (Except.ok.inj h)
            refine .inl ⟨rfl, rfl, hresolves, hfilled, by simpa using hsatisfied, ?_⟩
            simp only [Bool.and_eq_true, List.isEmpty_iff, bne_iff_ne, not_and, not_not] at hfounded
            by_cases hnone : draft.citations = []
            · exact .inr (hfounded hnone)
            · exact .inl hnone

/-- What is not suppressed carries the citations of the draft. -/
theorem composeClaim_citations (h : composeClaim lang registry reader draft = .ok (claim, values))
    (hdelivered : claim.outcome ≠ .suppressed) : claim.citations = draft.citations := by
  have hnot : ∀ {id reason : String},
      (.ok (suppressed id draft.subjectRef reason, []) : Except String Rendered) = .ok (claim, values) → False := by
    intro id reason heq
    obtain ⟨rfl, -⟩ := Prod.mk.inj (Except.ok.inj heq)
    exact hdelivered rfl
  have hdegraded : ∀ {template : ClaimTemplate} {reason : String},
      degrade lang registry template draft reason reader = .ok (claim, values) →
      claim.citations = draft.citations := by
    intro template reason hdegrade
    unfold degrade hold at hdegrade
    split at hdegrade
    · split at hdegrade
      · cases hdegrade
      · split at hdegrade
        · exact (hnot hdegrade).elim
        · split at hdegrade
          · exact (hnot hdegrade).elim
          · obtain ⟨rfl, -⟩ := Prod.mk.inj (Except.ok.inj hdegrade)
            rfl
    · exact (hnot hdegrade).elim
  unfold composeClaim at h
  split at h
  · exact (hnot h).elim
  · dsimp only at h
    split at h
    · exact (hnot h).elim
    · split at h
      · exact hdegraded h
      · rename_i found hfilled
        split at h
        · exact hdegraded h
        · split at h
          · exact (hnot h).elim
          · obtain ⟨sentence, hsentence⟩ := render_filled hfilled
            rw [hsentence] at h
            obtain ⟨rfl, -⟩ := Prod.mk.inj (Except.ok.inj h)
            rfl

/-- A released draft is verified. -/
theorem Released.verified (h : Released lang reader draft template values)
    (htemplate : registry.claim draft.templateId = some template) :
    ∃ claim, composeClaim lang registry reader draft = .ok (claim, values) ∧ claim.outcome = .verified ∧
      claim.templateId = template.id := by
  have hdangling : draft.citations.filter (fun citation => (reader.cited citation).isNone) = [] := by
    refine List.filter_eq_nil_iff.mpr (fun citation hcitation => ?_)
    have hread := h.resolves citation hcitation
    simpa [Option.isSome_iff_ne_none] using hread
  have hfounded : (draft.citations.isEmpty && template.predicate != .always) = false := by
    rcases h.founded with hcited | halways
    · simp [hcited]
    · simp [halways]
  obtain ⟨sentence, hsentence⟩ := render_filled h.filled
  unfold composeClaim
  rw [htemplate]
  dsimp only
  rw [hdangling, h.filled]
  simp only [List.isEmpty_nil, Bool.not_true, Bool.false_eq_true, if_false, h.satisfied, hfounded, hsentence]
  exact ⟨_, rfl, rfl, rfl⟩

end Compose

end Solvan.Liaison
