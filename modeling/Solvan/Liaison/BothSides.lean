import Solvan.Liaison.TruthGate

/-! Whether a held statement and its holding form can both be confirmed. -/
namespace Solvan.Liaison

variable {lang : Language} {reader : ProjectionReader} {draft : ClaimDraft} {template holding : ClaimTemplate}
  {values : Values}

/-- The gate verifies a template for the subject, the citations and the values of a draft. -/
def Confirmed (lang : Language) (reader : ProjectionReader) (draft : ClaimDraft) (template : ClaimTemplate) :
    Prop :=
  ∃ claim values, composeClaim lang claimTemplates reader { draft with templateId := template.id } =
    .ok (claim, values) ∧ claim.outcome = .verified

/-- A cited record about the subject stores a word. -/
def StoredAbout (lang : Language) (reader : ProjectionReader) (draft : ClaimDraft) (word : String) : Prop :=
  ∃ citation ∈ draft.citations, ∃ record, reader.cited citation = some record ∧
    matchesSubject lang record draft.subjectRef = true ∧ word ∈ record.strings lang

/-- A slot of a holding form has a word that its verifier lets through. -/
def Sayable (lang : Language) (reader : ProjectionReader) (draft : ClaimDraft) (holding : ClaimTemplate)
    (slot : String) : Prop :=
  ∃ word, fillSlot lang holding draft reader draft.citations "" slot = .ok word ∧
    (holding.predicate = .recordFieldEquals → StoredAbout lang reader draft word)

/-- A holding form names no window and is checked for stored words at most. -/
def ClaimTemplate.holdingForm (template : ClaimTemplate) : Bool :=
  (template.predicate == .always || template.predicate == .recordFieldEquals) && !template.slots.isEmpty &&
    windowSlots.all (fun slot => !template.slots.contains slot)

theorem holding_forms : ∀ template ∈ claimTemplates, ∀ holding ∈ claimTemplates, template.held = true →
    template.holdingTemplate = some holding.id → holding.holdingForm = true := by
  decide

theorem confirmed_iff (htemplate : template ∈ claimTemplates) :
    Confirmed lang reader draft template ↔ ∃ values, Released lang reader draft template values := by
  have hfound := claim_self template htemplate
  constructor
  · rintro ⟨claim, values, hclaim, hverified⟩
    have hdelivered : claim.outcome ≠ .suppressed := by
      rw [hverified]
      decide
    obtain ⟨found, hother, -, ⟨-, -, hreleased⟩ | ⟨hheld, -⟩⟩ := composeClaim_delivered hclaim hdelivered
    · obtain rfl := Option.some.inj (hother.symm.trans hfound)
      exact ⟨values, hreleased.resolves, hreleased.filled, hreleased.satisfied, hreleased.founded⟩
    · rw [hverified] at hheld
      cases hheld
  · rintro ⟨values, hreleased⟩
    have hsame : Released lang reader { draft with templateId := template.id } template values :=
      ⟨hreleased.resolves, hreleased.filled, hreleased.satisfied, hreleased.founded⟩
    obtain ⟨claim, hclaim, hverified, -⟩ := hsame.verified hfound
    exact ⟨claim, values, hclaim, hverified⟩

theorem resolveSlots_ok {citations : List Citation} {reason : String}
    (h : ∀ slot ∈ template.slots, ∃ value, fillSlot lang template draft reader citations reason slot = .ok value) :
    ∃ values, resolveSlots lang template draft reader citations reason = .ok values := by
  unfold resolveSlots
  generalize template.slots = slots at h ⊢
  induction slots with
  | nil => exact ⟨[], rfl⟩
  | cons slot slots ih =>
    obtain ⟨value, hvalue⟩ := h slot List.mem_cons_self
    obtain ⟨values, hvalues⟩ := ih (fun other hother => h other (List.mem_cons_of_mem _ hother))
    refine ⟨(slot, value) :: values, ?_⟩
    rw [List.mapM_cons, hvalue, hvalues]
    rfl

/-- Without a window, the stored words of the records about the subject decide. -/
theorem recordFieldEquals_iff (hresolves : draft.Resolves reader) (hvalues : values ≠ [])
    (hwindow : ∀ slot ∈ windowSlots, slot ∉ values.map Prod.fst) :
    (recordFieldEquals lang ⟨reader, draft.subjectRef, draft.citations, values⟩).satisfied = true ↔
      ∀ value ∈ values, StoredAbout lang reader draft value.2 := by
  have hnone : ∀ slot ∈ windowSlots, values.lookup slot = none := by
    intro slot hslot
    refine List.lookup_eq_none_iff.mpr (fun value hvalue => ?_)
    have hne : slot ≠ value.1 := fun heq => hwindow slot hslot (heq ▸ List.mem_map_of_mem hvalue)
    simpa using hne
  have hwithin : ∀ record, withinClaimWindow lang record values = true := by
    intro record
    unfold withinClaimWindow
    rw [hnone "window_start" (by decide), hnone "window_end" (by decide)]
    rfl
  have hmem : ∀ record, record ∈ relevant lang reader draft.citations draft.subjectRef values ↔
      ∃ citation ∈ draft.citations, reader.cited citation = some record ∧
        matchesSubject lang record draft.subjectRef = true := by
    intro record
    simp only [relevant, List.mem_filter, List.mem_filterMap, hwithin, Bool.and_true]
    constructor
    · rintro ⟨⟨citation, hcitation, hread⟩, habout⟩
      exact ⟨citation, hcitation, hread, habout⟩
    · rintro ⟨citation, hcitation, hread, habout⟩
      exact ⟨⟨citation, hcitation, hread⟩, habout⟩
  have hstored : ∀ word, word ∈ (relevant lang reader draft.citations draft.subjectRef values).flatMap
      (Record.strings lang) ↔ StoredAbout lang reader draft word := by
    intro word
    rw [List.mem_flatMap]
    constructor
    · rintro ⟨record, hrecord, hword⟩
      obtain ⟨citation, hcitation, hread, habout⟩ := (hmem record).mp hrecord
      exact ⟨citation, hcitation, record, hread, habout, hword⟩
    · rintro ⟨citation, hcitation, record, hread, habout, hword⟩
      exact ⟨record, (hmem record).mpr ⟨citation, hcitation, hread, habout⟩, hword⟩
  have hkeys : ∀ value ∈ values, windowSlots.contains value.1 = false := by
    intro value hvalue
    cases hslot : windowSlots.contains value.1 with
    | false => rfl
    | true => exact absurd (List.mem_map_of_mem hvalue) (hwindow _ (List.contains_iff_mem.mp hslot))
  have hall : draft.citations.find? (fun citation => (reader.cited citation).isNone) = none := by
    refine List.find?_eq_none.mpr (fun citation hcitation => ?_)
    simpa [Option.isSome_iff_ne_none] using hresolves citation hcitation
  have hunsupported : values.filter (fun value => !windowSlots.contains value.1 &&
      !((relevant lang reader draft.citations draft.subjectRef values).flatMap
        (Record.strings lang)).contains value.2) = [] ↔ ∀ value ∈ values, StoredAbout lang reader draft value.2 := by
    rw [List.filter_eq_nil_iff]
    refine forall₂_congr (fun value hvalue => ?_)
    rw [hkeys value hvalue, ← hstored]
    simp
  unfold recordFieldEquals
  constructor
  · intro hsatisfied
    simp only [hall] at hsatisfied
    split at hsatisfied
    · cases hsatisfied
    · split at hsatisfied
      · cases hsatisfied
      · split at hsatisfied
        · rename_i hempty
          exact hunsupported.mp (List.isEmpty_iff.mp hempty)
        · cases hsatisfied
  · intro hwords
    obtain ⟨value, hvalue⟩ := List.exists_mem_of_ne_nil values hvalues
    obtain ⟨citation, hcitation, record, hread, habout, -⟩ := hwords value hvalue
    have hcited : draft.citations ≠ [] := List.ne_nil_of_mem hcitation
    have hrecords : relevant lang reader draft.citations draft.subjectRef values ≠ [] :=
      List.ne_nil_of_mem ((hmem record).mpr ⟨citation, hcitation, hread, habout⟩)
    have hempty := hunsupported.mpr hwords
    simp only [hall]
    rw [if_neg (by simpa using hcited), if_neg (by simpa using hrecords), if_pos (List.isEmpty_iff.mpr hempty)]
    rfl

/-- A holding form is released where the citations resolve and all its slots can be said. -/
theorem released_holding (hform : holding.holdingForm = true) (hresolves : draft.Resolves reader) :
    (∃ values, Released lang reader draft holding values) ↔
      ∀ slot ∈ holding.slots, Sayable lang reader draft holding slot := by
  simp only [ClaimTemplate.holdingForm, Bool.and_eq_true, Bool.or_eq_true, beq_iff_eq,
    Bool.not_eq_true', List.all_eq_true] at hform
  obtain ⟨⟨hpredicate, hslots⟩, hwindow⟩ := hform
  have hchecked : ∀ {values : Values}, resolveSlots lang holding draft reader draft.citations "" = .ok values →
      holding.predicate = .recordFieldEquals →
      ((recordFieldEquals lang ⟨reader, draft.subjectRef, draft.citations, values⟩).satisfied = true ↔
        ∀ value ∈ values, StoredAbout lang reader draft value.2) := by
    intro values hfilled hequals
    obtain ⟨hkeys, -⟩ := slots_of_mapM hfilled
    refine recordFieldEquals_iff hresolves ?_ ?_
    · rintro rfl
      rw [← hkeys] at hslots
      cases hslots
    · intro slot hslot
      rw [hkeys]
      simpa using hwindow slot hslot
  constructor
  · rintro ⟨values, hreleased⟩ slot hslot
    obtain ⟨word, hword, hlookup⟩ := resolveSlots_slot hreleased.filled hslot
    refine ⟨word, hword, fun hequals => ?_⟩
    have hsatisfied := hreleased.satisfied
    rw [hequals] at hsatisfied
    have hmem : (slot, word) ∈ values := by
      obtain ⟨first, rest, hsplit, -⟩ := List.lookup_eq_some_iff.mp hlookup
      simp [hsplit]
    exact (hchecked hreleased.filled hequals).mp hsatisfied (slot, word) hmem
  · intro hsayable
    obtain ⟨values, hfilled⟩ := resolveSlots_ok (fun slot hslot =>
      (hsayable slot hslot).imp (fun _ hword => hword.1))
    obtain ⟨hkeys, hvalues, -⟩ := slots_of_mapM hfilled
    have hstored : holding.predicate = .recordFieldEquals →
        ∀ value ∈ values, StoredAbout lang reader draft value.2 := by
      intro hequals value hvalue
      have hslot : value.1 ∈ holding.slots := hkeys ▸ List.mem_map_of_mem hvalue
      obtain ⟨word, hword, hlet⟩ := hsayable value.1 hslot
      obtain rfl := Except.ok.inj (hword.symm.trans (hvalues value hvalue))
      exact hlet hequals
    refine ⟨values, hresolves, hfilled, ?_, ?_⟩
    · rcases hpredicate with halways | hequals
      · rw [halways]
        rfl
      · rw [hequals]
        exact (hchecked hfilled hequals).mpr (hstored hequals)
    · rcases hpredicate with halways | hequals
      · exact .inr halways
      · left
        have hne : values ≠ [] := by
          rintro rfl
          rw [← hkeys] at hslots
          cases hslots
        obtain ⟨value, hvalue⟩ := List.exists_mem_of_ne_nil values hne
        obtain ⟨citation, hcitation, -⟩ := hstored hequals value hvalue
        exact List.ne_nil_of_mem hcitation

section Example

/-- A statement about the closed incident. -/
def closedCited : ClaimDraft where
  templateId := ""
  subjectRef := "inc_b"
  values := []
  citations := [⟨"incident", "inc_b"⟩]

/-- A statement about the waiting incident. -/
def waitingCited : ClaimDraft where
  templateId := ""
  subjectRef := "inc_a"
  values := []
  citations := [⟨"incident", "inc_a"⟩]

end Example

end Solvan.Liaison
