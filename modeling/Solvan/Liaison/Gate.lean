import Solvan.Liaison.GrantedReader

/-! The gate with its reads: `compose_claim` as a program, in the order of the source. -/
namespace Solvan.Liaison.Turn
open Solvan.Base

abbrev GateProgram := Program Gating Gating.Answer

/-- `reader.read` of a citation -/
def cited (citation : Citation) : GateProgram (Option Record) :=
  .ask (.read citation.recordType citation.recordId) .done

/-- `_first` and `_record_of` -/
def first : List Citation → String → GateProgram (Option (Citation × Record))
  | [], _ => pure none
  | citation :: rest, recordType =>
    if citation.recordType != recordType then first rest recordType
    else do
      match ← cited citation with
      | some record => pure (some (citation, record))
      | none => first rest recordType

/-- `_relevant` -/
def relevant (lang : Language) (subjectRef : String) (values : Values) :
    List Citation → GateProgram (List Record)
  | [] => pure []
  | citation :: rest => do
    let record ← cited citation
    let later ← relevant lang subjectRef values rest
    return record.toList.filter (fun record =>
      matchesSubject lang record subjectRef && withinClaimWindow lang record values) ++ later

/-- What a verifier is given besides the reader. -/
structure Asserted where
  subjectRef : String
  citations : List Citation
  values : Values

def Asserted.within (claim : Asserted) (reader : ProjectionReader) : Assertion :=
  ⟨reader, claim.subjectRef, claim.citations, claim.values⟩

/-- The verifiers of one kind of record: they read the first that is cited, and judge by it. -/
def verifyFirst (claim : Asserted) (recordType : String)
    (judge : Option (Citation × Record) → PredicateResult) : GateProgram PredicateResult := do
  return judge (← first claim.citations recordType)

def verificationPassed (lang : Language) (claim : Asserted) : GateProgram PredicateResult :=
  verifyFirst claim "verification_run" (fun resolved =>
    match resolved with
    | none => .failed "no verification run is cited"
    | some (citation, record) =>
      if !matchesSubject lang record claim.subjectRef then
        .failed ("verification " ++ citation.recordId ++ " is not about " ++ claim.subjectRef)
      else
        let verdict := lang.upper (lang.get record "verdict")
        if verdict != "PASSED" then
          .failed ("verification verdict is " ++ orElse verdict "absent" ++ ", not PASSED")
        else .ok)

def receiptReconciled (lang : Language) (claim : Asserted) : GateProgram PredicateResult :=
  verifyFirst claim "action" (fun resolved =>
    match resolved with
    | none => .failed "no action record is cited"
    | some (citation, record) =>
      if lang.get record "id" != claim.subjectRef then
        .failed ("action " ++ citation.recordId ++ " is not " ++ claim.subjectRef)
      else
        let status := lang.upper (lang.get record "status")
        if !reconciledActionStates.contains status then
          .failed ("action status is " ++ orElse status "absent" ++ ", not reconciled")
        else if !(record.lookup "receipt").any Value.truthy then
          .failed "the action carries no execution receipt"
        else .ok)

def terminalState (lang : Language) (claim : Asserted) : GateProgram PredicateResult :=
  verifyFirst claim "incident" (fun resolved =>
    match resolved with
    | none => .failed "no incident record is cited"
    | some (_, record) =>
      if lang.get record "id" != claim.subjectRef then
        .failed ("the cited incident is not " ++ claim.subjectRef)
      else
        let state := lang.upper (lang.get record "state")
        if !terminalIncidentStates.contains state then
          .failed ("incident state is " ++ orElse state "absent" ++ ", which is not terminal")
        else if (claim.values.lookup "state").any (fun stated => stated != state) then
          .failed "the stated state does not match the record"
        else .ok)

def humanAttentionPending (lang : Language) (claim : Asserted) : GateProgram PredicateResult :=
  verifyFirst claim "incident" (fun resolved =>
    match resolved with
    | none => .failed "no incident record is cited"
    | some (_, record) =>
      if lang.get record "id" != claim.subjectRef then
        .failed ("the cited incident is not " ++ claim.subjectRef)
      else
        let state := lang.upper (lang.get record "state")
        if terminalIncidentStates.contains state then
          .failed ("incident state is " ++ state ++ ", so nobody is blocked on it")
        else
          let waiting := (record.lookup "waiting_on_human").filter (fun waiting =>
            match waiting with
            | .none => false
            | _ => true)
          if waiting.any (fun waiting => !waiting.truthy) then
            .failed "the incident records no pending human decision"
          else if waiting.isNone && !attentionIncidentStates.contains state then
            .failed ("incident state is " ++ orElse state "absent" ++ ", which does not await a person")
          else
            let detail := (claim.values.lookup "detail").getD ""
            if detail != "" && !(record.strings lang).contains detail then
              .failed "the stated next action is not present on the incident"
            else .ok)

/-- The first citation that does not resolve. -/
def firstUnresolved : List Citation → GateProgram (Option Citation)
  | [] => pure none
  | citation :: rest => do
    match ← cited citation with
    | none => pure (some citation)
    | some _ => firstUnresolved rest

def recordFieldEquals (lang : Language) (claim : Asserted) : GateProgram PredicateResult :=
  if claim.citations.isEmpty then pure (.failed "the claim cites nothing")
  else do
    match ← firstUnresolved claim.citations with
    | some citation => pure (.failed ("citation " ++ citation.recordId ++ " does not resolve"))
    | none =>
      let records ← relevant lang claim.subjectRef claim.values claim.citations
      if records.isEmpty then pure (.failed ("no cited record is about " ++ subjectLabel claim.subjectRef))
      else
        let stored := records.flatMap (Record.strings lang)
        let unsupported := claim.values.filter (fun value =>
          !windowSlots.contains value.1 && !stored.contains value.2)
        if unsupported.isEmpty then pure .ok
        else
          pure (.failed ("values are not present on the cited record about " ++ subjectLabel claim.subjectRef ++
            ": " ++ joinSorted (unsupported.map (fun value => value.1 ++ "=" ++ lang.repr value.2))))

def recordTextEquals (lang : Language) (claim : Asserted) : GateProgram PredicateResult :=
  let quoted := (claim.values.lookup "quoted_text").getD ""
  if quoted = "" then pure (.failed "the quotation is empty")
  else do
    let records ← relevant lang claim.subjectRef claim.values claim.citations
    if records.isEmpty then pure (.failed ("no cited record is about " ++ subjectLabel claim.subjectRef))
    else if records.any (fun record => (record.strings lang).contains quoted) then pure .ok
    else
      pure (.failed ("the quotation does not match the stored text of any cited record about " ++
        subjectLabel claim.subjectRef))

/-- What `evidence_covers` says of one item. -/
def evidenceItem (lang : Language) (claim : Asserted) (citation : Citation) : Option Record → Option String
  | none => some ("evidence " ++ citation.recordId ++ " does not resolve")
  | some record =>
    if !matchesSubject lang record claim.subjectRef then
      some ("evidence " ++ citation.recordId ++ " is not about " ++ subjectLabel claim.subjectRef)
    else if !withinClaimWindow lang record claim.values then
      some ("evidence " ++ citation.recordId ++ " falls outside the claimed window")
    else none

/-- The loop of `evidence_covers`. -/
def evidenceFailure (lang : Language) (claim : Asserted) : List Citation → GateProgram (Option String)
  | [] => pure none
  | citation :: rest => do
    match evidenceItem lang claim citation (← cited citation) with
    | some reason => pure (some reason)
    | none => evidenceFailure lang claim rest

def evidenceCovers (lang : Language) (claim : Asserted) : GateProgram PredicateResult :=
  let evidence := claim.citations.filter (fun citation => citation.recordType == "evidence_item")
  if evidence.isEmpty then pure (.failed "no evidence item is cited")
  else do
    match ← evidenceFailure lang claim evidence with
    | some reason => pure (.failed reason)
    | none => pure .ok

/-- `PREDICATES` -/
def verifier (lang : Language) : Predicate → Asserted → GateProgram PredicateResult
  | .verificationPassed => verificationPassed lang
  | .receiptReconciled => receiptReconciled lang
  | .terminalState => terminalState lang
  | .humanAttentionPending => humanAttentionPending lang
  | .recordFieldEquals => recordFieldEquals lang
  | .recordTextEquals => recordTextEquals lang
  | .evidenceCovers => evidenceCovers lang
  | .always => fun _ => pure .ok

/-- One slot of `_resolve_slots`. -/
def fillSlot (lang : Language) (template : ClaimTemplate) (draft : ClaimDraft) (citations : List Citation)
    (holdingReason : String) (slot : String) : GateProgram (Except String String) :=
  match template.slotSources.lookup slot with
  | none => pure (.error ("slot " ++ slot ++ " has no source binding"))
  | some .subject => pure (.ok draft.subjectRef)
  | some .holdingReason => pure (.ok (orElse holdingReason "The releasing record is not present."))
  | some .modelQuoted =>
    let supplied := strip ((draft.values.lookup slot).getD "").toList
    if supplied.isEmpty then pure (.error ("slot " ++ slot ++ " was left empty"))
    else pure (.ok (String.ofList supplied))
  | some (.record recordType field) => do
    match ← first citations recordType with
    | none => pure (.error ("no " ++ recordType ++ " is cited for slot " ++ slot))
    | some (_, record) =>
      match (record.lookup field).filter (fun stored => !stored.blank) with
      | none => pure (.error ("the cited " ++ recordType ++ " carries no " ++ field))
      | some stored => pure (.ok (lang.str stored))

/-- `_resolve_slots`, for these slots -/
def resolveSlots (lang : Language) (template : ClaimTemplate) (draft : ClaimDraft) (citations : List Citation)
    (holdingReason : String) : List String → GateProgram (Except String Values)
  | [] => pure (.ok [])
  | slot :: rest => do
    match ← fillSlot lang template draft citations holdingReason slot with
    | .error missing => pure (.error missing)
    | .ok value =>
      let later ← resolveSlots lang template draft citations holdingReason rest
      return later.map (fun values => (slot, value) :: values)

/-- `_resolve_citations` -/
def resolveCitations : List Citation → GateProgram (List Citation × List Citation)
  | [] => pure ([], [])
  | citation :: rest => do
    let record ← cited citation
    let (resolved, dangling) ← resolveCitations rest
    return if record.isNone then (resolved, citation :: dangling) else (citation :: resolved, dangling)

/-- The citations of records that are about the subject. -/
def relevantCitations (lang : Language) (subjectRef : String) : List Citation → GateProgram (List Citation)
  | [] => pure []
  | citation :: rest => do
    let record ← cited citation
    let later ← relevantCitations lang subjectRef rest
    return if record.any (fun record => matchesSubject lang record subjectRef) then citation :: later else later

/-- `_hold` -/
def hold (lang : Language) (registry : TemplateRegistry) (template : ClaimTemplate) (draft : ClaimDraft)
    (citations : List Citation) (reason : String) : GateProgram (Except String Rendered) :=
  match registry.claim (template.holdingTemplate.getD "") with
  | none => pure (.error ("unknown claim template " ++ template.holdingTemplate.getD ""))
  | some holding => do
    let about ← relevantCitations lang draft.subjectRef citations
    match ← resolveSlots lang holding draft about reason holding.slots with
    | .error _ => pure (.ok (suppressed template.id draft.subjectRef reason, []))
    | .ok values =>
      match holding.render values with
      | .error _ => pure (.ok (suppressed template.id draft.subjectRef reason, []))
      | .ok sentence =>
        pure (.ok ({
          outcome := .held
          templateId := holding.id
          kind := holding.kind
          polarity := holding.polarity
          subjectRef := draft.subjectRef
          sentence := sentence
          citations := citations
          reason := reason
          releasingRecord := template.releasingRecord }, values))

/-- A held kind degrades to its holding form; anything else is withheld. -/
def degrade (lang : Language) (registry : TemplateRegistry) (template : ClaimTemplate) (draft : ClaimDraft)
    (citations : List Citation) (reason : String) : GateProgram (Except String Rendered) :=
  if template.held && template.holdingTemplate.any (· != "") then
    hold lang registry template draft citations reason
  else pure (.ok (suppressed template.id draft.subjectRef reason, []))

/-- `tally.record`, for a claim that was made -/
def recorded (claim : Except String Rendered) : GateProgram (Except String Rendered) :=
  match claim with
  | .error message => pure (.error message)
  | .ok claim => .ask (.record claim.1.outcome claim.1.reason) (fun _ => .done (.ok claim))

/-- `compose_claim` -/
def composeClaim (lang : Language) (registry : TemplateRegistry) (draft : ClaimDraft) :
    GateProgram (Except String Rendered) :=
  match registry.claim draft.templateId with
  | none => .ask .unknownTemplate (fun _ =>
      recorded (.ok (suppressed draft.templateId draft.subjectRef "unknown claim template", [])))
  | some template => do
    let (resolved, dangling) ← resolveCitations draft.citations
    if !dangling.isEmpty then
      .ask (.unresolvedCitations dangling.length) (fun _ =>
        recorded (.ok (suppressed template.id draft.subjectRef
          (String.ofList (Nat.toDigits 10 dangling.length) ++ " cited record(s) do not resolve"), [])))
    else
      match ← resolveSlots lang template draft resolved "" template.slots with
      | .error missing => recorded (← degrade lang registry template draft resolved missing)
      | .ok values =>
        let result ← verifier lang template.predicate ⟨draft.subjectRef, resolved, values⟩
        if !result.satisfied then recorded (← degrade lang registry template draft resolved result.reason)
        else if resolved.isEmpty && template.predicate != .always then
          recorded (.ok (suppressed template.id draft.subjectRef "no citation resolves", []))
        else
          pure (do
            let sentence ← template.render values
            return ({
              outcome := .verified
              templateId := template.id
              kind := template.kind
              polarity := template.polarity
              subjectRef := draft.subjectRef
              sentence := sentence
              citations := resolved
              reason := ""
              releasingRecord := template.releasingRecord }, values))

section Values

variable {lang : Language} {reader : ProjectionReader} {registry : TemplateRegistry} {draft : ClaimDraft}
  {template : ClaimTemplate} {citations : List Citation} {reason : String}

@[simp] theorem value_cited (citation : Citation) :
    (cited citation).value (gatingAnswer reader) = reader.cited citation := rfl

@[simp] theorem value_first (recordType : String) :
    (first citations recordType).value (gatingAnswer reader) = Liaison.first reader citations recordType := by
  induction citations with
  | nil => rfl
  | cons citation rest ih =>
    unfold first Liaison.first
    rw [List.findSome?_cons]
    by_cases htype : (citation.recordType != recordType) = true
    · rw [if_pos htype, if_pos htype, ih]
      rfl
    · rw [if_neg htype, if_neg htype, Program.value_bind, value_cited]
      cases hread : reader.cited citation with
      | none => exact ih
      | some record => rfl

@[simp] theorem value_relevant (subjectRef : String) (values : Values) :
    (relevant lang subjectRef values citations).value (gatingAnswer reader) =
      Liaison.relevant lang reader citations subjectRef values := by
  induction citations with
  | nil => rfl
  | cons citation rest ih =>
    simp only [relevant, Program.value_bind, value_cited, ih, Program.value_pure, Liaison.relevant]
    cases hread : reader.cited citation with
    | none => simp [hread]
    | some record =>
      rw [List.filterMap_cons_some hread, List.filter_cons]
      split <;> simp_all

theorem value_firstUnresolved :
    (firstUnresolved citations).value (gatingAnswer reader) =
      citations.find? (fun citation => (reader.cited citation).isNone) := by
  induction citations with
  | nil => rfl
  | cons citation rest ih =>
    simp only [firstUnresolved, Program.value_bind, value_cited]
    cases hread : reader.cited citation with
    | none => simp [hread]
    | some record => simp [hread, ih]

theorem value_recordFieldEquals (claim : Asserted) :
    (recordFieldEquals lang claim).value (gatingAnswer reader) =
      Liaison.recordFieldEquals lang (claim.within reader) := by
  unfold recordFieldEquals Liaison.recordFieldEquals
  rw [Program.value_ite]
  refine if_congr Iff.rfl rfl ?_
  rw [Program.value_bind, value_firstUnresolved]
  dsimp only [Asserted.within]
  cases claim.citations.find? (fun citation => (reader.cited citation).isNone) with
  | some citation => rfl
  | none =>
    dsimp only
    rw [Program.value_bind, value_relevant, Program.value_ite]
    refine if_congr Iff.rfl rfl ?_
    rw [Program.value_ite]
    exact if_congr Iff.rfl rfl rfl

theorem value_recordTextEquals (claim : Asserted) :
    (recordTextEquals lang claim).value (gatingAnswer reader) =
      Liaison.recordTextEquals lang (claim.within reader) := by
  unfold recordTextEquals Liaison.recordTextEquals
  dsimp only [Asserted.within]
  rw [Program.value_ite]
  refine if_congr Iff.rfl rfl ?_
  rw [Program.value_bind, value_relevant, Program.value_ite]
  refine if_congr Iff.rfl rfl ?_
  rw [Program.value_ite]
  exact if_congr Iff.rfl rfl rfl

theorem evidenceItem_eq (claim : Asserted) (citation : Citation) :
    evidenceItem lang claim citation (reader.cited citation) =
      Liaison.evidenceFailure lang (claim.within reader) citation := by
  unfold evidenceItem Liaison.evidenceFailure
  dsimp only [Asserted.within]
  cases reader.cited citation <;> rfl

theorem value_evidenceFailure (claim : Asserted) :
    (evidenceFailure lang claim citations).value (gatingAnswer reader) =
      citations.findSome? (Liaison.evidenceFailure lang (claim.within reader)) := by
  induction citations with
  | nil => rfl
  | cons citation rest ih =>
    rw [List.findSome?_cons]
    unfold evidenceFailure
    rw [Program.value_bind, value_cited, evidenceItem_eq]
    cases Liaison.evidenceFailure lang (claim.within reader) citation with
    | some reason => rfl
    | none => exact ih

theorem value_evidenceCovers (claim : Asserted) :
    (evidenceCovers lang claim).value (gatingAnswer reader) = Liaison.evidenceCovers lang (claim.within reader) := by
  unfold evidenceCovers Liaison.evidenceCovers
  rw [Program.value_ite]
  refine if_congr Iff.rfl rfl ?_
  rw [Program.value_bind, value_evidenceFailure]
  obtain ⟨subjectRef, citations, values⟩ := claim
  dsimp only [Asserted.within]
  cases (citations.filter (fun citation => citation.recordType == "evidence_item")).findSome?
      (Liaison.evidenceFailure lang ⟨reader, subjectRef, citations, values⟩) <;> rfl

/-- A verifier that reads comes to what the verifier of the record does. -/
@[simp] theorem value_verifier (predicate : Predicate) (claim : Asserted) :
    (verifier lang predicate claim).value (gatingAnswer reader) = predicate.verifier lang (claim.within reader) := by
  cases predicate with
  | recordFieldEquals => exact value_recordFieldEquals claim
  | recordTextEquals => exact value_recordTextEquals claim
  | evidenceCovers => exact value_evidenceCovers claim
  | always => rfl
  | verificationPassed =>
    simp only [verifier, verificationPassed, verifyFirst, Program.value_bind, value_first]
    rfl
  | receiptReconciled =>
    simp only [verifier, receiptReconciled, verifyFirst, Program.value_bind, value_first]
    rfl
  | terminalState =>
    simp only [verifier, terminalState, verifyFirst, Program.value_bind, value_first]
    rfl
  | humanAttentionPending =>
    simp only [verifier, humanAttentionPending, verifyFirst, Program.value_bind, value_first]
    rfl

@[simp] theorem value_fillSlot (slot : String) :
    (fillSlot lang template draft citations reason slot).value (gatingAnswer reader) =
      Liaison.fillSlot lang template draft reader citations reason slot := by
  unfold fillSlot Liaison.fillSlot
  cases template.slotSources.lookup slot with
  | none => rfl
  | some source =>
    cases source with
    | subject => rfl
    | holdingReason => rfl
    | modelQuoted =>
      dsimp only
      rw [Program.value_ite]
      exact if_congr Iff.rfl rfl rfl
    | record recordType field =>
      dsimp only
      rw [Program.value_bind, value_first]
      cases Liaison.first reader citations recordType with
      | none => rfl
      | some found =>
        dsimp only
        cases (found.2.lookup field).filter (fun stored => !stored.blank) <;> rfl

@[simp] theorem value_resolveSlots :
    (resolveSlots lang template draft citations reason template.slots).value (gatingAnswer reader) =
      Liaison.resolveSlots lang template draft reader citations reason := by
  unfold Liaison.resolveSlots
  generalize template.slots = slots
  induction slots with
  | nil => rfl
  | cons slot rest ih =>
    rw [List.mapM_cons]
    simp only [resolveSlots, Program.value_bind, value_fillSlot]
    cases Liaison.fillSlot lang template draft reader citations reason slot with
    | error missing => rfl
    | ok value =>
      simp only [Program.value_bind, ih, Program.value_pure]
      cases rest.mapM (fun slot => (Liaison.fillSlot lang template draft reader citations reason slot).map
        (fun value => (slot, value))) <;> rfl

@[simp] theorem value_resolveCitations :
    (resolveCitations citations).value (gatingAnswer reader) =
      (citations.filter (fun citation => (reader.cited citation).isSome),
        citations.filter (fun citation => (reader.cited citation).isNone)) := by
  induction citations with
  | nil => rfl
  | cons citation rest ih =>
    simp only [resolveCitations, Program.value_bind, value_cited, ih]
    cases hread : reader.cited citation <;> simp [hread]

@[simp] theorem value_relevantCitations (subjectRef : String) :
    (relevantCitations lang subjectRef citations).value (gatingAnswer reader) =
      Liaison.relevantCitations lang reader citations subjectRef := by
  induction citations with
  | nil => rfl
  | cons citation rest ih =>
    simp only [relevantCitations, Program.value_bind, value_cited, ih, Liaison.relevantCitations, List.filter_cons,
      Program.value_pure]

@[simp] theorem value_hold :
    (hold lang registry template draft citations reason).value (gatingAnswer reader) =
      Liaison.hold lang registry template draft citations reason reader := by
  unfold hold Liaison.hold
  cases registry.claim (template.holdingTemplate.getD "") with
  | none => rfl
  | some holding =>
    dsimp only
    rw [Program.value_bind, value_relevantCitations, Program.value_bind, value_resolveSlots]
    cases Liaison.resolveSlots lang holding draft reader
        (Liaison.relevantCitations lang reader citations draft.subjectRef) reason with
    | error missing => rfl
    | ok values =>
      dsimp only
      cases holding.render values <;> rfl

@[simp] theorem value_recorded (claim : Except String Rendered) :
    (recorded claim).value (gatingAnswer reader) = claim := by
  cases claim <;> rfl

@[simp] theorem value_degrade :
    (degrade lang registry template draft draft.citations reason).value (gatingAnswer reader) =
      Liaison.degrade lang registry template draft reason reader := by
  unfold degrade Liaison.degrade
  rw [Program.value_ite, value_hold]
  exact if_congr Iff.rfl rfl rfl

/-- The gate that reads comes to the claim that the records establish. -/
theorem value_composeClaim :
    (composeClaim lang registry draft).value (gatingAnswer reader) =
      Liaison.composeClaim lang registry reader draft := by
  unfold composeClaim Liaison.composeClaim
  cases registry.claim draft.templateId with
  | none => rfl
  | some template =>
    dsimp only
    rw [Program.value_bind, value_resolveCitations]
    by_cases hdangling : draft.citations.filter (fun citation => (reader.cited citation).isNone) = []
    · -- Where nothing dangles, all citations are the resolved ones.
      have hresolved : draft.citations.filter (fun citation => (reader.cited citation).isSome) = draft.citations := by
        refine List.filter_eq_self.mpr (fun citation hcitation => ?_)
        have hread := List.filter_eq_nil_iff.mp hdangling citation hcitation
        simpa [Option.isSome_iff_ne_none] using hread
      rw [hdangling, hresolved]
      simp only [List.isEmpty_nil, Bool.not_true, Bool.false_eq_true, if_false, Program.value_bind,
        value_resolveSlots]
      cases Liaison.resolveSlots lang template draft reader draft.citations "" with
      | error missing => simp
      | ok values =>
        simp only [Program.value_bind, value_verifier, Asserted.within]
        split
        · simp
        · split
          · rfl
          · rfl
    · have hsome : (!(draft.citations.filter (fun citation => (reader.cited citation).isNone)).isEmpty) = true := by
        simpa using hdangling
      simp only [hsome, if_true]
      rfl

end Values

end Solvan.Liaison.Turn
