import Solvan.Liaison.Parts

/-! The composer of the enumerated questions: what it reads, and what it drafts. -/
namespace Solvan.Liaison.Turn
open Solvan.Base

inductive Draft where
  | claim (draft : ClaimDraft)
  | connective (templateId phrase : String)

/-- What the ledger cannot answer, and the step that would. -/
structure Escalation where
  missing : String
  proposedStep : String
  toolProfile : List String
deriving DecidableEq, Repr

/-- A question that waits for a record to be named. -/
structure Hold where
  sentence : String
  heldReason : String
  releasingRecord : String
deriving DecidableEq, Repr

/-- What a drafter produced, before any gate has run. -/
structure Composition where
  drafts : List Draft := []
  escalation : Option Escalation := none
  hold : Option Hold := none
  replyIntent : Option String := none
  suggested : List String := []
  modelCalls : Nat := 0
  toolCalls : Nat := 0
  tokens : Nat := 0
  screeningBlocked : Bool := false
  parkedRequest : Option Record := none
  providerDegraded : Bool := false

abbrev DraftProgram := Program Drafting Drafting.Answer

/-- A composer, which is given the question, the anchor and the provider's input. -/
abbrev Composer := String → Anchor → Option String → DraftProgram Composition

def readRecord (recordType recordId : String) : DraftProgram (Option Record) :=
  .ask (.read recordType recordId) .done

def searchRecords (query : RecordSearch) : DraftProgram (List Value) := .ask (.search query) .done

/-- `_incident_of` -/
def incidentOf : Anchor → Option String
  | .record (recordType, recordId) => if recordType = "incident" then some recordId else none
  | _ => none

/-- `record.get(field)` where that is a mapping -/
def mappingOf (record : Record) (field : String) : Option Record :=
  match record.lookup field with
  | some (.mapping fields) => some fields
  | _ => none

/-- The mappings in a sequence. A text is a sequence of characters, which are none. -/
def mappingsIn : Option Value → List Record
  | some (.sequence items) => items.filterMap (fun item =>
      match item with
      | .mapping fields => some fields
      | _ => none)
  | _ => []

/-- `str(record.get(field, default))` -/
def getOr (lang : Language) (record : Record) (field default : String) : String :=
  ((record.lookup field).map lang.str).getD default

/-- `str(record[field])` where that is truthy -/
def truthyText (lang : Language) (record : Record) (field : String) : Option String :=
  ((record.lookup field).filter Value.truthy).map lang.str

/-- `_verification_citation` -/
def verificationCitation (lang : Language) (record : Record) : List Citation :=
  (((mappingOf record "verification").bind (fun verification => truthyText lang verification "id")).map
    (fun id => Citation.mk "verification_run" id)).toList

/-- The impact lines of a brief. -/
def impactLines (record : Record) : List Record :=
  mappingsIn ((mappingOf record "brief").bind (fun brief => brief.lookup "impact_lines"))

abbrev Answered := List Draft × Option Escalation

/-- A claim that cites the incident it is about. -/
def incidentClaim (templateId incidentId : String) (values : Values) : Draft :=
  .claim ⟨templateId, incidentId, values, [⟨"incident", incidentId⟩]⟩

section Answers

variable (lang : Language) (incidentId : String) (record : Record)

/-- `_answer_where_are_we` -/
def answerWhereAreWe : Answered :=
  ([.connective "LEAD_IN" "Here is the current state.",
    incidentClaim "STATE_REPORT" incidentId [],
    incidentClaim "AWAITING_HUMAN" incidentId [],
    .claim ⟨"RECOVERY_VERIFIED", incidentId, [],
      ⟨"incident", incidentId⟩ :: verificationCitation lang record⟩], none)

/-- `_answer_is_it_closed` -/
def answerIsItClosed : Answered := ([incidentClaim "INCIDENT_CLOSED" incidentId []], none)

/-- `_answer_is_it_fixed` -/
def answerIsItFixed : Answered :=
  let detail := "the observation window and a fresh synthetic probe passed"
  let detail :=
    match mappingOf record "verification" with
    | some verification => getOr lang verification "threshold" detail
    | none => detail
  ([.connective "LEAD_IN" "Here is what I can confirm.",
    .claim ⟨"RECOVERY_VERIFIED", incidentId, [("subject_label", incidentId), ("verdict_detail", detail)],
      verificationCitation lang record⟩], none)

/-- `_answer_what_happened` -/
def answerWhatHappened : Answered :=
  (.connective "LEAD_IN" "Here is what happened." ::
    (mappingsIn (record.lookup "causal_chain")).flatMap (fun step =>
      (if chainStepLabels.contains (lang.get step "label") then
        [Draft.connective "CHAIN_STEP" (lang.get step "label")]
      else []) ++
      [incidentClaim "RECORD_STATEMENT" incidentId [("quoted_text", lang.get step "detail")]]), none)

/-- `_answer_what_was_the_impact` -/
def answerWhatWasTheImpact : Answered :=
  (.connective "LIST_FRAME" "The measured impact:" ::
    (impactLines record).map (fun line =>
      .claim ⟨"MEASURED_VALUE", incidentId,
        [("metric", lang.get line "metric"), ("scope_label", lang.get line "scope"),
          ("detail", lang.get line "detail")],
        ⟨"incident", incidentId⟩ ::
          ((truthyText lang line "citation").map (fun citation => Citation.mk "evidence_item" citation)).toList⟩),
    none)

/-- `_answer_what_needs_me` -/
def answerWhatNeedsMe : Answered :=
  ([incidentClaim "AWAITING_HUMAN" incidentId
      [("subject_label", incidentId), ("detail", lang.get record "next_action")],
    .connective "HANDOFF" "Open the incident to act on this."], none)

/-- `_answer_was_data_lost` -/
def answerWasDataLost : Answered :=
  let detail := ((mappingOf record "brief").map (fun brief => lang.get brief "data_loss")).getD ""
  ([.claim ⟨"DATA_LOSS_ABSENT", incidentId,
      [("subject_label", incidentId), ("evidence_detail", orElse detail "no unreconciled effect was observed")],
      verificationCitation lang record⟩], none)

/-- The impact lines that speak of something downstream. -/
def downstreamLines : List Record :=
  (impactLines record).filter (fun line =>
    decide ("downstream".toList <:+: (lang.get line "metric").toList))

/-- The evidence that these lines cite. -/
def downstreamCitations : List Citation :=
  (downstreamLines lang record).filterMap (fun line =>
    (truthyText lang line "citation").map (fun citation => Citation.mk "evidence_item" citation))

/-- `_answer_is_anything_else_affected` -/
def answerIsAnythingElseAffected : Answered :=
  let detail := (downstreamLines lang record).foldl (fun detail line => getOr lang line "detail" detail)
    "no error propagated beyond the affected service"
  ([.claim ⟨"BLAST_RADIUS_CONTAINED", incidentId,
      [("subject_label", getOr lang record "service" incidentId), ("evidence_detail", detail)],
      downstreamCitations lang record⟩], none)

/-- `_answer_what_is_the_evidence` -/
def answerWhatIsTheEvidence : Answered :=
  (.connective "LIST_FRAME" "The evidence on file:" ::
    (mappingsIn (record.lookup "evidence_index")).map (fun item =>
      .claim ⟨"RECORD_STATEMENT", incidentId, [("quoted_text", lang.get item "label")],
        [⟨"evidence_item", lang.get item "ref"⟩]⟩), none)

/-- `_answer_was_the_change_applied` -/
def answerWasTheChangeApplied : Answered :=
  ((mappingsIn (record.lookup "actions")).map (fun action =>
    .claim ⟨"CHANGE_DEPLOYED", lang.get action "id",
      [("subject_label", getOr lang action "name" (lang.get action "id")),
        ("receipt_detail", lang.get action "receipt"), ("status", lang.get action "status")],
      [⟨"action", lang.get action "id"⟩]⟩), none)

/-- The methods of the questions. -/
def answers : List (String × Answered) :=
  [("WHERE_ARE_WE", answerWhereAreWe lang incidentId record),
    ("IS_IT_CLOSED", answerIsItClosed incidentId),
    ("IS_IT_FIXED", answerIsItFixed lang incidentId record),
    ("WHAT_HAPPENED", answerWhatHappened lang incidentId record),
    ("WHAT_WAS_THE_IMPACT", answerWhatWasTheImpact lang incidentId record),
    ("WHAT_NEEDS_ME", answerWhatNeedsMe lang incidentId record),
    ("WAS_DATA_LOST", answerWasDataLost lang incidentId record),
    ("IS_ANYTHING_ELSE_AFFECTED", answerIsAnythingElseAffected lang incidentId record),
    ("WHAT_IS_THE_EVIDENCE", answerWhatIsTheEvidence lang incidentId record),
    ("WAS_THE_CHANGE_APPLIED", answerWasTheChangeApplied lang record)]

/-- The method of a question, by its id. -/
def answer (questionId : String) : Option Answered := (answers lang incidentId record).lookup questionId

variable {lang incidentId record} {questionId : String} {answered : Answered}

theorem answer_mem (h : answer lang incidentId record questionId = some answered) :
    (questionId, answered) ∈ answers lang incidentId record := by
  obtain ⟨before, after, hsplit, -⟩ := List.lookup_eq_some_iff.mp h
  rw [hsplit]
  exact List.mem_append_right _ List.mem_cons_self

end Answers

section Compose

variable (env : Platform) (question : String)

def noAnswerShape : Escalation :=
  ⟨"I do not hold an answer shape for that question", "Request a bounded evidence read for this incident.",
    ["metrics.read"]⟩

/-- The answer about an incident that was read. -/
def composeRecord (incidentId : String) (record : Record) : Composition :=
  match matchQuestion env question (some record) with
  | none => { escalation := some noAnswerShape, suggested := offeredQuestions env record }
  | some matched =>
    match answer env.lang incidentId record matched.id with
    | none => { suggested := offeredQuestions env record }
    | some answered =>
      { drafts := answered.1, escalation := answered.2, suggested := offeredQuestions env record }

def anchorUnreadable : Hold :=
  ⟨"I cannot read the record this conversation is about.", "ANCHOR_UNREADABLE",
    "a reader grant covering the anchored record"⟩

/-- The answer about the incident of an anchor, if that was read. -/
def composeAbout (incidentId : String) : Option Record → Composition
  | none => { hold := some anchorUnreadable }
  | some record => composeRecord env question incidentId record

def unmatchedAcross : Hold :=
  ⟨"I do not hold an answer shape for that question.", "NO_ANSWER_SHAPE",
    "an enumerated question about a visible record"⟩

def anchorNotNarrowed (matched : Question) : Hold :=
  ⟨"“" ++ matched.prompt ++ "” is about one record, and this conversation is not attached to one.",
    "ANCHOR_NOT_NARROWED", "an attached incident or service window"⟩

def emptyAuthorizedSet : Hold :=
  ⟨"No incident here is visible to you.", "EMPTY_AUTHORIZED_SET", "a reader grant covering an incident"⟩

/-- The search of `_visible_incidents` -/
def incidentSearch : Anchor → RecordSearch
  | .serviceWindow serviceKey windowStart windowEnd =>
    ⟨some serviceKey, none, some "incident", some windowStart, some windowEnd⟩
  | _ => ⟨none, none, some "incident", none, none⟩

/-- The ids in the rows of a search. -/
def rowIds (lang : Language) (rows : List Value) : List String :=
  (mappingsIn (some (.sequence rows))).filterMap (fun row => truthyText lang row "record_id")

/-- `_cross_record_drafts` -/
def crossRecordDrafts (questionId incidentId : String) : List Draft :=
  if questionId = "IS_IT_CLOSED" then [incidentClaim "INCIDENT_CLOSED" incidentId []]
  else [incidentClaim "STATE_REPORT" incidentId [], incidentClaim "AWAITING_HUMAN" incidentId []]

/-- The answer about the incidents that a search found. -/
def composeIncidents (matched : Question) (incidents : List String) : Composition :=
  if incidents.isEmpty then { hold := some emptyAuthorizedSet, suggested := scopeOfferedQuestions }
  else
    { drafts :=
        .connective "LIST_FRAME" (if matched.id = "WHERE_ARE_WE" then "The sequence:" else "What remains:") ::
          incidents.flatMap (crossRecordDrafts matched.id)
      suggested := scopeOfferedQuestions }

/-- `_compose_across_records` -/
def composeAcrossRecords (anchor : Anchor) : DraftProgram Composition :=
  match matchQuestion env question none with
  | none => pure { hold := some unmatchedAcross, suggested := scopeOfferedQuestions }
  | some matched =>
    if !matched.answersAcrossRecords then
      pure { hold := some (anchorNotNarrowed matched), suggested := scopeOfferedQuestions }
    else do
      let rows ← searchRecords (incidentSearch anchor)
      return composeIncidents matched (rowIds env.lang rows)

end Compose

/-- `EnumeratedComposer.compose` -/
def enumeratedComposer (env : Platform) : Composer := fun question anchor _ =>
  match incidentOf anchor with
  | none => composeAcrossRecords env question anchor
  | some incidentId => do
    let record ← readRecord "incident" incidentId
    return composeAbout env question incidentId record

section Reads

variable {env : Platform} {oracle : (call : Drafting) → call.Answer} {question incidentId : String}
  {providerInput : Option String}

theorem incidentOf_some {anchor : Anchor} (h : incidentOf anchor = some incidentId) :
    anchor = .record ("incident", incidentId) := by
  cases anchor with
  | record record =>
    obtain ⟨recordType, recordId⟩ := record
    simp only [incidentOf] at h
    split at h
    · rename_i htype
      rw [htype, Option.some.inj h]
    · cases h
  | serviceWindow serviceKey windowStart windowEnd => cases h
  | scope => cases h

/-- The one thing that a conversation with this anchor reads. -/
def anchorCall (anchor : Anchor) : Drafting :=
  match incidentOf anchor with
  | some incidentId => .read "incident" incidentId
  | none => .search (incidentSearch anchor)

/-- Whether an answer reads it: it searches only for a question that is answered across records. -/
def reads (env : Platform) (question : String) (anchor : Anchor) : Bool :=
  (incidentOf anchor).isSome || (matchQuestion env question none).any Question.answersAcrossRecords

/-- The composer is done without a read, or after the one read of its anchor. -/
theorem enumerated_form (anchor : Anchor) :
    (reads env question anchor = false ∧
        ∃ composition, enumeratedComposer env question anchor providerInput = .done composition) ∨
      (reads env question anchor = true ∧ ∃ compose : (anchorCall anchor).Answer → Composition,
        enumeratedComposer env question anchor providerInput =
          .ask (anchorCall anchor) (fun answer => .done (compose answer))) := by
  unfold enumeratedComposer anchorCall reads
  cases incidentOf anchor with
  | some incidentId => exact .inr ⟨rfl, _, rfl⟩
  | none =>
    dsimp only
    unfold composeAcrossRecords
    cases matchQuestion env question none with
    | none => exact .inl ⟨rfl, _, rfl⟩
    | some matched =>
      dsimp only
      cases hacross : matched.answersAcrossRecords with
      | false => exact .inl ⟨by simp [hacross], _, rfl⟩
      | true => exact .inr ⟨by simp [hacross], _, rfl⟩

theorem enumerated_asked (anchor : Anchor) :
    ((enumeratedComposer env question anchor providerInput).asked oracle) =
      if reads env question anchor then [anchorCall anchor] else [] := by
  obtain ⟨hreads, composition, hform⟩ | ⟨hreads, compose, hform⟩ :=
    @enumerated_form env question providerInput anchor
  · rw [hform, hreads]
    rfl
  · rw [hform, hreads]
    rfl

theorem enumerated_value_incident :
    (enumeratedComposer env question (.record ("incident", incidentId)) providerInput).value oracle =
      composeAbout env question incidentId (oracle (.read "incident" incidentId)) := rfl

/-- A composition of drafts, an escalation, a hold and suggestions, and nothing else. -/
structure Composition.Plain (composition : Composition) : Prop where
  replyIntent : composition.replyIntent = none
  modelCalls : composition.modelCalls = 0
  toolCalls : composition.toolCalls = 0
  tokens : composition.tokens = 0
  screeningBlocked : composition.screeningBlocked = false
  parkedRequest : composition.parkedRequest = none
  providerDegraded : composition.providerDegraded = false

theorem composeRecord_plain (record : Record) : (composeRecord env question incidentId record).Plain := by
  unfold composeRecord
  split
  · exact ⟨rfl, rfl, rfl, rfl, rfl, rfl, rfl⟩
  · split <;> exact ⟨rfl, rfl, rfl, rfl, rfl, rfl, rfl⟩

theorem composeAbout_plain (record : Option Record) : (composeAbout env question incidentId record).Plain := by
  cases record with
  | none => exact ⟨rfl, rfl, rfl, rfl, rfl, rfl, rfl⟩
  | some record => exact composeRecord_plain record

theorem composeIncidents_plain {matched : Question} {incidents : List String} :
    (composeIncidents matched incidents).Plain := by
  unfold composeIncidents
  split <;> exact ⟨rfl, rfl, rfl, rfl, rfl, rfl, rfl⟩

/-- The composer spends nothing, asks for nothing to be parked and classifies nothing. -/
theorem enumerated_plain (anchor : Anchor) :
    ((enumeratedComposer env question anchor providerInput).value oracle).Plain := by
  unfold enumeratedComposer
  split
  · unfold composeAcrossRecords
    split
    · exact ⟨rfl, rfl, rfl, rfl, rfl, rfl, rfl⟩
    · split
      · exact ⟨rfl, rfl, rfl, rfl, rfl, rfl, rfl⟩
      · exact composeIncidents_plain
  · exact composeAbout_plain _

/-- Where a draft of the composer comes from: the answer about the incident of the anchor, or a list of incidents. -/
theorem enumerated_drafts {anchor : Anchor} {item : Draft}
    (hitem : item ∈ ((enumeratedComposer env question anchor providerInput).value oracle).drafts) :
    (∃ incidentId record matched answered, incidentOf anchor = some incidentId ∧
        oracle (.read "incident" incidentId) = some record ∧ matchQuestion env question (some record) = some matched ∧
        answer env.lang incidentId record matched.id = some answered ∧ item ∈ answered.1) ∨
      incidentOf anchor = none ∧ ∃ matched incidents, item ∈ (composeIncidents matched incidents).drafts := by
  cases hincident : incidentOf anchor with
  | none =>
    refine .inr ⟨rfl, ?_⟩
    unfold enumeratedComposer composeAcrossRecords at hitem
    rw [hincident] at hitem
    dsimp only at hitem
    split at hitem
    · cases hitem
    · split at hitem
      · cases hitem
      · rw [Program.value_bind] at hitem
        exact ⟨_, _, hitem⟩
  | some incidentId =>
    obtain rfl := incidentOf_some hincident
    rw [enumerated_value_incident] at hitem
    cases hread : oracle (.read "incident" incidentId) with
    | none =>
      rw [hread] at hitem
      cases hitem
    | some record =>
      rw [hread] at hitem
      dsimp only [composeAbout, composeRecord] at hitem
      split at hitem
      · cases hitem
      · rename_i matched hmatched
        split at hitem
        · cases hitem
        · rename_i answered hanswer
          exact .inl ⟨incidentId, record, matched, answered, rfl, hread, hmatched, hanswer, hitem⟩

end Reads

end Solvan.Liaison.Turn
