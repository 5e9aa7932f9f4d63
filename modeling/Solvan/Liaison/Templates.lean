import Solvan.Liaison.Predicates

/-! The templates of all sentences that can be said. -/
namespace Solvan.Liaison

inductive Polarity where
  | affirmative | holding | neutral
deriving DecidableEq, Repr

/-- Where one rendered word comes from. -/
inductive SlotSource where
  | record (recordType field : String)
  | subject
  | holdingReason
  | modelQuoted
deriving DecidableEq, Repr

/-- A piece of a sentence form. -/
inductive Piece where
  | text (s : String)
  | slot (name : String)
deriving DecidableEq, Repr

structure ClaimTemplate where
  id : String
  kind : String
  polarity : Polarity
  held : Bool
  sentence : List Piece
  slots : List String
  slotSources : List (String × SlotSource)
  predicate : Predicate
  releasingRecord : Option String
  holdingTemplate : Option String
deriving DecidableEq, Repr

/-- A piece with the slots filled. -/
def Piece.format (values : Values) : Piece → String
  | .text s => s
  | .slot name => (values.lookup name).getD ""

def ClaimTemplate.render (template : ClaimTemplate) (values : Values) : Except String String :=
  let missing := template.slots.filter (fun slot => (values.lookup slot).isNone)
  let extra := (values.map Prod.fst).filter (fun key => !template.slots.contains key)
  if !missing.isEmpty then
    .error ("template " ++ template.id ++ " is missing slot values: " ++ joinSorted missing)
  else if !extra.isEmpty then
    .error ("template " ++ template.id ++ " received unknown slots: " ++ joinSorted extra)
  else .ok (String.join (template.sentence.map (Piece.format values)))

abbrev TemplateRegistry := List ClaimTemplate

def TemplateRegistry.claim (registry : TemplateRegistry) (templateId : String) : Option ClaimTemplate :=
  registry.find? (fun template => template.id == templateId)

def recoveryVerified : ClaimTemplate where
  id := "RECOVERY_VERIFIED"
  kind := "RECOVERY"
  polarity := .affirmative
  held := true
  holdingTemplate := some "RECOVERY_PENDING"
  sentence := [.text "Recovery is independently verified for ", .slot "subject_label", .text ": ",
    .slot "verdict_detail", .text "."]
  slots := ["subject_label", "verdict_detail"]
  slotSources := [("subject_label", .subject), ("verdict_detail", .record "verification_run" "threshold")]
  predicate := .verificationPassed
  releasingRecord := some "verification_run"

def recoveryPending : ClaimTemplate where
  id := "RECOVERY_PENDING"
  kind := "RECOVERY"
  polarity := .holding
  held := false
  holdingTemplate := none
  sentence := [.text "Recovery is not confirmed yet for ", .slot "subject_label", .text ". ",
    .slot "progress_detail", .text " I will confirm when the window passes."]
  slots := ["subject_label", "progress_detail"]
  slotSources := [("subject_label", .subject), ("progress_detail", .holdingReason)]
  predicate := .always
  releasingRecord := none

def dataLossAbsent : ClaimTemplate where
  id := "DATA_LOSS_ABSENT"
  kind := "DATA_LOSS"
  polarity := .affirmative
  held := true
  holdingTemplate := some "DATA_LOSS_UNKNOWN"
  sentence := [.text "No data loss was observed for ", .slot "subject_label", .text ": ",
    .slot "evidence_detail", .text "."]
  slots := ["subject_label", "evidence_detail"]
  slotSources := [("subject_label", .subject), ("evidence_detail", .record "verification_run" "synthetic")]
  predicate := .verificationPassed
  releasingRecord := some "verification_run"

def dataLossUnknown : ClaimTemplate where
  id := "DATA_LOSS_UNKNOWN"
  kind := "DATA_LOSS"
  polarity := .holding
  held := false
  holdingTemplate := none
  sentence := [.text "Whether ", .slot "subject_label",
    .text " lost data is not established; no passed verification carries that statement."]
  slots := ["subject_label"]
  slotSources := [("subject_label", .subject)]
  predicate := .always
  releasingRecord := none

def incidentClosed : ClaimTemplate where
  id := "INCIDENT_CLOSED"
  kind := "CLOSURE"
  polarity := .affirmative
  held := true
  holdingTemplate := some "INCIDENT_OPEN"
  sentence := [.slot "subject_label", .text " is closed; its final committed state is ", .slot "state",
    .text "."]
  slots := ["subject_label", "state"]
  slotSources := [("subject_label", .subject), ("state", .record "incident" "state")]
  predicate := .terminalState
  releasingRecord := some "incident"

def incidentOpen : ClaimTemplate where
  id := "INCIDENT_OPEN"
  kind := "CLOSURE"
  polarity := .holding
  held := false
  holdingTemplate := none
  sentence := [.slot "subject_label", .text " is still open; its committed state is ", .slot "state",
    .text "."]
  slots := ["subject_label", "state"]
  slotSources := [("subject_label", .subject), ("state", .record "incident" "state")]
  predicate := .recordFieldEquals
  releasingRecord := some "incident"

def changeDeployed : ClaimTemplate where
  id := "CHANGE_DEPLOYED"
  kind := "DEPLOYMENT"
  polarity := .affirmative
  held := true
  holdingTemplate := some "CHANGE_NOT_DEPLOYED"
  sentence := [.slot "subject_label", .text " was applied to production and its effect was reconciled (",
    .slot "receipt_detail", .text ")."]
  slots := ["subject_label", "receipt_detail"]
  slotSources := [("subject_label", .record "action" "name"), ("receipt_detail", .record "action" "receipt")]
  predicate := .receiptReconciled
  releasingRecord := some "action"

def changeNotDeployed : ClaimTemplate where
  id := "CHANGE_NOT_DEPLOYED"
  kind := "DEPLOYMENT"
  polarity := .holding
  held := false
  holdingTemplate := none
  sentence := [.slot "subject_label", .text " has not been applied; it is ", .slot "status", .text "."]
  slots := ["subject_label", "status"]
  slotSources := [("subject_label", .record "action" "name"), ("status", .record "action" "status")]
  predicate := .recordFieldEquals
  releasingRecord := some "action"

def blastRadiusContained : ClaimTemplate where
  id := "BLAST_RADIUS_CONTAINED"
  kind := "CONTAINMENT"
  polarity := .affirmative
  held := true
  holdingTemplate := some "BLAST_RADIUS_UNKNOWN"
  sentence := [.text "The fault stayed inside ", .slot "subject_label", .text ": ", .slot "evidence_detail",
    .text "."]
  slots := ["subject_label", "evidence_detail"]
  slotSources := [("subject_label", .record "evidence_item" "source"),
    ("evidence_detail", .record "evidence_item" "label")]
  predicate := .evidenceCovers
  releasingRecord := some "evidence_item"

def blastRadiusUnknown : ClaimTemplate where
  id := "BLAST_RADIUS_UNKNOWN"
  kind := "CONTAINMENT"
  polarity := .holding
  held := false
  holdingTemplate := none
  sentence := [.text "The blast radius of ", .slot "subject_label",
    .text " is not established from stored evidence."]
  slots := ["subject_label"]
  slotSources := [("subject_label", .subject)]
  predicate := .always
  releasingRecord := none

def recordStatement : ClaimTemplate where
  id := "RECORD_STATEMENT"
  kind := "DESCRIPTION"
  polarity := .neutral
  held := false
  holdingTemplate := none
  sentence := [.slot "quoted_text"]
  slots := ["quoted_text"]
  slotSources := [("quoted_text", .modelQuoted)]
  predicate := .recordTextEquals
  releasingRecord := none

def measuredValue : ClaimTemplate where
  id := "MEASURED_VALUE"
  kind := "MEASUREMENT"
  polarity := .neutral
  held := false
  holdingTemplate := none
  sentence := [.slot "metric", .text " on ", .slot "scope_label", .text " — ", .slot "detail", .text "."]
  slots := ["metric", "scope_label", "detail"]
  slotSources := [("metric", .modelQuoted), ("scope_label", .modelQuoted), ("detail", .modelQuoted)]
  predicate := .recordFieldEquals
  releasingRecord := none

def stateReport : ClaimTemplate where
  id := "STATE_REPORT"
  kind := "STATE"
  polarity := .neutral
  held := false
  holdingTemplate := none
  sentence := [.slot "subject_label", .text " is currently ", .slot "state", .text "."]
  slots := ["subject_label", "state"]
  slotSources := [("subject_label", .subject), ("state", .record "incident" "state")]
  predicate := .recordFieldEquals
  releasingRecord := none

def awaitingHuman : ClaimTemplate where
  id := "AWAITING_HUMAN"
  kind := "ATTENTION"
  polarity := .affirmative
  held := true
  holdingTemplate := some "NO_HUMAN_ATTENTION_PENDING"
  sentence := [.slot "subject_label", .text " is waiting on a person: ", .slot "detail", .text "."]
  slots := ["subject_label", "detail"]
  slotSources := [("subject_label", .subject), ("detail", .record "incident" "next_action")]
  predicate := .humanAttentionPending
  releasingRecord := some "incident"

def noHumanAttentionPending : ClaimTemplate where
  id := "NO_HUMAN_ATTENTION_PENDING"
  kind := "ATTENTION"
  polarity := .holding
  held := false
  holdingTemplate := none
  sentence := [.slot "subject_label", .text " is not waiting on a person; its committed state is ",
    .slot "state", .text "."]
  slots := ["subject_label", "state"]
  slotSources := [("subject_label", .subject), ("state", .record "incident" "state")]
  predicate := .always
  releasingRecord := none

/-- `config/liaison-claim-templates.yaml` -/
def claimTemplates : TemplateRegistry :=
  [recoveryVerified, recoveryPending, dataLossAbsent, dataLossUnknown, incidentClosed, incidentOpen,
    changeDeployed, changeNotDeployed, blastRadiusContained, blastRadiusUnknown, recordStatement,
    measuredValue, stateReport, awaitingHuman, noHumanAttentionPending]

/-- What `load_registry` checks of the slots: they are those of the sentence, each has a source, and a
held template says nothing that the model wrote. -/
def ClaimTemplate.wellSourced (template : ClaimTemplate) : Bool :=
  template.slots.all (fun slot => template.sentence.contains (.slot slot) &&
      (template.slotSources.lookup slot).isSome) &&
    template.sentence.all (fun piece =>
      match piece with
      | .text _ => true
      | .slot name => template.slots.contains name) &&
    (!template.held || template.slotSources.all (fun source => source.2 != .modelQuoted))

theorem claimTemplates_sourced : claimTemplates.all ClaimTemplate.wellSourced = true := by decide

theorem TemplateRegistry.claim_some {registry : TemplateRegistry} {templateId : String}
    {template : ClaimTemplate} (h : registry.claim templateId = some template) :
    template ∈ registry ∧ template.id = templateId :=
  ⟨List.mem_of_find?_eq_some h, by simpa using List.find?_some h⟩

/-- Each template is found by its id. -/
theorem claim_self : ∀ template ∈ claimTemplates, claimTemplates.claim template.id = some template := by
  decide

end Solvan.Liaison
