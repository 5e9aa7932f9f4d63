import Solvan.Liaison.GrantedReader

/-! The typed parts of an answer, and who may see each one. -/
namespace Solvan.Liaison.Turn

inductive PartKind where
  | text | claim | tool | catchupDelta | steerDraft | approvalRef | guidanceRef | refusal | budgetNote
  | parkedRequest | compaction | contentWithheld | interrupted | error
deriving DecidableEq, Repr

inductive AccessMode where
  | recordSet | participantsAtEpoch | authorOnly | systemPublic | derivedSources
deriving DecidableEq, Repr

/-- One record that the visibility of a part depends on. -/
structure AccessReference where
  recordType : String
  recordId : String
  relation : String
deriving DecidableEq, Repr

def AccessReference.record (reference : AccessReference) : RecordKey :=
  (reference.recordType, reference.recordId)

structure Part where
  kind : PartKind
  sequence : Nat
  payload : Record
  classification : String
  accessMode : AccessMode
  accessSet : List AccessReference
  authorPrincipal : Option String
  membershipEpoch : Option Int
  authored : accessMode = .authorOnly → authorPrincipal.any (· != "") = true
  epoch : accessMode = .participantsAtEpoch → membershipEpoch.isSome = true

def Polarity.text : Polarity → String
  | .affirmative => "AFFIRMATIVE"
  | .holding => "HOLDING"
  | .neutral => "NEUTRAL"

def Citation.value (citation : Citation) : Value :=
  .mapping [("record_type", .str citation.recordType), ("record_id", .str citation.recordId)]

/-- `_access_set_from_claim` -/
def accessSetFromClaim (claim : ComposedClaim) : List AccessReference :=
  claim.citations.map (fun citation => ⟨citation.recordType, citation.recordId, "CITES"⟩)

/-- `claim_part`, of a claim that is not suppressed -/
def claimPart (claim : ComposedClaim) (sequence : Nat) (classification : String) : Part where
  kind := if claim.outcome = .held then .refusal else .claim
  sequence := sequence
  payload :=
    [("template_id", .str claim.templateId), ("claim_kind", .str claim.kind),
      ("polarity", .str (Polarity.text claim.polarity)), ("subject_ref", .str claim.subjectRef),
      ("sentence", .str claim.sentence), ("citations", .sequence (claim.citations.map Citation.value))] ++
    if claim.outcome = .held then
      [("held_reason", .str claim.reason),
        ("releasing_record", (claim.releasingRecord.map Value.str).getD .none)]
    else []
  classification := classification
  accessMode := .recordSet
  accessSet := accessSetFromClaim claim
  authorPrincipal := none
  membershipEpoch := none
  authored := nofun
  epoch := nofun

/-- A part that anyone may see. -/
def publicPart (kind : PartKind) (sequence : Nat) (payload : Record) (classification : String) : Part where
  kind := kind
  sequence := sequence
  payload := payload
  classification := classification
  accessMode := .systemPublic
  accessSet := []
  authorPrincipal := none
  membershipEpoch := none
  authored := nofun
  epoch := nofun

/-- `connective_part` -/
def connectivePart (sentence : String) (sequence : Nat) (templateId : String) : Part :=
  publicPart .text sequence [("template_id", .str templateId), ("sentence", .str sentence)] "INTERNAL"

/-- `withheld_part` -/
def withheldPart (sequence : Nat) (verdictRef reason : String) : Part :=
  publicPart .contentWithheld sequence [("verdict_ref", .str verdictRef), ("reason", .str reason)] "INTERNAL"

/-- `reader_may_see` -/
def readerMaySee (part : Part) (readerPrincipal : String) (authorizedRecords : List RecordKey)
    (participants : List String) : Bool :=
  match part.accessMode with
  | .systemPublic => true
  | .authorOnly => part.authorPrincipal == some readerPrincipal
  | .participantsAtEpoch => participants.contains readerPrincipal
  | .derivedSources => false
  | .recordSet =>
    !part.accessSet.isEmpty &&
      part.accessSet.all (fun reference => authorizedRecords.contains reference.record)

/-- `visible_parts` -/
def visibleParts (parts : List Part) (readerPrincipal : String) (authorizedRecords : List RecordKey)
    (participants : List String) : List Part :=
  parts.map (fun part =>
    if readerMaySee part readerPrincipal authorizedRecords participants then part
    else
      withheldPart part.sequence "reader-authority" "This part cites a record outside your authority.")

/-- Joining text, which may be one of a few phrases. -/
structure ConnectiveTemplate where
  id : String
  sentence : List Piece
  slot : String
  allowedLeads : List String
deriving DecidableEq, Repr

structure Registry where
  templates : TemplateRegistry
  connectives : List ConnectiveTemplate

/-- `connective` and `render` -/
def Registry.render (registry : Registry) (lang : Language) (templateId phrase : String) :
    Except String String :=
  match registry.connectives.find? (fun connective => connective.id == templateId) with
  | none => .error ("unknown connective template " ++ templateId)
  | some connective =>
    if connective.allowedLeads.contains phrase then
      .ok (String.join (connective.sentence.map (Piece.format [(connective.slot, phrase)])))
    else
      .error ("connective " ++ connective.id ++ " does not permit the phrase " ++ lang.repr phrase)

/-- A connective that says its phrase and nothing else. -/
def phraseOf (id slot : String) (allowedLeads : List String) : ConnectiveTemplate :=
  ⟨id, [.slot slot], slot, allowedLeads⟩

def leadIn : ConnectiveTemplate := phraseOf "LEAD_IN" "lead"
  ["Here is what the ledger holds.", "Here is what happened.", "Here is the current state.",
    "Here is what I can confirm."]

def listFrame : ConnectiveTemplate := phraseOf "LIST_FRAME" "frame"
  ["The measured impact:", "The sequence:", "The evidence on file:", "What remains:"]

def chainStep : ConnectiveTemplate := phraseOf "CHAIN_STEP" "step"
  ["Fault", "Mechanism", "Impact", "Recovery", "Outcome"]

def handoff : ConnectiveTemplate := phraseOf "HANDOFF" "handoff"
  ["Open the incident to act on this.", "The next step belongs to a person.",
    "Nothing further is required right now."]

def socialReply : ConnectiveTemplate := phraseOf "SOCIAL_REPLY" "reply"
  ["Hello. Ask me about this incident, its impact, evidence, actions, or recovery.", "You're welcome."]

def helpReply : ConnectiveTemplate := phraseOf "HELP_REPLY" "reply"
  ["I can explain what happened, measured impact, evidence, governed actions, and independently verified recovery for this incident."]

def outOfScopeReply : ConnectiveTemplate := phraseOf "OUT_OF_SCOPE_REPLY" "reply"
  ["I can only help with this incident and its governed operational records."]

def scopeSocialReply : ConnectiveTemplate := phraseOf "SCOPE_SOCIAL_REPLY" "reply"
  ["Hello. Ask me about reader-visible records in the current workspace.", "You're welcome."]

def scopeHelpReply : ConnectiveTemplate := phraseOf "SCOPE_HELP_REPLY" "reply"
  ["I can summarize reader-visible incidents, evidence, governed actions, and recovery records in this workspace."]

def scopeBoundaryReply : ConnectiveTemplate := phraseOf "SCOPE_BOUNDARY_REPLY" "reply"
  ["To request fresh telemetry, investigation, an approval, or an action, select a bounded incident or service window first."]

/-- `config/liaison-claim-templates.yaml` -/
def liaisonRegistry : Registry where
  templates := claimTemplates
  connectives :=
    [leadIn, listFrame, chainStep, handoff, socialReply, helpReply, outOfScopeReply, scopeSocialReply,
      scopeHelpReply, scopeBoundaryReply]

end Solvan.Liaison.Turn
