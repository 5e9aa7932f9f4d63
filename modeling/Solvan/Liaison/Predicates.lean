import Mathlib.Data.List.Sort
import Solvan.Liaison.Records

/-! The verifiers: whether cited records establish a claim about a subject. -/
namespace Solvan.Liaison

structure PredicateResult where
  satisfied : Bool
  /-- Why it failed. -/
  reason : String
deriving DecidableEq, Repr

def PredicateResult.failed (reason : String) : PredicateResult := ⟨false, reason⟩

def PredicateResult.ok : PredicateResult := ⟨true, ""⟩

def terminalIncidentStates : List String := ["RESOLVED", "CLOSED"]

def reconciledActionStates : List String := ["RECONCILED", "SUCCEEDED", "VERIFIED"]

def attentionIncidentStates : List String := ["AWAITING_APPROVAL", "MITIGATED", "ESCALATED"]

/-- `value or other` -/
def orElse (value other : String) : String := if value = "" then other else value

/-- `_subject_label` -/
def subjectLabel (subjectRef : String) : String := orElse subjectRef "the claim's subject"

/-- `', '.join(sorted(texts))` -/
def joinSorted (texts : List String) : String :=
  ", ".intercalate (texts.insertionSort (fun a b => a ≤ b))

/-- What a verifier is given. -/
structure Assertion where
  reader : ProjectionReader
  subjectRef : String
  citations : List Citation
  values : Values

def verificationPassed (lang : Language) (claim : Assertion) : PredicateResult :=
  match first claim.reader claim.citations "verification_run" with
  | none => .failed "no verification run is cited"
  | some (citation, record) =>
    if !matchesSubject lang record claim.subjectRef then
      .failed ("verification " ++ citation.recordId ++ " is not about " ++ claim.subjectRef)
    else
      let verdict := lang.upper (lang.get record "verdict")
      if verdict != "PASSED" then
        .failed ("verification verdict is " ++ orElse verdict "absent" ++ ", not PASSED")
      else .ok

def receiptReconciled (lang : Language) (claim : Assertion) : PredicateResult :=
  match first claim.reader claim.citations "action" with
  | none => .failed "no action record is cited"
  | some (citation, record) =>
    if lang.get record "id" != claim.subjectRef then
      .failed ("action " ++ citation.recordId ++ " is not " ++ claim.subjectRef)
    else
      let status := lang.upper (lang.get record "status")
      if !reconciledActionStates.contains status then
        .failed ("action status is " ++ orElse status "absent" ++ ", not reconciled")
      else if !(record.lookup "receipt").any Value.truthy then
        .failed "the action carries no execution receipt"
      else .ok

def terminalState (lang : Language) (claim : Assertion) : PredicateResult :=
  match first claim.reader claim.citations "incident" with
  | none => .failed "no incident record is cited"
  | some (_, record) =>
    if lang.get record "id" != claim.subjectRef then
      .failed ("the cited incident is not " ++ claim.subjectRef)
    else
      let state := lang.upper (lang.get record "state")
      if !terminalIncidentStates.contains state then
        .failed ("incident state is " ++ orElse state "absent" ++ ", which is not terminal")
      else if (claim.values.lookup "state").any (fun stated => stated != state) then
        .failed "the stated state does not match the record"
      else .ok

def humanAttentionPending (lang : Language) (claim : Assertion) : PredicateResult :=
  match first claim.reader claim.citations "incident" with
  | none => .failed "no incident record is cited"
  | some (_, record) =>
    if lang.get record "id" != claim.subjectRef then
      .failed ("the cited incident is not " ++ claim.subjectRef)
    else
      let state := lang.upper (lang.get record "state")
      if terminalIncidentStates.contains state then
        .failed ("incident state is " ++ state ++ ", so nobody is blocked on it")
      else
        let waiting := (record.lookup "waiting_on_human").filter (fun waiting =>
          match waiting with
          | .none => false
          | _ => true)
        if waiting.any (fun waiting => !waiting.truthy) then
          .failed "the incident records no pending human decision"
        else if waiting.isNone && !attentionIncidentStates.contains state then
          .failed ("incident state is " ++ orElse state "absent" ++ ", which does not await a person")
        else
          let detail := (claim.values.lookup "detail").getD ""
          if detail != "" && !(record.strings lang).contains detail then
            .failed "the stated next action is not present on the incident"
          else .ok

/-- `_WINDOW_SLOTS` -/
def windowSlots : List String := ["window_start", "window_end"]

def recordFieldEquals (lang : Language) (claim : Assertion) : PredicateResult :=
  if claim.citations.isEmpty then .failed "the claim cites nothing"
  else
    match claim.citations.find? (fun citation => (claim.reader.cited citation).isNone) with
    | some citation => .failed ("citation " ++ citation.recordId ++ " does not resolve")
    | none =>
      let records := relevant lang claim.reader claim.citations claim.subjectRef claim.values
      if records.isEmpty then .failed ("no cited record is about " ++ subjectLabel claim.subjectRef)
      else
        let stored := records.flatMap (Record.strings lang)
        let unsupported := claim.values.filter (fun value =>
          !windowSlots.contains value.1 && !stored.contains value.2)
        if unsupported.isEmpty then .ok
        else
          .failed ("values are not present on the cited record about " ++ subjectLabel claim.subjectRef ++
            ": " ++ joinSorted (unsupported.map (fun value => value.1 ++ "=" ++ lang.repr value.2)))

def recordTextEquals (lang : Language) (claim : Assertion) : PredicateResult :=
  let quoted := (claim.values.lookup "quoted_text").getD ""
  if quoted = "" then .failed "the quotation is empty"
  else
    let records := relevant lang claim.reader claim.citations claim.subjectRef claim.values
    if records.isEmpty then .failed ("no cited record is about " ++ subjectLabel claim.subjectRef)
    else if records.any (fun record => (record.strings lang).contains quoted) then .ok
    else
      .failed ("the quotation does not match the stored text of any cited record about " ++
        subjectLabel claim.subjectRef)

/-- One evidence item of `evidence_covers`. -/
def evidenceFailure (lang : Language) (claim : Assertion) (citation : Citation) : Option String :=
  match claim.reader.cited citation with
  | none => some ("evidence " ++ citation.recordId ++ " does not resolve")
  | some record =>
    if !matchesSubject lang record claim.subjectRef then
      some ("evidence " ++ citation.recordId ++ " is not about " ++ subjectLabel claim.subjectRef)
    else if !withinClaimWindow lang record claim.values then
      some ("evidence " ++ citation.recordId ++ " falls outside the claimed window")
    else none

def evidenceCovers (lang : Language) (claim : Assertion) : PredicateResult :=
  let evidence := claim.citations.filter (fun citation => citation.recordType == "evidence_item")
  if evidence.isEmpty then .failed "no evidence item is cited"
  else
    match evidence.findSome? (evidenceFailure lang claim) with
    | some reason => .failed reason
    | none => .ok

inductive Predicate where
  | verificationPassed | receiptReconciled | terminalState | humanAttentionPending | recordFieldEquals
  | recordTextEquals | evidenceCovers | always
deriving DecidableEq, Repr

/-- `PREDICATES` -/
def Predicate.verifier (lang : Language) : Predicate → Assertion → PredicateResult
  | .verificationPassed => Liaison.verificationPassed lang
  | .receiptReconciled => Liaison.receiptReconciled lang
  | .terminalState => Liaison.terminalState lang
  | .humanAttentionPending => Liaison.humanAttentionPending lang
  | .recordFieldEquals => Liaison.recordFieldEquals lang
  | .recordTextEquals => Liaison.recordTextEquals lang
  | .evidenceCovers => Liaison.evidenceCovers lang
  | .always => fun _ => .ok

end Solvan.Liaison
