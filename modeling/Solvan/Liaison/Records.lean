import Solvan.Base.Json.Text
import Solvan.Base.Lines
import Solvan.Domain.Values

/-! The records that a projection reader gives, and which of them are about a
subject. -/
namespace Solvan.Liaison
open Solvan.Base

/-- What a record holds. A float is known by its text. -/
inductive Value where
  | none
  | bool (b : Bool)
  | int (n : Int)
  | float (text : String)
  | str (s : String)
  | datetime (d : Datetime)
  | mapping (fields : List (String × Value))
  | sequence (items : List Value)

abbrev Record := List (String × Value)

/-- What the code asks of the language: upper case, how strings and other values are written
out, and the times that texts stand for. -/
structure Language where
  upper : String → String
  repr : String → String
  written : Value → String
  fromisoformat : String → Option Datetime

/-- `str` -/
def Language.str (lang : Language) : Value → String
  | .str s => s
  | .none => "None"
  | .bool true => "True"
  | .bool false => "False"
  | .int n => String.ofList (Json.intText n)
  | .float text => text
  | value => lang.written value

/-- `bool` -/
def Value.truthy : Value → Bool
  | .none => false
  | .bool b => b
  | .int n => n != 0
  | .float text => text != "0.0" && text != "-0.0"
  | .str s => s != ""
  | .datetime _ => true
  | .mapping fields => !fields.isEmpty
  | .sequence items => !items.isEmpty

/-- Whether a value is in `(None, "")`. -/
def Value.blank : Value → Bool
  | .none => true
  | .str s => s == ""
  | _ => false

/-- `str(record.get(field, ""))` -/
def Language.get (lang : Language) (record : Record) (field : String) : String :=
  ((record.lookup field).map lang.str).getD ""

abbrev ProjectionReader := String → String → Option Record

structure Citation where
  recordType : String
  recordId : String
deriving DecidableEq, Repr

/-- What is read for a citation. -/
def ProjectionReader.cited (reader : ProjectionReader) (citation : Citation) : Option Record :=
  reader citation.recordType citation.recordId

/-- `_stored_strings`, with so many levels to go -/
def storedStrings (lang : Language) : Nat → Value → List String
  | 0, _ => []
  | depth + 1, value =>
    match value with
    | .str s => [s]
    | .bool b => [lang.str (.bool b)]
    | .int n => [lang.str (.int n)]
    | .float text => [text]
    | .mapping fields => fields.flatMap (fun field => storedStrings lang depth field.2)
    | .sequence items => items.flatMap (storedStrings lang depth)
    | _ => []

/-- `_MAX_RECORD_DEPTH`, with the record itself -/
def maxRecordDepth : Nat := 7

def Record.strings (lang : Language) (record : Record) : List String :=
  storedStrings lang maxRecordDepth (.mapping record)

/-- `_first` and `_record_of` -/
def first (reader : ProjectionReader) (citations : List Citation) (recordType : String) :
    Option (Citation × Record) :=
  citations.findSome? (fun citation =>
    if citation.recordType != recordType then none
    else (reader.cited citation).map (fun record => (citation, record)))

/-- `_SUBJECT_FIELDS` -/
def subjectFields : List String := ["id", "incident", "incident_id", "subject", "subject_ref", "action_id"]

/-- `_matches_subject` -/
def matchesSubject (lang : Language) (record : Record) (subjectRef : String) : Bool :=
  subjectRef != "" &&
    ((subjectFields.map (lang.get record)).filter (· != "")).contains subjectRef

abbrev Values := List (String × String)

/-- `_moment` -/
def moment (lang : Language) : Option Value → Option Datetime
  | some (.datetime d) => if d.aware then some d else none
  | some (.str s) =>
    let text := strip s.toList
    if text.isEmpty then none
    else
      (lang.fromisoformat (String.ofList (text.flatMap
        (fun c => if c = 'Z' then "+00:00".toList else [c])))).filter Datetime.aware
  | _ => none

/-- `_RECORD_MOMENT_FIELDS` -/
def recordMomentFields : List String :=
  ["observed_at", "occurred_at", "recorded_at", "committed_at", "window_start"]

/-- `_within_claim_window` -/
def withinClaimWindow (lang : Language) (record : Record) (values : Values) : Bool :=
  let start := moment lang ((values.lookup "window_start").map .str)
  let end_ := moment lang ((values.lookup "window_end").map .str)
  if start.isNone && end_.isNone then true
  else
    match recordMomentFields.findSome? (fun field => moment lang (record.lookup field)) with
    | none => false
    | some at_ =>
      start.all (fun start => decide (start.instant ≤ at_.instant)) &&
        end_.all (fun end_ => decide (at_.instant ≤ end_.instant))

/-- `_relevant` -/
def relevant (lang : Language) (reader : ProjectionReader) (citations : List Citation)
    (subjectRef : String) (values : Values) : List Record :=
  (citations.filterMap reader.cited).filter (fun record =>
    matchesSubject lang record subjectRef && withinClaimWindow lang record values)

theorem first_some {reader : ProjectionReader} {citations : List Citation} {recordType : String}
    {citation : Citation} {record : Record}
    (h : first reader citations recordType = some (citation, record)) :
    citation ∈ citations ∧ citation.recordType = recordType ∧ reader.cited citation = some record := by
  obtain ⟨found, hmem, hfound⟩ := List.exists_of_findSome?_eq_some h
  split at hfound
  · cases hfound
  · rename_i htype
    obtain ⟨read, hread, hpair⟩ := Option.map_eq_some_iff.mp hfound
    obtain ⟨rfl, rfl⟩ := Prod.mk.inj hpair
    exact ⟨hmem, by simpa using htype, hread⟩

/-- A record is about its own subject, not about no subject. -/
theorem matches_of_id {lang : Language} {record : Record} {subjectRef : String}
    (hid : lang.get record "id" = subjectRef) (hsubject : subjectRef ≠ "") :
    matchesSubject lang record subjectRef = true := by
  simp [matchesSubject, subjectFields, hid, hsubject]

theorem not_matches_empty {lang : Language} {record : Record} : matchesSubject lang record "" = false := rfl

end Solvan.Liaison
