import Solvan.Alerts.Times
import Solvan.Base.Json.Text

/-! What a reader may ask of the alert list. -/
namespace Solvan.Alerts

inductive Severity where
  | sev1 | sev2 | sev3 | sev4
deriving DecidableEq, Repr

def Severity.label : Severity → String
  | .sev1 => "SEV1"
  | .sev2 => "SEV2"
  | .sev3 => "SEV3"
  | .sev4 => "SEV4"

inductive EpisodeState where
  | opened | waiting | triaging | triaged | suppressed | blocked | escalated | attached
  | providerReportedCleared | expired
deriving DecidableEq, Repr

def EpisodeState.label : EpisodeState → String
  | .opened => "OPEN"
  | .waiting => "WAITING"
  | .triaging => "TRIAGING"
  | .triaged => "TRIAGED"
  | .suppressed => "SUPPRESSED"
  | .blocked => "BLOCKED"
  | .escalated => "ESCALATED"
  | .attached => "ATTACHED"
  | .providerReportedCleared => "PROVIDER_REPORTED_CLEARED"
  | .expired => "EXPIRED"

inductive Mode where
  | triage | policyEscalated | fullIncident
deriving DecidableEq, Repr

def Mode.label : Mode → String
  | .triage => "TRIAGE"
  | .policyEscalated => "POLICY_ESCALATED"
  | .fullIncident => "FULL_INCIDENT"

inductive ProviderState where
  | opened | closed
deriving DecidableEq, Repr

def ProviderState.label : ProviderState → String
  | .opened => "OPEN"
  | .closed => "CLOSED"

inductive DispositionKind where
  | suppressed | triagedHold | escalatedNew | escalatedAttached | manualReview | blocked
deriving DecidableEq, Repr

def DispositionKind.label : DispositionKind → String
  | .suppressed => "SUPPRESSED"
  | .triagedHold => "TRIAGED_HOLD"
  | .escalatedNew => "ESCALATED_NEW"
  | .escalatedAttached => "ESCALATED_ATTACHED"
  | .manualReview => "MANUAL_REVIEW"
  | .blocked => "BLOCKED"

inductive ProviderKind where
  | cloudMonitoring
deriving DecidableEq, Repr

def ProviderKind.label : ProviderKind → String
  | .cloudMonitoring => "CLOUD_MONITORING"

inductive View where
  | active | needsReview | investigating | all
deriving DecidableEq, Repr

def View.label : View → String
  | .active => "ACTIVE"
  | .needsReview => "NEEDS_REVIEW"
  | .investigating => "INVESTIGATING"
  | .all => "ALL"

inductive LinkFilter where
  | any | linked | unlinked
deriving DecidableEq, Repr

def LinkFilter.label : LinkFilter → String
  | .any => "ANY"
  | .linked => "LINKED"
  | .unlinked => "UNLINKED"

/-- A filter that was validated: its times are UTC, and a page holds up to a hundred rows. -/
structure AlertListFilter where
  view : View
  episodeState : List EpisodeState
  sourceProvider : List ProviderKind
  connectionId : List String
  department : List String
  targetKey : List String
  severity : List Severity
  policyKey : List String
  mode : List Mode
  providerState : List ProviderState
  disposition : List DispositionKind
  incidentLink : LinkFilter
  sourceTimeFrom : Option Datetime
  sourceTimeTo : Option Datetime
  query : Option String
  limit : Nat
  bounded : 1 ≤ limit ∧ limit ≤ 100

/-- `AlertListFilter(view=view, limit=limit)` -/
def AlertListFilter.ofView (view : View) (limit : Nat) (bounded : 1 ≤ limit ∧ limit ≤ 100) : AlertListFilter :=
  ⟨view, [], [], [], [], [], [], [], [], [], [], .any, none, none, none, limit, bounded⟩

def strings (values : List String) : Json := .arr (values.map .str)

def timeOrNull (time : Option Datetime) : Json :=
  (time.map (fun time => Json.str (zuluText time))).getD .null

/-- `canonical_dict` -/
def AlertListFilter.canonicalDict (f : AlertListFilter) : Json :=
  .obj [
    ("schema_version", .int 1),
    ("view", .str f.view.label),
    ("episode_state", strings (f.episodeState.map EpisodeState.label)),
    ("source_provider", strings (f.sourceProvider.map ProviderKind.label)),
    ("connection_id", strings f.connectionId),
    ("department", strings f.department),
    ("target_key", strings f.targetKey),
    ("severity", strings (f.severity.map Severity.label)),
    ("policy_key", strings f.policyKey),
    ("mode", strings (f.mode.map Mode.label)),
    ("provider_state", strings (f.providerState.map ProviderState.label)),
    ("disposition", strings (f.disposition.map DispositionKind.label)),
    ("incident_link", .str f.incidentLink.label),
    ("source_time_from", timeOrNull f.sourceTimeFrom),
    ("source_time_to", timeOrNull f.sourceTimeTo),
    ("query", (f.query.map Json.str).getD .null),
    ("limit", .int f.limit)]

end Solvan.Alerts
