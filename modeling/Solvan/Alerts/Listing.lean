import Mathlib.Data.List.Infix
import Mathlib.Data.List.MinMax
import Mathlib.Data.Prod.Lex
import Mathlib.Data.String.Basic
import Mathlib.Order.OrderDual
import Solvan.Alerts.Cursor
import Solvan.Base.Joins

/-! The tables of the alert episodes, and the queries that list them. -/
namespace Solvan.Alerts

open Solvan.Base

/-- A `timestamptz` at least a day from both ends of the calendar, so that it
has a time on every wall. -/
structure Timestamp where
  /-- Microseconds of UTC since year 1. -/
  micros : Nat
  afterFirst : day ≤ micros
  beforeLast : micros + day ≤ Calendar.maxMicros
deriving DecidableEq

structure Episode where
  id : String
  identified : safeEpisodeId id = true
  state : EpisodeState
  targetNodeKey : String
  providerIncidentKey : String
  lastSourceTime : Timestamp
  lastEventId : String
  providerState : ProviderState
  providerGenerationId : String
  providerSourceIdentityId : String
  policyKey : String
  policyVersion : String
  policyHash : String

structure AlertEvent where
  id : String
  providerSeverity : String

structure GenerationOccurrence where
  id : String
  providerGenerationId : String

structure SourceIdentity where
  id : String
  providerKind : ProviderKind

structure CurrentMembership where
  sourceIdentityId : String
  connectionId : String

structure SeverityMappingEntry where
  providerValue : String
  solvanSeverity : Severity

/-- `SeverityMappingV1`: its entries name each value of the provider once. -/
structure SeverityMapping where
  entries : List SeverityMappingEntry
  unique : (entries.map SeverityMappingEntry.providerValue).Nodup

structure PolicyRevision where
  policyKey : String
  policyVersion : String
  policyHash : String
  mode : Mode
  severityMapping : SeverityMapping

def PolicyRevision.key (p : PolicyRevision) : String × String × String :=
  (p.policyKey, p.policyVersion, p.policyHash)

structure Disposition where
  id : String
  episodeId : String
  disposition : DispositionKind
  createdAt : Int

structure AlertIncidentLink where
  dispositionId : String
  incidentId : String

structure IncidentDisplay where
  id : String
  displayId : String

structure Service where
  serviceKey : String
  displayName : String
  ownerDepartment : String

/-- The tables of one scope. Rows of other scopes join none of them. -/
structure AlertTables where
  episodes : List Episode
  generations : List String
  occurrences : List GenerationOccurrence
  events : List AlertEvent
  sources : List SourceIdentity
  memberships : List CurrentMembership
  policies : List PolicyRevision
  dispositions : List Disposition
  links : List AlertIncidentLink
  incidents : List IncidentDisplay
  services : List Service

/-- Tables with their keys, and with the rows an episode refers to. A source has
its current membership from the transaction that registers it. -/
structure AlertStore extends AlertTables where
  episodeKey : (episodes.map Episode.id).Nodup
  generationKey : generations.Nodup
  eventKey : (events.map AlertEvent.id).Nodup
  sourceKey : (sources.map SourceIdentity.id).Nodup
  membershipKey : (memberships.map CurrentMembership.sourceIdentityId).Nodup
  policyKeys : (policies.map PolicyRevision.key).Nodup
  linkKey : (links.map AlertIncidentLink.dispositionId).Nodup
  incidentKey : (incidents.map IncidentDisplay.id).Nodup
  serviceKey : (services.map Service.serviceKey).Nodup
  hasGeneration : ∀ e ∈ episodes, e.providerGenerationId ∈ generations
  hasEvent : ∀ e ∈ episodes, e.lastEventId ∈ events.map AlertEvent.id
  hasSource : ∀ e ∈ episodes, e.providerSourceIdentityId ∈ sources.map SourceIdentity.id
  hasMembership : ∀ source ∈ sources, source.id ∈ memberships.map CurrentMembership.sourceIdentityId
  hasPolicy : ∀ e ∈ episodes,
    (e.policyKey, e.policyVersion, e.policyHash) ∈ policies.map PolicyRevision.key

/-- What the joins add to an episode, the severity apart. -/
structure AlertColumns where
  episode : Episode
  occurrenceCount : Nat
  event : AlertEvent
  source : SourceIdentity
  membership : CurrentMembership
  policy : PolicyRevision
  disposition : Option Disposition
  link : Option AlertIncidentLink
  incident : Option IncidentDisplay
  service : Option Service

structure AlertRow extends AlertColumns where
  severityEntry : SeverityMappingEntry

/-- The last disposition of an episode: `ORDER BY created_at DESC, id DESC LIMIT 1`. -/
def AlertTables.disposition (t : AlertTables) (episodeId : String) : Option Disposition :=
  (t.dispositions.filter (fun d => d.episodeId == episodeId)).maxOn? (fun d => toLex (d.createdAt, d.id))

/-- The joins of `_ROW_QUERY` but for the one with the severity mapping. -/
def AlertTables.columns (t : AlertTables) (e : Episode) : List AlertColumns :=
  (t.generations.filter (· == e.providerGenerationId)).flatMap fun generation =>
  (Joins.matching AlertEvent.id t.events e.lastEventId).flatMap fun event =>
  (Joins.matching SourceIdentity.id t.sources e.providerSourceIdentityId).flatMap fun source =>
  (Joins.matching CurrentMembership.sourceIdentityId t.memberships source.id).flatMap fun membership =>
  (Joins.matching PolicyRevision.key t.policies (e.policyKey, e.policyVersion, e.policyHash)).flatMap fun policy =>
  let disposition := t.disposition e.id
  (Joins.outer AlertIncidentLink.dispositionId t.links (disposition.map Disposition.id)).flatMap fun link =>
  (Joins.outer IncidentDisplay.id t.incidents (link.map AlertIncidentLink.incidentId)).flatMap fun incident =>
  (Joins.outer Service.serviceKey t.services (some e.targetNodeKey)).map fun service =>
    ⟨e, t.occurrences.countP (fun o => o.providerGenerationId == generation), event, source, membership, policy,
      disposition, link, incident, service⟩

/-- The rows of columns: one for each entry that maps the provider's severity. -/
def AlertColumns.rows (c : AlertColumns) : List AlertRow :=
  (Joins.matching SeverityMappingEntry.providerValue c.policy.severityMapping.entries
    c.event.providerSeverity).map (AlertRow.mk c)

/-- `_ROW_QUERY` -/
def AlertTables.rowQuery (t : AlertTables) : List AlertRow :=
  (t.episodes.flatMap t.columns).flatMap AlertColumns.rows

/-- `_ACTIVE` -/
def activeStates : List EpisodeState := [.opened, .waiting, .triaging, .triaged, .escalated, .attached]

/-- Whether somebody must look at it: `disposition.disposition IN ('MANUAL_REVIEW','BLOCKED')` -/
def AlertColumns.attention (c : AlertColumns) : Bool :=
  c.disposition.any (fun d => d.disposition = .manualReview ∨ d.disposition = .blocked)

/-- `view_clause` -/
def View.clause (view : View) (c : AlertColumns) : Bool :=
  match view with
  | .active => activeStates.contains c.episode.state
  | .needsReview => c.attention
  | .investigating => [EpisodeState.waiting, .triaging].contains c.episode.state
  | .all => true

/-- How the session's database orders identifiers, folds case, and reads the clock. -/
structure Session (κ : Type) [LinearOrder κ] where
  collate : String → κ
  deterministic : Function.Injective collate
  lower : String → String
  /-- The offset of its time zone at a moment. -/
  utcoffset : Nat → Int
  bounded : ∀ micros, (utcoffset micros).natAbs < day

/-- No restriction, or the value is among those asked for. A null is not. -/
def among [BEq α] (values : List α) (value : Option α) : Bool := values.isEmpty || value.any (values.contains ·)

variable {κ : Type} [LinearOrder κ]

/-- `_EXPLICIT_FILTER_CLAUSE`, of columns and what severity they are given. -/
def AlertListFilter.clause (session : Session κ) (f : AlertListFilter) (severity : Option Severity)
    (c : AlertColumns) : Bool :=
  let words := [some c.episode.id, some c.episode.providerIncidentKey, some c.episode.targetNodeKey,
    c.service.map Service.displayName, some c.source.providerKind.label, some c.episode.policyKey]
  among f.severity severity &&
  among f.episodeState (some c.episode.state) &&
  among f.sourceProvider (some c.source.providerKind) &&
  among f.connectionId (some c.membership.connectionId) &&
  among f.department (c.service.map Service.ownerDepartment) &&
  among f.targetKey (some c.episode.targetNodeKey) &&
  among f.policyKey (some c.episode.policyKey) &&
  among f.mode (some c.policy.mode) &&
  among f.providerState (some c.episode.providerState) &&
  among f.disposition (c.disposition.map Disposition.disposition) &&
  (match f.incidentLink with
    | .any => true
    | .linked => c.link.isSome
    | .unlinked => c.link.isNone) &&
  f.sourceTimeFrom.all (fun time => decide (time.instant + epoch ≤ c.episode.lastSourceTime.micros)) &&
  f.sourceTimeTo.all (fun time => decide ((c.episode.lastSourceTime.micros : Int) < time.instant + epoch)) &&
  f.query.all (fun query =>
    decide (query.toList <:+: (session.lower (" ".intercalate words.reduceOption)).toList))

/-- The rank of a severity, and of what has none. -/
def severityRank : Option Severity → Int
  | some .sev1 => 1
  | some .sev2 => 2
  | some .sev3 => 3
  | some .sev4 | none => 4

def AlertColumns.attentionRank (c : AlertColumns) : Int := if c.attention then 0 else 1

/-- What rows are in order of: the worse severity first, then what needs a human,
then the one seen last, then the identifier. -/
abbrev Rank (κ : Type) := Int ×ₗ Int ×ₗ Natᵒᵈ ×ₗ κ

def rank (session : Session κ) (severity : Option Severity) (c : AlertColumns) : Rank κ :=
  toLex (severityRank severity, toLex (c.attentionRank,
    toLex (OrderDual.toDual c.episode.lastSourceTime.micros, session.collate c.episode.id)))

def AlertRow.severity (row : AlertRow) : Option Severity := some row.severityEntry.solvanSeverity

/-- The time a `timestamptz` is read as in the session. -/
def Session.read (session : Session κ) (time : Timestamp) : Datetime where
  wall := (time.micros + session.utcoffset time.micros).toNat
  utcoffset := some (session.utcoffset time.micros)
  inRange := by
    have hbounded := session.bounded time.micros
    have hlast := time.beforeLast
    have hfirst := time.afterFirst
    omega

/-- The moment a time stands for, counted as timestamps are. -/
def moment (d : Datetime) : Int := d.instant + epoch

/-- `_CURSOR_CLAUSE` -/
def resumes (session : Session κ) (position : Option AlertCursorPosition) (row : AlertRow) : Bool :=
  match position with
  | none => true
  | some p =>
    let severity := severityRank row.severity
    let attention := row.attentionRank
    let seen : Int := row.episode.lastSourceTime.micros
    decide (p.severityRank < severity) ||
    (decide (severity = p.severityRank) && decide (p.attentionRank < attention)) ||
    (decide (severity = p.severityRank) && decide (attention = p.attentionRank) &&
      decide (seen < moment p.lastSeenAt)) ||
    (decide (severity = p.severityRank) && decide (attention = p.attentionRank) &&
      decide (seen = moment p.lastSeenAt) &&
      decide (session.collate p.alertEpisodeId < session.collate row.episode.id))

/-- The rows of a view and filter. -/
def AlertTables.visible (t : AlertTables) (session : Session κ) (f : AlertListFilter) (view : View) :
    List AlertRow :=
  t.rowQuery.filter (fun row => view.clause row.toAlertColumns && f.clause session row.severity row.toAlertColumns)

/-- `_query_rows` -/
def AlertTables.queryRows (t : AlertTables) (session : Session κ) (f : AlertListFilter)
    (position : Option AlertCursorPosition) : List AlertRow :=
  (((t.visible session f f.view).filter (resumes session position)).mergeSort
    (fun a b => decide (rank session a.severity a.toAlertColumns ≤ rank session b.severity b.toAlertColumns))).take
    (f.limit + 1)

/-- `_count` -/
def AlertTables.count (t : AlertTables) (session : Session κ) (f : AlertListFilter) (view : View) : Nat :=
  (t.visible session f view).length

/-- `cursor_position` -/
def cursorPosition (session : Session κ) (row : AlertRow) : AlertCursorPosition :=
  ⟨severityRank row.severity, row.attentionRank, session.read row.episode.lastSourceTime, row.episode.id⟩

structure AlertList where
  counts : View → Nat
  rows : List AlertRow
  nextCursorPosition : Option AlertCursorPosition

/-- `list_alerts` -/
def AlertTables.listAlerts (t : AlertTables) (session : Session κ) (f : AlertListFilter)
    (position : Option AlertCursorPosition) : AlertList :=
  let rows := t.queryRows session f position
  let hasMore := decide (f.limit < rows.length)
  let rows := rows.take f.limit
  ⟨t.count session f, rows, if hasMore then rows.getLast?.map (cursorPosition session) else none⟩

structure AlertPage where
  counts : View → Nat
  rows : List AlertRow
  nextCursor : Option String

/-- `GET /api/alerts`: the page behind a cursor, with the cursor of the next. -/
def getAlerts (codec : Codec) (t : AlertTables) (session : Session κ) (a : Audience) (f : AlertListFilter)
    (cursor : Option String) : Except AlertError AlertPage := do
  let position ← decode codec cursor (f.digest codec) a
  let projection := t.listAlerts session f position
  match projection.nextCursorPosition with
  | none => return ⟨projection.counts, projection.rows, none⟩
  | some next =>
    let token ← encode codec next (f.digest codec) a
    return ⟨projection.counts, projection.rows, some token⟩

end Solvan.Alerts
