import Solvan.Alerts.Listing
import Solvan.Base.Pages
import Solvan.Base.Paging

/-! Following the cursors of the alert list to its end. -/
namespace Solvan.Alerts

open Solvan.Base

variable {κ : Type} [LinearOrder κ] {codec : Codec} {s : AlertStore} {session : Session κ} {a : Audience}
  {f : AlertListFilter} {c : AlertColumns} {row row' : AlertRow}

/-- The severity the policy maps the provider's to, if it does. -/
def AlertColumns.severity (c : AlertColumns) : Option Severity :=
  (Keyed.get SeverityMappingEntry.providerValue c.policy.severityMapping.entries c.event.providerSeverity).map
    SeverityMappingEntry.solvanSeverity

/-- The episodes that satisfy the view and the filter, whether or not they have a severity. -/
def AlertTables.satisfying (t : AlertTables) (session : Session κ) (f : AlertListFilter) : List AlertColumns :=
  (t.episodes.flatMap t.columns).filter (fun c => f.view.clause c && f.clause session c.severity c)

/-- They in the documented order. -/
def AlertTables.queue (t : AlertTables) (session : Session κ) (f : AlertListFilter) : List AlertColumns :=
  (t.satisfying session f).mergeSort (fun c d => decide (rank session c.severity c ≤ rank session d.severity d))

theorem columns_singleton {e : Episode} (he : e ∈ s.episodes) :
    ∃ c, s.columns e = [c] ∧ c.episode = e := by
  have hgenerations : ∃ g, s.generations.filter (· == e.providerGenerationId) = [g] := by
    have hkey : ∃ g, Joins.matching id s.generations e.providerGenerationId = [g] :=
      Joins.matching_singleton (by rw [List.map_id]; exact s.generationKey)
        (by rw [List.map_id]; exact s.hasGeneration e he)
    exact hkey
  obtain ⟨generation, hgeneration⟩ := hgenerations
  obtain ⟨event, hevent⟩ := Joins.matching_singleton s.eventKey (s.hasEvent e he)
  obtain ⟨source, hsource⟩ := Joins.matching_singleton s.sourceKey (s.hasSource e he)
  have hmem : source ∈ s.sources := by
    have hin : source ∈ Joins.matching SourceIdentity.id s.sources e.providerSourceIdentityId :=
      hsource ▸ List.mem_singleton_self source
    exact List.mem_of_mem_filter hin
  obtain ⟨membership, hmembership⟩ := Joins.matching_singleton s.membershipKey (s.hasMembership source hmem)
  obtain ⟨policy, hpolicy⟩ := Joins.matching_singleton s.policyKeys (s.hasPolicy e he)
  obtain ⟨link, hlink⟩ := Joins.outer_singleton s.linkKey ((s.disposition e.id).map Disposition.id)
  obtain ⟨incident, hincident⟩ := Joins.outer_singleton s.incidentKey (link.map AlertIncidentLink.incidentId)
  obtain ⟨service, hservice⟩ := Joins.outer_singleton s.serviceKey (some e.targetNodeKey)
  unfold AlertTables.columns
  simp only [hgeneration, hevent, hsource, hmembership, hpolicy, hlink, hincident, hservice,
    List.flatMap_cons, List.flatMap_nil, List.append_nil, List.map_cons, List.map_nil]
  exact ⟨_, rfl, rfl⟩

/-- Each episode has its columns once. -/
theorem episodes_columns : (s.episodes.flatMap s.columns).map AlertColumns.episode = s.episodes := by
  have hall : ∀ es : List Episode, (∀ e ∈ es, e ∈ s.episodes) →
      (es.flatMap s.columns).map AlertColumns.episode = es := by
    intro es hes
    induction es with
    | nil => rfl
    | cons e es ih =>
      obtain ⟨c, hc, hepisode⟩ := columns_singleton (hes e List.mem_cons_self)
      rw [List.flatMap_cons, hc, List.singleton_append, List.map_cons, hepisode,
        ih (fun e' he' => hes e' (List.mem_cons_of_mem _ he'))]
  exact hall s.episodes (fun _ he => he)

/-- The row of columns, where their severity is mapped. -/
def AlertColumns.row? (c : AlertColumns) : Option AlertRow :=
  (Keyed.get SeverityMappingEntry.providerValue c.policy.severityMapping.entries c.event.providerSeverity).map
    (AlertRow.mk c)

theorem rows_eq (c : AlertColumns) : c.rows = c.row?.toList := by
  unfold AlertColumns.rows AlertColumns.row?
  rw [Joins.matching_eq c.policy.severityMapping.unique]
  cases Keyed.get SeverityMappingEntry.providerValue c.policy.severityMapping.entries c.event.providerSeverity <;> rfl

theorem row_some (h : c.row? = some row) : row.toAlertColumns = c ∧ row.severity = c.severity := by
  obtain ⟨entry, hentry, rfl⟩ := Option.map_eq_some_iff.mp h
  exact ⟨rfl, by rw [AlertColumns.severity, hentry]; rfl⟩

theorem row_none : c.row? = none ↔ c.severity = none := by
  unfold AlertColumns.row? AlertColumns.severity
  rw [Option.map_eq_none_iff, Option.map_eq_none_iff]

/-- What the query lists are the rows of the episodes that satisfy view and filter. -/
theorem visible_eq : s.visible session f f.view = (s.satisfying session f).filterMap AlertColumns.row? := by
  unfold AlertTables.visible AlertTables.rowQuery AlertTables.satisfying
  rw [List.filterMap_filter]
  induction s.episodes.flatMap s.columns with
  | nil => rfl
  | cons c cs ih =>
    rw [List.flatMap_cons, List.filter_append, ih, List.filterMap_cons, rows_eq]
    cases hrow : c.row? with
    | none => simp
    | some row =>
      obtain ⟨hcolumns, hseverity⟩ := row_some hrow
      simp only [Option.toList_some, List.filter_cons, List.filter_nil, hcolumns, hseverity]
      split
      · rfl
      · rfl

/-- The rank of a row. -/
def rowRank (session : Session κ) (row : AlertRow) : Rank κ := rank session row.severity row.toAlertColumns

/-- The rows of view and filter in order. -/
def AlertTables.sortedRows (t : AlertTables) (session : Session κ) (f : AlertListFilter) : List AlertRow :=
  (t.visible session f f.view).mergeSort (fun a b => decide (rowRank session a ≤ rowRank session b))

theorem satisfying_ids : ((s.satisfying session f).map (fun c => c.episode.id)).Nodup := by
  have hids : ((s.episodes.flatMap s.columns).map (fun c => c.episode.id)) = s.episodes.map Episode.id := by
    rw [← episodes_columns (s := s), List.map_map, episodes_columns]
    rfl
  have hall : ((s.episodes.flatMap s.columns).map (fun c => c.episode.id)).Nodup := hids ▸ s.episodeKey
  exact hall.sublist (List.filter_sublist.map _)

theorem visible_ranks : ((s.visible session f f.view).map (rowRank session)).Nodup := by
  have hids : ((s.visible session f f.view).map (fun row => row.episode.id)).Nodup := by
    rw [visible_eq]
    refine List.Nodup.sublist ?_ (@satisfying_ids _ _ s session f)
    induction s.satisfying session f with
    | nil => exact List.Sublist.refl _
    | cons c cs ih =>
      rw [List.filterMap_cons, List.map_cons]
      cases hrow : c.row? with
      | none => exact ih.cons _
      | some row =>
        rw [List.map_cons, (row_some hrow).1]
        exact ih.cons_cons _
  refine List.Nodup.of_map (fun r : Rank κ => (ofLex (ofLex (ofLex r).2).2).2) ?_
  rw [List.map_map]
  have hcollated := hids.map session.deterministic
  rw [List.map_map] at hcollated
  exact hcollated

theorem sortedRows_ordered : Paging.Ordered (rowRank session) (s.sortedRows session f) :=
  Paging.ordered_mergeSort visible_ranks

/-- The rows behind a position. -/
def AlertTables.rest (t : AlertTables) (session : Session κ) (f : AlertListFilter)
    (position : Option AlertCursorPosition) : List AlertRow :=
  (t.sortedRows session f).filter (resumes session position)

/-- The rows a query gives are the first of those behind its cursor. -/
theorem queryRows_eq (position : Option AlertCursorPosition) : s.queryRows session f position =
    (s.rest session f position).take (f.limit + 1) := by
  unfold AlertTables.queryRows AlertTables.rest AlertTables.sortedRows
  rw [← Paging.mergeSort_filter visible_ranks]
  rfl

theorem moment_read (time : Timestamp) : moment (session.read time) = time.micros := by
  have hbounded := session.bounded time.micros
  have hlast := time.beforeLast
  have hfirst := time.afterFirst
  unfold moment Datetime.instant Session.read
  simp only [Option.getD_some]
  omega

/-- The resume predicate says what the order says. -/
theorem resumes_iff : resumes session (some (cursorPosition session row)) row' = true ↔
    rowRank session row < rowRank session row' := by
  unfold resumes cursorPosition rowRank rank
  simp only [moment_read, Bool.or_eq_true, Bool.and_eq_true, decide_eq_true_eq, Prod.Lex.toLex_lt_toLex]
  have hseen : (row'.episode.lastSourceTime.micros : Int) < row.episode.lastSourceTime.micros ↔
      OrderDual.toDual row.episode.lastSourceTime.micros < OrderDual.toDual row'.episode.lastSourceTime.micros := by
    rw [OrderDual.toDual_lt_toDual]
    exact Int.ofNat_lt
  have hsame : (row'.episode.lastSourceTime.micros : Int) = row.episode.lastSourceTime.micros ↔
      OrderDual.toDual row.episode.lastSourceTime.micros = OrderDual.toDual row'.episode.lastSourceTime.micros := by
    rw [OrderDual.toDual_inj]
    omega
  rw [hseen, hsame, eq_comm (a := severityRank row'.severity), eq_comm (a := row'.attentionRank)]
  tauto

theorem resumes_after (rows : List AlertRow) :
    rows.filter (resumes session (some (cursorPosition session row))) =
      Paging.after (rowRank session) (rowRank session row) rows :=
  List.filter_congr (fun other _ => by rw [Bool.eq_iff_iff, resumes_iff, decide_eq_true_eq])

theorem cursorPosition_valid : (cursorPosition session row).Valid where
  severity := by
    unfold cursorPosition AlertRow.severity
    cases row.severityEntry.solvanSeverity <;> rfl
  attention := by
    unfold cursorPosition AlertColumns.attentionRank
    cases row.attention <;> rfl
  episode := row.episode.identified

theorem length_digest : (f.digest codec).toList.length = 71 := by
  rw [AlertListFilter.digest, String.toList_append, List.length_append, codec.hexdigest]
  rfl

theorem listAlerts_eq (position : Option AlertCursorPosition) : s.listAlerts session f position =
    ⟨s.count session f, (s.rest session f position).take f.limit,
      if f.limit < (s.rest session f position).length then
        (s.rest session f position)[f.limit - 1]?.map (cursorPosition session)
      else none⟩ := by
  have hpositive := f.bounded.1
  unfold AlertTables.listAlerts
  rw [queryRows_eq]
  generalize s.rest session f position = rest
  have hlength : f.limit < (rest.take (f.limit + 1)).length ↔ f.limit < rest.length := by
    rw [List.length_take]
    omega
  have htake : (rest.take (f.limit + 1)).take f.limit = rest.take f.limit := by
    rw [List.take_take]
    congr 1
    omega
  simp only [hlength, htake, decide_eq_true_eq]
  congr 1
  by_cases hlong : f.limit < rest.length
  · rw [if_pos hlong, if_pos hlong, List.getLast?_take]
    have hsome : rest[f.limit - 1]? = some rest[f.limit - 1] := List.getElem?_eq_getElem (by omega)
    rw [if_neg (by omega), hsome]
    rfl
  · rw [if_neg hlong, if_neg hlong]

/-- What a page holds, and what it says comes next. -/
def servedPage (codec : Codec) (s : AlertStore) (session : Session κ) (a : Audience) (f : AlertListFilter)
    (cursor : Option String) : Option AlertPage :=
  (getAlerts codec s.toAlertTables session a f cursor).toOption

def AlertPage.next (page : AlertPage) : Option (Option String) := page.nextCursor.map some

/-- A cursor that stands before some of the last rows. -/
def Before (codec : Codec) (s : AlertStore) (session : Session κ) (a : Audience) (f : AlertListFilter)
    (cursor : Option String) (rest : List AlertRow) : Prop :=
  ∃ position, decode codec cursor (f.digest codec) a = .ok position ∧
    s.rest session f position = rest ∧ rest <:+ s.sortedRows session f

/-- A moment whose time is written so that `decode` reads it, under epochs that are written at all. -/
def Readable (session : Session κ) (a : Audience) (time : Timestamp) : Prop :=
  session.utcoffset time.micros = 0 ∧ a.interoperable = true

theorem serves : Pages.Serves (servedPage codec s session a f) AlertPage.next AlertPage.rows f.limit
    (fun row => Readable session a row.episode.lastSourceTime) (Before codec s session a f) where
  short := by
    rintro cursor rest ⟨position, hdecode, rfl, -⟩ hshort
    refine ⟨⟨s.count session f, s.rest session f position, none⟩, ?_, rfl, rfl⟩
    unfold servedPage getAlerts
    rw [hdecode]
    simp only [bind, Except.bind, listAlerts_eq, if_neg (Nat.not_lt.mpr hshort), List.take_of_length_le hshort]
    rfl
  long := by
    rintro cursor rest last ⟨position, hdecode, hrest, hsuffix⟩ hlong hlast ⟨hoffset, hepochs⟩
    have hvalid := @cursorPosition_valid _ _ session last
    have htoken := @decode_encoded codec _ (f.digest codec) a hvalid hepochs length_digest (congrArg some hoffset)
    refine ⟨⟨s.count session f, rest.take f.limit, some _⟩, some _, ?_, rfl, rfl, some _, htoken, ?_, ?_⟩
    · unfold servedPage getAlerts
      rw [hdecode]
      simp only [bind, Except.bind, listAlerts_eq, hrest, if_pos hlong, hlast, Option.map_some, encode_eq hvalid,
        hepochs, if_true]
      rfl
    · obtain ⟨front, hfront⟩ := hsuffix
      have hsplit : rest = rest.take (f.limit - 1) ++ last :: rest.drop f.limit := by
        have hpositive := f.bounded.1
        obtain ⟨hin, hget⟩ := List.getElem?_eq_some_iff.mp hlast
        have hdrop := List.drop_eq_getElem_cons hin
        rw [hget, show f.limit - 1 + 1 = f.limit by omega] at hdrop
        rw [← hdrop, List.take_append_drop]
      have hsorted : s.sortedRows session f =
          (front ++ rest.take (f.limit - 1)) ++ last :: rest.drop f.limit := by
        rw [List.append_assoc, ← hsplit, hfront]
      have hordered := @sortedRows_ordered _ _ s session f
      unfold AlertTables.rest
      rw [resumes_after, hsorted]
      exact (hsorted ▸ hordered).after_last
    · exact (List.drop_suffix _ _).trans hsuffix
  stuck := by
    rintro cursor rest last ⟨position, hdecode, hrest, -⟩ hlong hlast hbad page hpage
    have hvalid := @cursorPosition_valid _ _ session last
    unfold servedPage getAlerts at hpage
    rw [hdecode] at hpage
    simp only [bind, Except.bind, listAlerts_eq, hrest, if_pos hlong, hlast, Option.map_some,
      encode_eq hvalid] at hpage
    cases hepochs : a.interoperable with
    | false =>
      rw [hepochs] at hpage
      cases hpage
    | true =>
      rw [hepochs] at hpage
      obtain rfl := Option.some.inj hpage
      have hoffset : session.utcoffset last.episode.lastSourceTime.micros ≠ 0 := fun hzero => hbad ⟨hzero, hepochs⟩
      have hrefused := @decode_refused codec _ (f.digest codec) a _ hvalid hepochs length_digest rfl
        (session.bounded last.episode.lastSourceTime.micros) hoffset
      refine ⟨_, rfl, ?_⟩
      unfold servedPage getAlerts
      rw [hrefused]
      rfl

/-- The pages from the first to the one without a cursor hold every episode that
satisfies the view and the filter, once and in order, as many as each of them
counts; and no cursor on the way is refused. -/
structure PagedExactly (codec : Codec) (s : AlertStore) (session : Session κ) (a : Audience)
    (f : AlertListFilter) : Prop where
  complete : ∃ pages, Pages.Reads (servedPage codec s session a f) AlertPage.next none pages ∧
    ((pages.flatMap AlertPage.rows).map AlertRow.toAlertColumns).Perm (s.satisfying session f) ∧
    (pages.flatMap AlertPage.rows).Pairwise (fun x y => rowRank session x < rowRank session y) ∧
    ∀ page ∈ pages, page.counts f.view = (pages.flatMap AlertPage.rows).length
  accepted : ∀ cursor, Pages.Given (servedPage codec s session a f) AlertPage.next none cursor →
    ∃ position, decode codec cursor (f.digest codec) a = .ok position

theorem satisfying_of_visible (h : row ∈ s.visible session f f.view) :
    row.toAlertColumns.severity.isSome = true := by
  rw [visible_eq] at h
  obtain ⟨c, -, hrow⟩ := List.mem_filterMap.mp h
  obtain ⟨hcolumns, hseverity⟩ := row_some hrow
  rw [hcolumns, ← hseverity]
  rfl

theorem visible_mapped (h : ∀ c ∈ s.satisfying session f, c.severity.isSome = true) :
    (s.visible session f f.view).map AlertRow.toAlertColumns = s.satisfying session f := by
  rw [visible_eq]
  generalize s.satisfying session f = satisfying at h ⊢
  induction satisfying with
  | nil => rfl
  | cons c cs ih =>
    obtain ⟨hc, hcs⟩ := List.forall_mem_cons.mp h
    rw [List.filterMap_cons]
    cases hrow : c.row? with
    | none =>
      rw [row_none.mp hrow] at hc
      cases hc
    | some row => rw [List.map_cons, (row_some hrow).1, ih hcs]

/-- Where every severity is mapped, the rows are the episodes in their order. -/
theorem sortedRows_mapped (h : ∀ c ∈ s.satisfying session f, c.severity.isSome = true) :
    (s.sortedRows session f).map AlertRow.toAlertColumns = s.queue session f := by
  have hranks : ∀ row ∈ s.visible session f f.view,
      rank session row.toAlertColumns.severity row.toAlertColumns = rowRank session row := by
    intro row hrow
    rw [visible_eq] at hrow
    obtain ⟨c, -, hc⟩ := List.mem_filterMap.mp hrow
    obtain ⟨hcolumns, hseverity⟩ := row_some hc
    rw [rowRank, hseverity, hcolumns]
  have hperm := List.mergeSort_perm (s.visible session f f.view)
    (fun a b => decide (rowRank session a ≤ rowRank session b))
  have hrows : Paging.Ordered (fun c : AlertColumns => rank session c.severity c)
      ((s.sortedRows session f).map AlertRow.toAlertColumns) := by
    refine List.pairwise_map.mpr (List.Pairwise.imp_of_mem (fun {x y} hx hy hlt => ?_)
      (@sortedRows_ordered _ _ s session f))
    beta_reduce
    rw [hranks x (hperm.mem_iff.mp hx), hranks y (hperm.mem_iff.mp hy)]
    exact hlt
  have hnodup : ((s.satisfying session f).map (fun c : AlertColumns => rank session c.severity c)).Nodup := by
    rw [← visible_mapped h, List.map_map]
    exact (List.map_congr_left hranks : _ = (s.visible session f f.view).map (rowRank session)) ▸ visible_ranks
  refine hrows.eq_of_perm (Paging.ordered_mergeSort hnodup) ?_
  refine (hperm.map _).trans ?_
  rw [visible_mapped h]
  exact (List.mergeSort_perm _ _).symm

theorem count_of_served {cursor : Option String} {page : AlertPage}
    (h : servedPage codec s session a f cursor = some page) : page.counts = s.count session f := by
  unfold servedPage getAlerts at h
  cases hdecode : decode codec cursor (f.digest codec) a with
  | error e => rw [hdecode] at h; cases h
  | ok position =>
    rw [hdecode] at h
    simp only [bind, Except.bind, listAlerts_eq] at h
    split at h
    · obtain rfl := Option.some.inj h
      rfl
    · rename_i next _
      cases htoken : encode codec next (f.digest codec) a with
      | error e => rw [htoken] at h; cases h
      | ok token =>
        rw [htoken] at h
        obtain rfl := Option.some.inj h
        rfl

/-- The alert list is paged exactly where every episode that satisfies view and
filter has a severity, and each that ends a page before the last was seen at a
moment whose time the cursor can carry. -/
theorem alerts_paged_iff : PagedExactly codec s session a f ↔
    (∀ c ∈ s.satisfying session f, c.severity.isSome = true) ∧
      Pages.Ends (fun c : AlertColumns => Readable session a c.episode.lastSourceTime) f.limit
        (s.queue session f) := by
  have hstart : Before codec s session a f none (s.sortedRows session f) :=
    ⟨none, rfl, List.filter_eq_self.mpr (fun _ _ => rfl), List.suffix_refl _⟩
  have hserves := @serves _ _ codec s session a f
  constructor
  · rintro ⟨⟨pages, hreads, hperm, -, -⟩, -⟩
    have hrows := hserves.rows_eq hstart hreads
    have hmapped : ∀ c ∈ s.satisfying session f, c.severity.isSome = true := by
      intro c hc
      obtain ⟨row, hrow, rfl⟩ := List.mem_map.mp (hperm.mem_iff.mpr hc)
      rw [hrows] at hrow
      exact satisfying_of_visible ((List.mergeSort_perm _ _).mem_iff.mp hrow)
    refine ⟨hmapped, ?_⟩
    rw [← sortedRows_mapped hmapped, Pages.ends_map]
    exact (hserves.reads_iff hstart f.bounded.1).mp ⟨pages, hreads⟩
  · rintro ⟨hmapped, hends⟩
    rw [← sortedRows_mapped hmapped, Pages.ends_map] at hends
    obtain ⟨pages, hreads⟩ := (hserves.reads_iff hstart f.bounded.1).mpr hends
    have hrows := hserves.rows_eq hstart hreads
    refine ⟨⟨pages, hreads, ?_, ?_, ?_⟩, fun cursor hgiven => ?_⟩
    · rw [hrows, sortedRows_mapped hmapped]
      exact List.mergeSort_perm _ _
    · rw [hrows]
      exact sortedRows_ordered
    · intro page hpage
      obtain ⟨cursor, hserved⟩ := hreads.served page hpage
      rw [hrows, count_of_served hserved]
      exact (List.mergeSort_perm _ _).length_eq.symm
    · obtain ⟨page, hpage⟩ := hreads.given hgiven
      unfold servedPage getAlerts at hpage
      cases hdecode : decode codec cursor (f.digest codec) a with
      | error e => rw [hdecode] at hpage; cases hpage
      | ok position => exact ⟨position, rfl⟩

section Example

/-- `int` of a value that is loaded from JSON -/
def wholeNumber : Json → Option Int
  | .int n => some n
  | .bool b => some b.toNat
  | _ => none

def plainText : Json → String
  | .str s => s
  | _ => ""

def exampleCodec : Codec where
  toClock := utcClock
  dumps j := if j.interoperable then some (Json.utf8 (Json.dumps j)) else none
  canonical _ _ := rfl
  sha256 _ := String.ofList (List.replicate 64 '0')
  hexdigest _ := by decide +kernel
  hmac _ := List.replicate 32 0
  digest _ := rfl
  int := wholeNumber
  int_int _ := rfl
  str := plainText
  str_str _ := rfl

/-- A session whose zone is ahead of UTC by some hours. -/
def exampleSession (hours : Nat) (h : hours < 24) : Session String where
  collate := id
  deterministic := Function.injective_id
  lower := id
  utcoffset _ := hours * 3600000000
  bounded _ := by
    unfold day
    omega

def exampleReader : Audience := ⟨"user:operator", ⟨"org", "prj", "env"⟩, 3, 7, 11⟩

def exampleEpisode (id : {id : String // safeEpisodeId id = true}) : Episode where
  id := id.val
  identified := id.property
  state := .opened
  targetNodeKey := "payments"
  providerIncidentKey := "incident-1"
  lastSourceTime := ⟨2 * day, by decide, by decide⟩
  lastEventId := "event"
  providerState := .opened
  providerGenerationId := "generation"
  providerSourceIdentityId := "source"
  policyKey := "latency"
  policyVersion := "1"
  policyHash := "hash"

/-- Episodes of one event, of a severity as the provider has it, under a policy that knows `CRITICAL`. -/
def exampleStore (providerSeverity : String) (ids : List {id : String // safeEpisodeId id = true})
    (hids : ids.Nodup) : AlertStore where
  episodes := ids.map exampleEpisode
  generations := ["generation"]
  occurrences := [⟨"occurrence", "generation"⟩]
  events := [⟨"event", providerSeverity⟩]
  sources := [⟨"source", .cloudMonitoring⟩]
  memberships := [⟨"source", "connection"⟩]
  policies := [⟨"latency", "1", "hash", .triage, ⟨[⟨"CRITICAL", .sev1⟩], by simp⟩⟩]
  dispositions := []
  links := []
  incidents := []
  services := []
  episodeKey := by
    rw [List.map_map]
    exact hids.map Subtype.val_injective
  generationKey := by simp
  eventKey := by simp
  sourceKey := by simp
  membershipKey := by simp
  policyKeys := by simp
  linkKey := by simp
  incidentKey := by simp
  serviceKey := by simp
  hasGeneration e he := by
    obtain ⟨id, -, rfl⟩ := List.mem_map.mp he
    exact List.mem_singleton_self _
  hasEvent e he := by
    obtain ⟨id, -, rfl⟩ := List.mem_map.mp he
    exact List.mem_singleton_self _
  hasSource e he := by
    obtain ⟨id, -, rfl⟩ := List.mem_map.mp he
    exact List.mem_singleton_self _
  hasMembership := by simp
  hasPolicy e he := by
    obtain ⟨id, -, rfl⟩ := List.mem_map.mp he
    exact List.mem_singleton_self _

def firstId : {id : String // safeEpisodeId id = true} := ⟨"aep_01K00000000000000000000000", by decide +kernel⟩

def secondId : {id : String // safeEpisodeId id = true} := ⟨"aep_01K00000000000000000000001", by decide +kernel⟩

/-- An episode of a severity the policy does not map is on no page; and where the
session is not at UTC, the second page is refused. -/
theorem alerts_not_paged :
    ¬PagedExactly exampleCodec (exampleStore "WARNING" [firstId] (List.nodup_singleton _))
      (exampleSession 0 (by decide)) exampleReader (.ofView .all 50 (by decide)) ∧
    ¬PagedExactly exampleCodec (exampleStore "CRITICAL" [firstId, secondId] (by decide +kernel))
      (exampleSession 2 (by decide)) exampleReader (.ofView .all 1 (by decide)) := by
  constructor
  · intro hpaged
    obtain ⟨hmapped, -⟩ := alerts_paged_iff.mp hpaged
    have hunmapped : ((exampleStore "WARNING" [firstId] (List.nodup_singleton _)).satisfying
        (exampleSession 0 (by decide)) (.ofView .all 50 (by decide))).all (fun c => c.severity.isSome) = false := by
      decide +kernel
    rw [List.all_eq_true.mpr hmapped] at hunmapped
    cases hunmapped
  · intro hpaged
    obtain ⟨-, hends⟩ := alerts_paged_iff.mp hpaged
    have hsize : ((exampleStore "CRITICAL" [firstId, secondId] (by decide +kernel)).queue
        (exampleSession 2 (by decide)) (.ofView .all 1 (by decide))).length = 2 :=
      (List.mergeSort_perm _ _).length_eq.trans (by decide +kernel)
    have hlast := List.getElem?_eq_getElem (Nat.lt_of_lt_of_eq Nat.zero_lt_two hsize.symm)
    obtain ⟨hoffset, -⟩ := hends 0 _ (by rw [hsize]; decide) hlast
    have htwo : ((2 : Nat) : Int) * 3600000000 = 0 := hoffset
    omega

end Example

end Solvan.Alerts
