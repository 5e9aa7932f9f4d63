import Solvan.Scale.Fanout

/-! What a reader of the feed gets to see of the events that are published while it
reads. -/
namespace Solvan.Scale

open Solvan.Base

/-- A feed and one of its readers, with the pages it has got. -/
structure Follower where
  fanout : ContentFreeEventFanout
  cursor : EventCursor
  pages : List EventPage

/-- A reader at the start of an empty feed. -/
def Follower.new (binding : Binding) (bufferCeiling : Nat) (now : Int) (valid : binding.Valid)
    (positive : 1 ≤ bufferCeiling) : Follower :=
  ⟨.new binding bufferCeiling now valid positive, ⟨binding, 0, valid, le_rfl⟩, []⟩

inductive FanoutCall where
  | publish (batch : List SequencedEvent)
  | read (limit : Int)

/-- The reader's own read of its feed, no epoch having moved. -/
def Follower.read (w : Follower) (limit : Int) : Except Refusal EventPage :=
  w.fanout.read w.cursor limit w.fanout.binding

/-- The events on the reader's pages. -/
def Follower.delivered (w : Follower) : List SequencedEvent := w.pages.flatMap EventPage.events

/-- Everything that some calls publish. -/
def published (calls : List FanoutCall) : List SequencedEvent :=
  calls.flatMap (fun | .publish batch => batch | .read _ => [])

/-- Sequenced events of one scope, no two of them in one place. -/
structure Committed (binding : Binding) (events : List SequencedEvent) : Prop where
  epoch : ∀ event ∈ events, event.placementEpoch = binding.placementEpoch
  sequenced : ∀ event ∈ events, event.state = .sequenced
  positive : ∀ event ∈ events, ∃ place, event.scopeSequence = some place ∧ 0 < place
  scope : ∀ event ∈ events, ∀ other ∈ events, event.organizationId = other.organizationId ∧
    event.projectId = other.projectId ∧ event.environmentId = other.environmentId
  places : (events.map SequencedEvent.place).Nodup
  ids : (events.map SequencedEvent.eventId).Nodup

variable {sha256 : String → String} {f : ContentFreeEventFanout} {cursor : EventCursor} {w : Follower}
  {binding : Binding} {bufferCeiling : Nat} {now limit : Int} {valid : binding.Valid}
  {positive : 1 ≤ bufferCeiling} {batch events : List SequencedEvent} {calls : List FanoutCall}
  {page : EventPage} {call : FanoutCall}

/-- The reader goes on from every page it gets. -/
def Follower.next (sha256 : String → String) (w : Follower) : FanoutCall → Follower
  | .publish batch => { w with fanout := (w.fanout.publish sha256 batch).1 }
  | .read limit =>
    match w.read limit with
    | .ok page => { w with cursor := page.nextCursor, pages := w.pages ++ [page] }
    | .error _ => w

def Follower.run (sha256 : String → String) (w : Follower) (calls : List FanoutCall) : Follower :=
  calls.foldl (Follower.next sha256) w

/-- Every event is published while it still lies behind the reader's cursor. -/
def InTime (sha256 : String → String) : Follower → List FanoutCall → Prop
  | _, [] => True
  | w, .publish batch :: calls =>
    (∀ event ∈ batch, w.cursor.scopeSequence < event.place) ∧
      InTime sha256 (w.next sha256 (.publish batch)) calls
  | w, .read limit :: calls => InTime sha256 (w.next sha256 (.read limit)) calls

theorem Committed.sublist {some : List SequencedEvent} (h : Committed binding events)
    (hsub : some.Sublist events) : Committed binding some where
  epoch event hevent := h.epoch event (hsub.subset hevent)
  sequenced event hevent := h.sequenced event (hsub.subset hevent)
  positive event hevent := h.positive event (hsub.subset hevent)
  scope event hevent other hother := h.scope event (hsub.subset hevent) other (hsub.subset hother)
  places := h.places.sublist (hsub.map _)
  ids := h.ids.sublist (hsub.map _)

theorem Committed.perm {others : List SequencedEvent} (h : Committed binding events)
    (hperm : others.Perm events) : Committed binding others where
  epoch event hevent := h.epoch event (hperm.subset hevent)
  sequenced event hevent := h.sequenced event (hperm.subset hevent)
  positive event hevent := h.positive event (hperm.subset hevent)
  scope event hevent other hother := h.scope event (hperm.subset hevent) other (hperm.subset hother)
  places := (hperm.map _).nodup_iff.mpr h.places
  ids := (hperm.map _).nodup_iff.mpr h.ids

/-- Events that are new to the feed are all taken, in their order. -/
theorem admit_fresh (h : Committed f.binding (f.events ++ batch)) {firstScope : String}
    (hscope : ∀ event ∈ batch, scopeKeyHash sha256 event = firstScope) :
    f.admit sha256 firstScope batch = ({ f with events := f.events ++ batch }, none) := by
  induction batch generalizing f with
  | nil => simp [ ContentFreeEventFanout.admit]
  | cons event batch ih =>
    have hevent : event ∈ f.events ++ event :: batch := List.mem_append_right _ List.mem_cons_self
    have hpublishable : event.publishable = true := by
      obtain ⟨place, hplace, -⟩ := h.positive event hevent
      simp [SequencedEvent.publishable, h.sequenced event hevent, hplace]
    have hids := h.ids
    rw [List.map_append, List.map_cons, List.nodup_append] at hids
    have habsent : event.eventId ∉ f.events.map SequencedEvent.eventId := fun hmem =>
      hids.2.2 _ hmem _ List.mem_cons_self rfl
    have hput := Keyed.put_of_absent habsent
    rw [ ContentFreeEventFanout.admit, if_neg (by simp [h.epoch event hevent]), if_neg (by simp [hpublishable]),
      if_neg (by simp [hscope event List.mem_cons_self]), Keyed.get_none.mpr habsent]
    simp only [hput]
    rw [ih]
    · simp
    · simpa using h
    · exact fun other hother => hscope other (List.mem_cons_of_mem _ hother)

theorem publish_events (h : Committed f.binding (f.events ++ batch)) :
    (f.publish sha256 batch).1.events = f.events ++ batch ∧
      (f.publish sha256 batch).1.binding = f.binding ∧
      (f.publish sha256 batch).1.bufferCeiling = f.bufferCeiling := by
  cases batch with
  | nil => simp [ContentFreeEventFanout.publish]
  | cons first batch =>
    have hscope : ∀ event ∈ first :: batch,
        scopeKeyHash sha256 event = scopeKeyHash sha256 first := fun event hevent => by
      obtain ⟨horganization, hproject, henvironment⟩ := h.scope event (List.mem_append_right _ hevent)
        first (List.mem_append_right _ List.mem_cons_self)
      rw [scopeKeyHash, scopeKeyHash, horganization, hproject, henvironment]
    simp only [ContentFreeEventFanout.publish, admit_fresh h hscope]
    split
    · exact ⟨rfl, rfl, rfl⟩
    · split <;> exact ⟨rfl, rfl, rfl⟩

theorem behind_iff {event : SequencedEvent} (h : Committed binding events) (hevent : event ∈ events) :
    event.behind cursor = true ↔ cursor.scopeSequence < event.place := by
  obtain ⟨place, hplace, -⟩ := h.positive event hevent
  simp [SequencedEvent.behind, SequencedEvent.place, hplace]

/-- The candidates of a page are what lies behind the cursor, by place. -/
theorem candidates_eq (h : Committed f.binding f.events) {seen : List SequencedEvent} :
    f.candidates cursor =
      (Feed.State.mk f.events cursor.scopeSequence seen).pending SequencedEvent.place := by
  have hafter : f.events.filter (fun event => event.state == .sequenced && event.behind cursor) =
      Paging.after SequencedEvent.place cursor.scopeSequence f.events := by
    refine List.filter_congr (fun event hevent => ?_)
    rw [h.sequenced event hevent, beq_self_eq_true, Bool.true_and, Bool.eq_iff_iff, behind_iff h hevent,
      decide_eq_true_eq]
  rw [ContentFreeEventFanout.candidates, hafter]
  have htotal : Std.Total SequencedEvent.Before := ⟨fun a b => by
    unfold SequencedEvent.Before
    rcases lt_trichotomy a.place b.place with hlt | heq | hgt
    · exact .inl (.inl hlt)
    · rcases String.le_total a.eventId b.eventId with hle | hle
      · exact .inl (.inr ⟨heq, hle⟩)
      · exact .inr (.inr ⟨heq.symm, hle⟩)
    · exact .inr (.inl hgt)⟩
  have htrans : IsTrans SequencedEvent SequencedEvent.Before := ⟨fun a b c hab hbc => by
    unfold SequencedEvent.Before at *
    rcases hab with hab | ⟨hab, hid⟩
    · rcases hbc with hbc | ⟨hbc, -⟩
      · exact .inl (hab.trans hbc)
      · exact .inl (hbc ▸ hab)
    · rcases hbc with hbc | ⟨hbc, hid'⟩
      · exact .inl (hab ▸ hbc)
      · exact .inr ⟨hab.trans hbc, String.le_trans hid hid'⟩⟩
  refine Feed.sort_unique (h.places.sublist (List.filter_sublist.map _)) (List.perm_insertionSort _ _) ?_
  refine (List.pairwise_insertionSort SequencedEvent.Before _).imp (fun {a b} hab => ?_)
  rcases hab with hlt | ⟨heq, -⟩
  · exact hlt.le
  · exact heq.le

/-- A read that neither raises nor disconnects the reader, as what it computes. -/
theorem read_ok (hread : f.read cursor limit f.binding = .ok page) (hordinary : page.overflow = false) :
    page.events = (f.candidates cursor).take limit.toNat ∧
      page.nextCursor.scopeSequence = pageEnd cursor page.events ∧
      page.nextCursor.binding = cursor.binding ∧ 1 ≤ limit := by
  unfold ContentFreeEventFanout.read at hread
  split at hread
  · cases hread
  · rename_i hlimit
    split at hread
    · cases hread
    · split_ifs at hread
      · cases hread
        cases hordinary
      · cases hread
        exact ⟨rfl, rfl, rfl, by omega⟩

/-- A read of a feed without quarantined events, by a reader whose cursor is bound to it. -/
theorem read_bound (hbinding : cursor.binding = f.binding) (h : Committed f.binding f.events)
    (hlimit : 1 ≤ limit) : ∃ page, f.read cursor limit f.binding = .ok page := by
  unfold ContentFreeEventFanout.read
  have hvalidate : f.validateCursor cursor f.binding = none := by
    simp [ContentFreeEventFanout.validateCursor, hbinding]
  have hclear : f.events.any (SequencedEvent.poisons cursor) = false := by
    refine List.any_eq_false.mpr (fun event hevent => ?_)
    simp [SequencedEvent.poisons, h.sequenced event hevent]
  rw [if_neg (by omega), hvalidate]
  simp only [hclear, Bool.false_eq_true, if_false]
  split
  · exact ⟨_, rfl⟩
  · exact ⟨_, rfl⟩

/-- The call as the general reader's move. -/
def FanoutCall.move : FanoutCall → Feed.Move SequencedEvent
  | .publish batch => .append batch
  | .read limit => .read limit.toNat

/-- The feed and its reader as the general ones. -/
def Follower.state (w : Follower) : Feed.State SequencedEvent Int :=
  ⟨w.fanout.events, w.cursor.scopeSequence, w.delivered⟩

theorem page_eq (h : Committed w.fanout.binding w.fanout.events) (hread : w.read limit = .ok page)
    (hordinary : page.overflow = false) :
    page.events = w.state.page SequencedEvent.place limit.toNat := by
  rw [(read_ok hread hordinary).1, candidates_eq h]
  rfl

/-- A call does to the feed and its reader what the move does. -/
theorem next_state (h : Committed w.fanout.binding (w.fanout.events ++ published [call]))
    (hbinding : w.cursor.binding = w.fanout.binding)
    (hordinary : ∀ page ∈ (w.next sha256 call).pages, page.overflow = false) :
    (w.next sha256 call).state = w.state.next SequencedEvent.place call.move ∧
      (w.next sha256 call).fanout.binding = w.fanout.binding ∧
      (w.next sha256 call).cursor.binding = w.fanout.binding := by
  cases call with
  | publish batch =>
    have hbatch : published [.publish batch] = batch := List.append_nil _
    rw [hbatch] at h
    obtain ⟨hevents, hsame, -⟩ := @publish_events sha256 _ _ h
    refine ⟨?_, hsame, hbinding⟩
    simp [Follower.state, Follower.next, Follower.delivered, Feed.State.next, FanoutCall.move, hevents]
  | read limit =>
    have hevents : Committed w.fanout.binding w.fanout.events := h.sublist (List.sublist_append_left _ _)
    cases hread : w.read limit with
    | error refusal =>
      -- Only a limit below one is refused here, and a page of none changes nothing.
      have hlimit : limit.toNat = 0 := by
        by_contra hpositive
        obtain ⟨page, hpage⟩ := read_bound hbinding hevents (by omega : 1 ≤ limit)
        rw [Follower.read, hpage] at hread
        cases hread
      simp [Follower.next, hread, Follower.state, Feed.State.next, FanoutCall.move, hlimit, Feed.State.page,
        hbinding]
    | ok page =>
      simp only [Follower.next, hread] at hordinary ⊢
      have hthis := hordinary page (List.mem_append_right _ (List.mem_singleton_self page))
      obtain ⟨-, hcursor, hkept, -⟩ := read_ok hread hthis
      refine ⟨?_, trivial, hkept.trans hbinding⟩
      have hpage := page_eq hevents hread hthis
      simp only [Follower.state, Follower.delivered, Feed.State.next, FanoutCall.move, List.flatMap_append,
        List.flatMap_cons, List.flatMap_nil, List.append_nil, hcursor, pageEnd]
      rw [hpage]
      rfl

theorem pages_subset (calls : List FanoutCall) : w.pages ⊆ (w.run sha256 calls).pages := by
  induction calls generalizing w with
  | nil => exact List.Subset.refl _
  | cons call calls ih =>
    refine List.Subset.trans ?_ ih
    cases call with
    | publish batch => exact List.Subset.refl _
    | read limit =>
      simp only [Follower.next]
      split
      · exact List.subset_append_left _ _
      · exact List.Subset.refl _

theorem appended_moves : Feed.appended (calls.map FanoutCall.move) = published calls := by
  simp only [Feed.appended, published, List.flatMap_map]
  refine List.flatMap_congr (fun call _ => ?_)
  cases call <;> rfl

theorem events_next (h : Committed w.fanout.binding (w.fanout.events ++ published (call :: calls)))
    (hstate : (w.next sha256 call).state = w.state.next SequencedEvent.place call.move)
    (hbinding : (w.next sha256 call).fanout.binding = w.fanout.binding) :
    Committed (w.next sha256 call).fanout.binding
      ((w.next sha256 call).fanout.events ++ published calls) := by
  have hevents : (w.next sha256 call).fanout.events = w.fanout.events ++ published [call] := by
    have hrows := congrArg Feed.State.rows hstate
    cases call with
    | publish batch => simpa [published, Feed.State.next, FanoutCall.move, Follower.state] using hrows
    | read limit => simpa [published, Feed.State.next, FanoutCall.move, Follower.state] using hrows
  rw [hbinding, hevents, List.append_assoc]
  simpa [published] using h

/-- The whole run is a run of the general reader, and publication in time is the same
for both. -/
theorem run_state (h : Committed w.fanout.binding (w.fanout.events ++ published calls))
    (hbinding : w.cursor.binding = w.fanout.binding)
    (hordinary : ∀ page ∈ (w.run sha256 calls).pages, page.overflow = false) :
    (w.run sha256 calls).state = w.state.run SequencedEvent.place (calls.map FanoutCall.move) ∧
      (InTime sha256 w calls ↔
        Feed.Timely SequencedEvent.place w.state (calls.map FanoutCall.move)) ∧
      (w.run sha256 calls).fanout.binding = w.fanout.binding := by
  induction calls generalizing w with
  | nil => exact ⟨rfl, Iff.rfl, rfl⟩
  | cons call calls ih =>
    have hfirst : Committed w.fanout.binding (w.fanout.events ++ published [call]) := by
      refine h.sublist ((List.append_sublist_append_left _).mpr ?_)
      simp [published]
    obtain ⟨hstate, hsame, hnext⟩ := @next_state sha256 _ _ hfirst hbinding
      (fun page hpage => hordinary page (pages_subset calls hpage))
    obtain ⟨hrun, htime, hrest⟩ := ih (events_next h hstate hsame) (hnext.trans hsame.symm) hordinary
    refine ⟨?_, ?_, hrest.trans hsame⟩
    · rw [List.map_cons, Feed.run_cons, ← hstate]
      exact hrun
    · rw [hstate] at htime
      cases call with
      | publish batch => exact and_congr Iff.rfl htime
      | read limit => exact htime

/-- A reader that has read until an empty page has got every published event exactly
once, exactly if each was published before the reader's cursor had passed its place. -/
theorem events_delivered_iff
    (h : Committed binding (published calls))
    (hordinary : ∀ page ∈ ((Follower.new binding bufferCeiling now valid positive).run sha256 calls).pages,
      page.overflow = false)
    (hread : ((Follower.new binding bufferCeiling now valid positive).run sha256 calls).read limit =
      .ok page)
    (hempty : page.events = []) (hlast : page.overflow = false) :
    ((Follower.new binding bufferCeiling now valid positive).run sha256 calls).delivered.Perm
        (published calls) ↔
      InTime sha256 (Follower.new binding bufferCeiling now valid positive) calls := by
  generalize hstart : Follower.new binding bufferCeiling now valid positive = start at *
  have hnone : start.fanout.events = [] := hstart ▸ rfl
  have hseen : start.delivered = [] := hstart ▸ rfl
  have hbound : start.fanout.binding = binding := hstart ▸ rfl
  have hcursor : start.cursor.binding = start.fanout.binding := hstart ▸ rfl
  subst hbound
  obtain ⟨hrun, htime, hbinding⟩ := @run_state sha256 _ _ (by simpa [hnone] using h) hcursor hordinary
  have hkeys : ((start.state.rows ++ Feed.appended (calls.map FanoutCall.move)).map
      SequencedEvent.place).Nodup := by
    rw [appended_moves, Follower.state, hnone, List.nil_append]
    exact h.places
  have hrows : (start.run sha256 calls).fanout.events = published calls := by
    have hall := congrArg Feed.State.rows hrun
    rw [Feed.run_rows, appended_moves, Follower.state, Follower.state, hnone] at hall
    exact hall
  -- The empty page says that nothing is left behind the cursor.
  have hdrained : (start.state.run SequencedEvent.place (calls.map FanoutCall.move)).pending
      SequencedEvent.place = [] := by
    have hpage := page_eq (by rw [hbinding, hrows]; exact h) hread hlast
    have hlimit := (read_ok hread hlast).2.2.2
    rw [hempty, hrun, Feed.State.page, eq_comm, List.take_eq_nil_iff] at hpage
    exact hpage.resolve_left (by omega)
  have hstored : Feed.Read SequencedEvent.place start.state := by
    refine ⟨?_, ?_, ?_⟩ <;> simp [Follower.state, hnone, hseen]
  have hwhole : Feed.Whole SequencedEvent.place start.state := by
    simp [Feed.Whole, Follower.state, hnone]
  have hiff := Feed.read_all_iff hstored hwhole hkeys hdrained
  rw [← hrun] at hiff
  rw [htime, ← hiff, Follower.state, hrows]

/-- An event of one scope that has a place. -/
def placedEvent (eventId eventRef eventHash : String) (place : Int) : SequencedEvent where
  organizationId := "org_demo"
  projectId := "prj_demo"
  environmentId := "env_demo"
  eventId := eventId
  eventRef := eventRef
  eventHash := eventHash
  placementEpoch := 3
  createdAt := ⟨0, some 0, Calendar.maxMicros_pos⟩
  state := .sequenced
  scopeSequence := some place

def firstEvent : SequencedEvent := placedEvent "evt_1" "ref_event_1" "sha256:1" 1

def secondEvent : SequencedEvent := placedEvent "evt_2" "ref_event_2" "sha256:2" 2

def demoBinding : Binding := ⟨"cell_eu_1", 3, 4, 5⟩

/-- The digest of the one scope there is here. -/
def demoDigest : String → String :=
  fun _ => "c1dc299aacc702a257cbb0cec7cfeed721319e937a42ad5b34a4d71bef415a33"

theorem demoBinding_valid : demoBinding.Valid := ⟨by decide, by decide, by decide, by decide⟩

def demoReader : Follower := .new demoBinding 100 0 demoBinding_valid hundred_positive

/-- The reader gets to the second event before the first is published. -/
def lateCalls : List FanoutCall := [.publish [secondEvent], .read 10, .publish [firstEvent]]

/-- The reader gets to the first event before the second is published. -/
def timelyCalls : List FanoutCall := [.publish [firstEvent], .read 10, .publish [secondEvent], .read 10]

theorem demo_committed : Committed demoBinding [firstEvent, secondEvent] where
  epoch := by decide
  sequenced := by decide
  positive := by
    intro event hevent
    rcases List.mem_pair.mp hevent with rfl | rfl
    · exact ⟨1, rfl, by decide⟩
    · exact ⟨2, rfl, by decide⟩
  scope := by decide
  places := by decide
  ids := by decide

/-- An event published after a reader has passed its place is never on a page: the next
page is empty. -/
theorem late_event_lost :
    Committed demoBinding (published lateCalls) ∧
      (∀ page ∈ (demoReader.run demoDigest lateCalls).pages, page.overflow = false) ∧
      (∃ page, (demoReader.run demoDigest lateCalls).read 10 = .ok page ∧ page.events = [] ∧
        page.overflow = false) ∧
      ¬(demoReader.run demoDigest lateCalls).delivered.Perm (published lateCalls) := by
  refine ⟨?_, ?_, ?_, ?_⟩
  · exact demo_committed.perm (List.Perm.swap firstEvent secondEvent [])
  · decide
  · exact ⟨_, rfl, rfl, rfl⟩
  · intro hperm
    exact absurd hperm.length_eq (by decide)

theorem timely_events_delivered :
    (demoReader.run demoDigest timelyCalls).delivered.Perm [firstEvent, secondEvent] := by
  have hread : ∃ page, (demoReader.run demoDigest timelyCalls).read 10 = .ok page ∧ page.events = [] ∧
      page.overflow = false := ⟨_, rfl, rfl, rfl⟩
  obtain ⟨page, hpage, hempty, hlast⟩ := hread
  have hcommitted : Committed demoBinding (published timelyCalls) := demo_committed
  exact (events_delivered_iff hcommitted (by decide) hpage hempty hlast).mpr
    ⟨by decide, by decide, trivial⟩

end Solvan.Scale
