import Mathlib.Algebra.Order.Ring.Int
import Solvan.Base.Json.Text
import Solvan.Base.Paging

/-! The events of a thread, replayed to one of its readers. -/
namespace Solvan.Liaison
open Paging (Ordered after Unbroken Unstalled)

inductive AccessMode where
  | recordSet | participantsAtEpoch | authorOnly | systemPublic
deriving DecidableEq, Repr

/-- A row of `liaison_stream_events`. -/
structure StreamEventRow where
  streamSequence : Int
  eventId : String
  eventType : String
  messageId : Option String
  partId : Option String
  attempt : Option Nat
  generation : Option Nat
  accessMode : AccessMode
  audiencePrincipal : Option String
  membershipEpoch : Option Int
  payloadJson : Option Json

/-- A row of `liaison_part_access`. -/
structure PartAccessRow where
  partId : String
  record : String × String
deriving DecidableEq, Repr

/-- A row of `liaison_thread_participants`. -/
structure ParticipantRow where
  principal : String
  membershipEpoch : Int
  removedAt : Option Int
deriving DecidableEq, Repr

/-- A thread with its event log, in the order of its primary key. -/
structure Thread where
  participants : List ParticipantRow
  partAccess : List PartAccessRow
  events : List StreamEventRow
  ordered : Ordered StreamEventRow.streamSequence events
  positive : ∀ row ∈ events, 0 < row.streamSequence

structure StreamEvent where
  sequence : Int
  eventId : String
  eventType : String
  messageId : Option String
  attempt : Option Nat
  generation : Option Nat
  payload : Json

def streamEvent (row : StreamEventRow) : StreamEvent where
  sequence := row.streamSequence
  eventId := row.eventId
  eventType := row.eventType
  messageId := row.messageId.filter (fun id => !id.isEmpty)
  attempt := row.attempt.filter (fun attempt => attempt != 0)
  generation := row.generation.filter (fun generation => generation != 0)
  payload := row.payloadJson.getD (.obj [])

/-- The epoch since which a principal has been a member of the thread. -/
def Thread.membershipEpoch (t : Thread) (principal : String) : Option Int :=
  (t.participants.find? (fun p => p.principal == principal && p.removedAt.isNone)).map
    ParticipantRow.membershipEpoch

/-- A principal who takes part in the thread, with the records it may read. -/
structure Reader (t : Thread) where
  principal : String
  authorizedRecords : List (String × String)
  epoch : Int
  active : t.membershipEpoch principal = some epoch

/-- The projection gate of `visible_events`. -/
def visible (t : Thread) (principal : String) (authorizedRecords : List (String × String))
    (epoch : Int) (row : StreamEventRow) : Bool :=
  match row.accessMode with
  | .systemPublic => true
  | .authorOnly => row.audiencePrincipal == some principal
  | .recordSet =>
    match row.partId with
    | none => false
    | some part =>
      let refs := (t.partAccess.filter (fun ref => ref.partId == part)).map PartAccessRow.record
      !part.isEmpty && !refs.isEmpty && refs.all (fun ref => authorizedRecords.contains ref)
  | .participantsAtEpoch => row.membershipEpoch.any (fun since => decide (epoch ≤ since))

/-- `visible_events` -/
def visibleEvents (t : Thread) (principal : String) (authorizedRecords : List (String × String))
    (afterSequence : Int) (limit : Nat) : List StreamEvent :=
  match t.membershipEpoch principal with
  | none => []
  | some epoch =>
    -- The page is cut off before the hidden rows are left out.
    let rows := (after StreamEventRow.streamSequence afterSequence t.events).take limit
    (rows.filter (visible t principal authorizedRecords epoch)).map streamEvent

/-- `_CLIENT_EVENT_BUFFER_CEILING` -/
def clientEventBufferCeiling : Nat := 2048

/-- `_FINITE_REPLAY_PAGE_CEILING` -/
def finiteReplayPageCeiling : Nat := 256

/-- `_event_page` -/
def eventPage (t : Thread) (principal : String) (authorizedRecords : List (String × String))
    (afterSequence : Int) (limit : Nat) : List StreamEvent :=
  if (t.membershipEpoch principal).isNone then []
  else visibleEvents t principal authorizedRecords afterSequence (min limit clientEventBufferCeiling)

structure ReplayPage where
  events : List StreamEvent
  lastSequence : Int
  hasMore : Bool

/-- `max(1, min(limit, _FINITE_REPLAY_PAGE_CEILING))` -/
def pageLimit (limit : Int) : Nat := (max 1 (min limit finiteReplayPageCeiling)).toNat

/-- `replay_events`, which answers 404 to those who do not take part. -/
def replayEvents (t : Thread) (principal : String) (authorizedRecords : List (String × String))
    (afterSequence limit : Int) : Option ReplayPage :=
  if (t.membershipEpoch principal).isNone then none
  else
    let start := max 0 afterSequence
    let events := eventPage t principal authorizedRecords start (pageLimit limit)
    some
      { events
        lastSequence := (events.getLast?.map StreamEvent.sequence).getD start
        hasMore := decide (pageLimit limit ≤ events.length) }

/-- A client that asks for the next page from `last_sequence` while there `has_more`. -/
def replayAll (t : Thread) (principal : String) (authorizedRecords : List (String × String))
    (limit : Int) : Nat → Int → Option (List StreamEvent)
  | 0, _ => none
  | fuel + 1, afterSequence => do
    let page ← replayEvents t principal authorizedRecords afterSequence limit
    if page.hasMore then
      (replayAll t principal authorizedRecords limit fuel page.lastSequence).map (page.events ++ ·)
    else some page.events

/-- The events a reader may see. -/
def Reader.sees {t : Thread} (reader : Reader t) : StreamEventRow → Bool :=
  visible t reader.principal reader.authorizedRecords reader.epoch

/-- A replay from a start yields what the reader may see behind it, and a page
is never empty while there is more to see behind its cursor. -/
structure ReplayComplete (t : Thread) (reader : Reader t) (start limit : Int) (ceiling : Nat) : Prop
    where
  exact : replayAll t reader.principal reader.authorizedRecords limit (t.events.length + 1) start =
    some (((after StreamEventRow.streamSequence start t.events).filter reader.sees).map streamEvent)
  live : ∀ cursor, (∃ row ∈ after StreamEventRow.streamSequence cursor t.events,
    reader.sees row = true) →
      visibleEvents t reader.principal reader.authorizedRecords cursor ceiling ≠ []

variable {t : Thread} {reader : Reader t} {start limit c : Int} {ceiling fuel : Nat}

theorem pageLimit_pos : 0 < pageLimit limit := by
  unfold pageLimit
  omega

theorem pageLimit_le : pageLimit limit ≤ clientEventBufferCeiling := by
  unfold pageLimit clientEventBufferCeiling finiteReplayPageCeiling
  omega

theorem Reader.visibleEvents_eq (reader : Reader t) (cursor : Int) (limit : Nat) :
    visibleEvents t reader.principal reader.authorizedRecords cursor limit =
      (((after StreamEventRow.streamSequence cursor t.events).take limit).filter reader.sees).map
        streamEvent := by
  simp only [visibleEvents, reader.active]
  rfl

/-- Sequences begin at one, so a cursor below zero is as good as zero. -/
theorem Thread.after_max (t : Thread) (start : Int) :
    after StreamEventRow.streamSequence (max 0 start) t.events =
      after StreamEventRow.streamSequence start t.events := by
  refine List.filter_congr (fun row hr => ?_)
  have hpositive := t.positive row hr
  have hsame : max 0 start < row.streamSequence ↔ start < row.streamSequence := by omega
  simp only [hsame]

theorem Reader.replayEvents_eq (reader : Reader t) (start limit : Int) :
    replayEvents t reader.principal reader.authorizedRecords start limit =
      let events := (((after StreamEventRow.streamSequence start t.events).take
        (pageLimit limit)).filter reader.sees).map streamEvent
      some ⟨events, (events.getLast?.map StreamEvent.sequence).getD (max 0 start),
        decide (pageLimit limit ≤ events.length)⟩ := by
  have hpage : min (pageLimit limit) clientEventBufferCeiling = pageLimit limit :=
    Nat.min_eq_left pageLimit_le
  simp only [replayEvents, eventPage, reader.active, Option.isNone_some, Bool.false_eq_true, if_false,
    hpage, reader.visibleEvents_eq, t.after_max]

/-- Behind the last event of a page that hides nothing lies what the page left. -/
theorem Thread.after_page {n : Nat} {row : StreamEventRow}
    (hlast : ((after StreamEventRow.streamSequence start t.events).take n).getLast? = some row) :
    after StreamEventRow.streamSequence row.streamSequence t.events =
      (after StreamEventRow.streamSequence start t.events).drop n := by
  obtain ⟨front, heq⟩ := t.ordered.after_suffix start
  obtain ⟨init, hinit⟩ := List.getLast?_eq_some_iff.mp hlast
  have hparts : t.events = (front ++ init) ++ row ::
      (after StreamEventRow.streamSequence start t.events).drop n := by
    rw [List.append_assoc, ← List.singleton_append, ← List.append_assoc init, ← hinit,
      List.take_append_drop]
    exact heq
  have hordered := t.ordered
  rw [hparts] at hordered
  have hafter := hordered.after_last
  rw [← hparts] at hafter
  exact hafter

/-- The client fetches the log behind its start page by page. -/
theorem Reader.replayAll_eq (reader : Reader t) (fuel : Nat) (start limit : Int) :
    replayAll t reader.principal reader.authorizedRecords limit fuel start =
      (Paging.fetch reader.sees (pageLimit limit) fuel
        (after StreamEventRow.streamSequence start t.events)).map (List.map streamEvent) := by
  induction fuel generalizing start with
  | zero => rfl
  | succ fuel ih =>
    simp only [replayAll, reader.replayEvents_eq, Option.bind_eq_bind, Option.bind_some,
      decide_eq_true_eq, List.length_map, Paging.fetch]
    split
    · rename_i full
      obtain ⟨hpage, hlength⟩ := Paging.full_page full
      have hne : (after StreamEventRow.streamSequence start t.events).take (pageLimit limit) ≠ [] := by
        intro hnil
        rw [hnil] at hlength
        exact absurd hlength (Nat.ne_of_lt pageLimit_pos)
      obtain ⟨row, hlast⟩ : ∃ row, ((after StreamEventRow.streamSequence start t.events).take
          (pageLimit limit)).getLast? = some row :=
        ⟨_, List.getLast?_eq_some_getLast hne⟩
      have hcursor : ((((after StreamEventRow.streamSequence start t.events).take
          (pageLimit limit)).filter reader.sees).map streamEvent).getLast?.map StreamEvent.sequence =
            some row.streamSequence := by
        rw [hpage, List.getLast?_map, hlast]
        rfl
      rw [hcursor, Option.getD_some, ih, t.after_page hlast]
      simp only [Option.map_map]
      congr 1
      funext rest
      simp
    · rfl

/-- A replay is complete exactly where the first page with hidden events has all
that is left to see, and a page is never empty before there is nothing left
exactly where not a page of hidden events comes before one that is not. -/
theorem replay_complete_iff (t : Thread) (reader : Reader t) (start limit : Int) (ceiling : Nat) :
    ReplayComplete t reader start limit ceiling ↔
      Unbroken reader.sees (pageLimit limit) (after StreamEventRow.streamSequence start t.events) ∧
        Unstalled reader.sees ceiling t.events := by
  have hfuel : (after StreamEventRow.streamSequence start t.events).length < t.events.length + 1 :=
    Nat.lt_succ_of_le (List.length_filter_le _ _)
  have hexact : Paging.fetch reader.sees (pageLimit limit) (t.events.length + 1)
      (after StreamEventRow.streamSequence start t.events) =
        some ((after StreamEventRow.streamSequence start t.events).filter reader.sees) ↔
      Unbroken reader.sees (pageLimit limit) (after StreamEventRow.streamSequence start t.events) :=
    Paging.fetch_eq_iff pageLimit_pos hfuel
  constructor
  · intro complete
    refine ⟨hexact.mp ?_, t.ordered.unstalled_iff.mpr (fun c hc hnone => complete.live c hc ?_)⟩
    · have hmap := complete.exact
      rw [reader.replayAll_eq] at hmap
      obtain ⟨pages, hpages, hevents⟩ := Option.map_eq_some_iff.mp hmap
      -- As many events as there are to see are all of them.
      have hlength := congrArg List.length hevents
      rw [List.length_map, List.length_map] at hlength
      rw [hpages, (Paging.fetch_prefix hpages).eq_of_length hlength]
    · rw [reader.visibleEvents_eq, hnone]
      rfl
  · rintro ⟨unbroken, unstalled⟩
    refine ⟨?_, fun c hc hnone => t.ordered.unstalled_iff.mp unstalled c hc ?_⟩
    · rw [reader.replayAll_eq, hexact.mpr unbroken]
      rfl
    · rw [reader.visibleEvents_eq] at hnone
      exact List.map_eq_nil_iff.mp hnone

section Example

def spoken (sequence : Int) (accessMode : AccessMode) : StreamEventRow :=
  { streamSequence := sequence
    eventId := "lev"
    eventType := "turn.activity"
    messageId := none
    partId := none
    attempt := none
    generation := none
    accessMode
    audiencePrincipal := some "alice"
    membershipEpoch := none
    payloadJson := none }

/-- What was said to another comes first. -/
def overheard : Thread :=
  { participants := [⟨"bob", 1, none⟩]
    partAccess := []
    events := [spoken 1 .authorOnly, spoken 2 .systemPublic, spoken 3 .systemPublic]
    ordered := by simp [Ordered, spoken]
    positive := by simp [spoken] }

/-- Two events a page, of which the first is hidden: the third is never fetched. -/
theorem replay_incomplete :
    ¬∀ (t : Thread) (reader : Reader t) (start limit : Int) (ceiling : Nat),
      ReplayComplete t reader start limit ceiling := by
  intro hall
  have hexact := (hall overheard ⟨"bob", [], 1, rfl⟩ 0 2 2).exact
  have hlengths := congrArg (Option.map List.length) hexact
  exact absurd hlengths (by decide)

end Example

end Solvan.Liaison
