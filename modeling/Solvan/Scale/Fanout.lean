import Solvan.Base.Feed
import Solvan.Scale.Events

/-! The feed of sequenced events: content-free wake-ups, and readers that go on from
their own cursors. -/
namespace Solvan.Scale

open Solvan.Base

/-- What a cursor is bound to. -/
structure Binding where
  cellId : String
  placementEpoch : Int
  policyEpoch : Int
  membershipEpoch : Int
deriving DecidableEq, Repr

theorem hundred_positive : 1 ≤ 100 := by decide

def Binding.Valid (binding : Binding) : Prop :=
  binding.cellId ≠ "" ∧ 1 ≤ binding.placementEpoch ∧ 1 ≤ binding.policyEpoch ∧
    1 ≤ binding.membershipEpoch

/-- A cursor, whose schema version is 1. -/
structure EventCursor where
  binding : Binding
  scopeSequence : Int
  valid : binding.Valid
  nonnegative : 0 ≤ scopeSequence

structure ContentFreeWakeup where
  cellId : String
  placementEpoch : Int
  scopeKeyHash : String
  fromSequence : Int
  toSequence : Int
  emittedAt : Int
deriving DecidableEq, Repr

/-- `ContentFreeWakeup.__post_init__`, as far as the fan-out's own values can fail it. -/
def ContentFreeWakeup.check (wakeup : ContentFreeWakeup) : Except Refusal ContentFreeWakeup :=
  if wakeup.cellId = "" ∨ beginsWith "sha256:" wakeup.scopeKeyHash = false then
    .error (.value "wakeup identity must be typed")
  else if wakeup.scopeKeyHash.length ≠ 71 then .error (.value "wakeup scope hash is invalid")
  else if wakeup.placementEpoch < 1 ∨ wakeup.fromSequence < 0 then
    .error (.value "wakeup placement or lower bound is invalid")
  else if wakeup.toSequence < wakeup.fromSequence then
    .error (.value "wakeup sequence interval is invalid")
  else .ok wakeup

/-- A page of events, or the decision that the reader is too slow. -/
structure EventPage where
  events : List SequencedEvent
  nextCursor : EventCursor
  overflow : Bool
  recoveryReason : Option String
  disconnected : overflow = true → events = [] ∧ recoveryReason.isSome = true
  ordinary : overflow = false → recoveryReason = none

structure ContentFreeEventFanout where
  binding : Binding
  bufferCeiling : Nat
  now : Int
  events : List SequencedEvent
  wakeups : List ContentFreeWakeup
  valid : binding.Valid
  positive : 1 ≤ bufferCeiling

def ContentFreeEventFanout.new (binding : Binding) (bufferCeiling : Nat) (now : Int)
    (valid : binding.Valid) (positive : 1 ≤ bufferCeiling) : ContentFreeEventFanout :=
  ⟨binding, bufferCeiling, now, [], [], valid, positive⟩

section publish

-- `hashlib.sha256(….encode("utf-8")).hexdigest()`
variable (sha256 : String → String)

/-- `_scope_key_hash` -/
def scopeKeyHash (event : SequencedEvent) : String :=
  "sha256:" ++ sha256 ("|".intercalate [event.organizationId, event.projectId, event.environmentId])

/-- Whether the feed takes events of a state. -/
def SequencedEvent.publishable (event : SequencedEvent) : Bool :=
  (event.state == .sequenced || event.state == .quarantined) && event.scopeSequence.isSome

/-- The loop of `publish` over its batch. Events before one that is refused stay. -/
def ContentFreeEventFanout.admit (firstScope : String) (f : ContentFreeEventFanout) :
    List SequencedEvent → ContentFreeEventFanout × Option Refusal
  | [] => (f, none)
  | event :: batch =>
    if event.placementEpoch ≠ f.binding.placementEpoch then
      (f, some (.runtime "event placement epoch is stale"))
    else if !event.publishable then
      (f, some (.runtime "fan-out accepts only sequenced or quarantined events"))
    else if scopeKeyHash sha256 event ≠ firstScope then
      (f, some (.runtime "fan-out batch crosses scope boundaries"))
    else
      match Keyed.get SequencedEvent.eventId f.events event.eventId with
      | some existing =>
        if existing.eventHash ≠ event.eventHash then
          (f, some (.runtime "event id was reused with a different payload"))
        else f.admit firstScope batch
      | none =>
        ContentFreeEventFanout.admit firstScope
          { f with events := Keyed.put SequencedEvent.eventId f.events event } batch

/-- `publish`: the events it leaves in the feed, and the wake-up or what it raises. -/
def ContentFreeEventFanout.publish (f : ContentFreeEventFanout) :
    List SequencedEvent → ContentFreeEventFanout × Except Refusal (Option ContentFreeWakeup)
  | [] => (f, .ok none)
  | first :: batch =>
    let firstScope := scopeKeyHash sha256 first
    match f.admit sha256 firstScope (first :: batch) with
    | (f, some refusal) => (f, .error refusal)
    | (f, none) =>
      let sequences := (first :: batch).filterMap SequencedEvent.scopeSequence
      let lower := sequences.foldl min (sequences.headD 0)
      let upper := sequences.foldl max (sequences.headD 0)
      match f.wakeups.find? (fun wakeup => wakeup.fromSequence == lower && wakeup.toSequence == upper) with
      | some existing => (f, .ok (some existing))
      | none =>
        match ContentFreeWakeup.check ⟨f.binding.cellId, f.binding.placementEpoch, firstScope, lower,
            upper, f.now⟩ with
        | .error refusal => (f, .error refusal)
        | .ok wakeup => ({ f with wakeups := f.wakeups ++ [wakeup] }, .ok (some wakeup))

end publish

/-- `_validate_cursor` -/
def ContentFreeEventFanout.validateCursor (f : ContentFreeEventFanout) (cursor : EventCursor)
    (current : Binding) : Option Refusal :=
  if cursor.binding.cellId ≠ current.cellId ∨ cursor.binding.cellId ≠ f.binding.cellId then
    some (.recoveryRequired "cursor cell is stale")
  else if cursor.binding.placementEpoch ≠ current.placementEpoch ∨
      cursor.binding.placementEpoch ≠ f.binding.placementEpoch then
    some (.recoveryRequired "cursor placement epoch is stale")
  else if cursor.binding.policyEpoch ≠ current.policyEpoch ∨
      cursor.binding.policyEpoch ≠ f.binding.policyEpoch then
    some (.recoveryRequired "cursor policy epoch is stale")
  else if cursor.binding.membershipEpoch ≠ current.membershipEpoch ∨
      cursor.binding.membershipEpoch ≠ f.binding.membershipEpoch then
    some (.recoveryRequired "cursor membership epoch is stale")
  else none

/-- The place of an event in its scope. -/
def SequencedEvent.place (event : SequencedEvent) : Int := event.scopeSequence.getD 0

/-- By place, then by id. -/
def SequencedEvent.Before (a b : SequencedEvent) : Prop :=
  a.place < b.place ∨ a.place = b.place ∧ a.eventId ≤ b.eventId

instance : DecidableRel SequencedEvent.Before := fun a b =>
  inferInstanceAs (Decidable (a.place < b.place ∨ a.place = b.place ∧ a.eventId ≤ b.eventId))

/-- Whether an event lies behind a cursor. -/
def SequencedEvent.behind (cursor : EventCursor) (event : SequencedEvent) : Bool :=
  event.scopeSequence.any (fun place => decide (cursor.scopeSequence < place))

/-- A quarantined event that a cursor may not pass. -/
def SequencedEvent.poisons (cursor : EventCursor) (event : SequencedEvent) : Bool :=
  event.state == .quarantined && (event.scopeSequence.isNone || event.behind cursor)

def ContentFreeEventFanout.candidates (f : ContentFreeEventFanout) (cursor : EventCursor) :
    List SequencedEvent :=
  (f.events.filter (fun event => event.state == .sequenced && event.behind cursor)).insertionSort
    SequencedEvent.Before

theorem mem_candidates {f : ContentFreeEventFanout} {cursor : EventCursor} {event : SequencedEvent} :
    event ∈ f.candidates cursor ↔
      event ∈ f.events ∧ event.state = .sequenced ∧ event.behind cursor = true := by
  simp [ContentFreeEventFanout.candidates, List.mem_insertionSort]

/-- The place of the last event of a page, or where the cursor already is. -/
def pageEnd (cursor : EventCursor) (page : List SequencedEvent) : Int :=
  (page.getLast?.map SequencedEvent.place).getD cursor.scopeSequence

/-- A page's end is a place that a cursor may have. -/
theorem pageEnd_nonnegative {f : ContentFreeEventFanout} {cursor : EventCursor}
    {page : List SequencedEvent} (hpage : ∀ event ∈ page, event ∈ f.candidates cursor) :
    0 ≤ pageEnd cursor page := by
  unfold pageEnd
  cases hlast : page.getLast? with
  | none => exact cursor.nonnegative
  | some last =>
    obtain ⟨-, -, hbehind⟩ := mem_candidates.mp (hpage last (List.mem_of_getLast? hlast))
    simp only [SequencedEvent.behind, Option.any_eq_true, decide_eq_true_eq] at hbehind
    obtain ⟨place, hplace, hlt⟩ := hbehind
    have hnonnegative := cursor.nonnegative
    simp only [Option.map_some, Option.getD_some, SequencedEvent.place, hplace]
    omega

/-- `read` -/
def ContentFreeEventFanout.read (f : ContentFreeEventFanout) (cursor : EventCursor) (limit : Int)
    (current : Binding) : Except Refusal EventPage :=
  if limit < 1 then .error (.value "event page limit must be positive")
  else
    match f.validateCursor cursor current with
    | some refusal => .error refusal
    | none =>
      if f.events.any (SequencedEvent.poisons cursor) then
        .error (.poisonBlocked "quarantined event blocks cursor advancement")
      else if f.bufferCeiling < (f.candidates cursor).length then
        .ok
          { events := []
            nextCursor := cursor
            overflow := true
            recoveryReason := some "SLOW_CONSUMER_CURSOR_RECOVERY"
            disconnected := fun _ => ⟨rfl, rfl⟩
            ordinary := fun h => nomatch h }
      else
        let page := (f.candidates cursor).take limit.toNat
        .ok
          { events := page
            nextCursor :=
              { binding := cursor.binding
                scopeSequence := pageEnd cursor page
                valid := cursor.valid
                nonnegative := pageEnd_nonnegative (fun _ h => List.mem_of_mem_take h) }
            overflow := false
            recoveryReason := none
            disconnected := fun h => nomatch h
            ordinary := fun _ => rfl }

end Solvan.Scale
