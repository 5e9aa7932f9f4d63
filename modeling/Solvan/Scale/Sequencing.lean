import Solvan.Scale.Events

/-! What the sequencer's calls keep: places without gaps, one for each event, given to
whoever holds the latest claim. -/
namespace Solvan.Scale

open Solvan.Base

variable {s s' t : CommittedEventSequencer} {returned : SequencedEvent} {call : SequencerCall}
  {epoch now : Int} {positive : 1 ≤ epoch} {made : Made} {moves : List Made}

/-- What a call that succeeds does, in six cases. -/
inductive Called (s : CommittedEventSequencer) :
    SequencerCall → CommittedEventSequencer → SequencedEvent → Prop where
  | again {event existing} (held : s.event event.eventId = some existing) :
      Called s (.ingest event) s existing
  | ingested {event} (absent : s.event event.eventId = none) :
      Called s (.ingest event) (s.store event) event
  | claimed {eventId now leaseSeconds token event} (expires : Int)
      (held : s.event eventId = some event) (open_ : event.state = .unsequenced ∨ event.state = .claimed) :
      Called s (.claim eventId now leaseSeconds token) (s.store (event.claimedWith token expires))
        (event.claimedWith token expires)
  | sequenced {eventId token now event} (held : s.event eventId = some event)
      (claimed : event.state = .claimed) (fenced : event.claimToken = some token)
      (unblocked : ∀ other ∈ s.events, other.state ≠ .quarantined) :
      Called s (.sequence eventId token now)
        { s.store (event.sequencedAt s.nextSequence) with nextSequence := s.nextSequence + 1 }
        (event.sequencedAt s.nextSequence)
  | quarantined {eventId token errorRef event} (held : s.event eventId = some event)
      (claimed : event.state = .claimed) (fenced : event.claimToken = some token) :
      Called s (.quarantine eventId token errorRef) (s.store (event.quarantinedFor errorRef))
        (event.quarantinedFor errorRef)
  | superseded {eventId errorRef event} (held : s.event eventId = some event)
      (poisoned : event.state = .quarantined) :
      Called s (.supersede eventId errorRef) (s.store { event with state := .superseded })
        { event with state := .superseded }

theorem called_of_ok (h : s.call call = .ok (s', returned)) : Called s call s' returned := by
  cases call with
  | ingest event =>
    simp only [CommittedEventSequencer.call, CommittedEventSequencer.ingest] at h
    split at h
    · cases h
    · split at h
      · rename_i existing hheld
        split at h
        · cases h
        · cases h
          exact .again hheld
      · rename_i habsent
        split at h
        · cases h
        · cases h
          exact .ingested habsent
  | claim eventId now leaseSeconds token =>
    simp only [CommittedEventSequencer.call, CommittedEventSequencer.claim] at h
    split at h
    · cases h
    · rename_i event hheld
      split_ifs at h with _ _ _ hopen
      cases h
      refine .claimed _ hheld ?_
      by_contra hnot
      exact hopen (not_or.mp hnot)
  | sequence eventId token now =>
    simp only [CommittedEventSequencer.call, CommittedEventSequencer.sequence] at h
    split at h
    · cases h
    · rename_i event hheld
      split_ifs at h with _ hclaim _ hclear
      cases h
      obtain ⟨hstate, htoken⟩ := not_or.mp hclaim
      refine .sequenced hheld (not_not.mp hstate) (not_not.mp htoken) (fun other hother hq => hclear ?_)
      exact List.any_eq_true.mpr ⟨other, hother, by simp [hq]⟩
  | quarantine eventId token errorRef =>
    simp only [CommittedEventSequencer.call, CommittedEventSequencer.quarantine] at h
    split at h
    · cases h
    · rename_i event hheld
      split_ifs at h with hclaim
      cases h
      obtain ⟨hstate, htoken⟩ := not_or.mp hclaim
      exact .quarantined hheld (not_not.mp hstate) (not_not.mp htoken)
  | supersede eventId errorRef =>
    simp only [CommittedEventSequencer.call, CommittedEventSequencer.supersede] at h
    split at h
    · cases h
    · rename_i event hheld
      split_ifs at h with hpoison
      cases h
      exact .superseded hheld (not_not.mp (not_or.mp hpoison).1)

@[simp] theorem event_store (event : SequencedEvent) (eventId : String) :
    (s.store event).event eventId = if eventId = event.eventId then some event else s.event eventId := by
  unfold CommittedEventSequencer.event CommittedEventSequencer.store
  split
  · rename_i hid
    rw [hid, Keyed.get_put_self]
  · rename_i hid
    exact Keyed.get_put_ne hid

theorem eventId_of_event {eventId : String} {event : SequencedEvent} (h : s.event eventId = some event) :
    event.eventId = eventId := (Keyed.get_some h).2

theorem assigned_append : assigned (moves ++ [made]) = assigned moves ++ made.assigned.toList := by
  simp only [assigned, List.filterMap_append, List.filterMap_cons, List.filterMap_nil]
  cases made.assigned <;> rfl

theorem latestClaim_append (eventId : String) : latestClaim eventId (moves ++ [made]) =
    (made.claimed eventId).or (latestClaim eventId moves) := by
  simp only [latestClaim, List.filterMap_append, List.filterMap_cons, List.filterMap_nil]
  cases made.claimed eventId with
  | none => simp
  | some token => simp

/-- The places from 1 up to a number. -/
def places (count : Nat) : List (Option Int) := (List.range count).map (fun i => some ((i : Int) + 1))

theorem places_succ (count : Nat) : places (count + 1) = places count ++ [some ((count : Int) + 1)] := by
  simp [places, List.range_succ]

/-- Where an event stands after the calls made so far: it has a place if it was
given one, and its claim is the latest. -/
structure Standing (moves : List Made) (eventId : String) (held : Option SequencedEvent) : Prop where
  placed : ∀ place, (eventId, place) ∈ assigned moves ↔
    ∃ event, held = some event ∧ event.state = .sequenced ∧ event.scopeSequence = place
  unplaced : ∀ event, held = some event → event.state ≠ .sequenced → event.scopeSequence = none
  claimed : ∀ event, held = some event → event.state = .claimed →
    event.claimToken = latestClaim eventId moves

/-- The sequencer after some calls. -/
structure Sequenced (moves : List Made) (s : CommittedEventSequencer) : Prop where
  keys : (s.events.map SequencedEvent.eventId).Nodup
  next : s.nextSequence = (assigned moves).length + 1
  exact_ : (assigned moves).map Prod.snd = places (assigned moves).length
  once : ((assigned moves).map Prod.fst).Nodup
  standing : ∀ eventId, Standing moves eventId (s.event eventId)

theorem Sequenced.new : Sequenced [] (.new epoch now positive) where
  keys := List.nodup_nil
  next := rfl
  exact_ := rfl
  once := List.nodup_nil
  standing _ := by
    constructor <;> simp [assigned, CommittedEventSequencer.event, CommittedEventSequencer.new, Keyed.get]

/-- An event that a call has nothing to do with stands where it stood. -/
theorem Standing.other {eventId : String} {held : Option SequencedEvent}
    (h : Standing moves eventId held) (hplaces : ∀ place, (eventId, place) ∉ made.assigned.toList)
    (hclaims : made.claimed eventId = none) : Standing (moves ++ [made]) eventId held := by
  refine ⟨fun place => ?_, h.unplaced, ?_⟩
  · rw [assigned_append, List.mem_append, or_iff_left (hplaces place)]
    exact h.placed place
  · rw [latestClaim_append, hclaims, Option.none_or]
    exact h.claimed

/-- A call that gives out no place. -/
theorem Sequenced.keep (h : Sequenced moves s) (hnone : made.assigned = none)
    (hkeys : (s'.events.map SequencedEvent.eventId).Nodup) (hnext : s'.nextSequence = s.nextSequence)
    (hstanding : ∀ eventId, Standing (moves ++ [made]) eventId (s'.event eventId)) :
    Sequenced (moves ++ [made]) s' := by
  have hsame : assigned (moves ++ [made]) = assigned moves := by
    rw [assigned_append, hnone, Option.toList_none, List.append_nil]
  refine ⟨hkeys, ?_, ?_, ?_, hstanding⟩
  · rw [hnext, hsame, h.next]
  · rw [hsame, h.exact_]
  · rw [hsame]
    exact h.once

/-- A call that stores an event without a place where there was none with a place. -/
theorem Sequenced.stored (h : Sequenced moves s) {event : SequencedEvent} (hnone : made.assigned = none)
    (hbefore : ∀ old, s.event event.eventId = some old → old.state ≠ .sequenced)
    (hstate : event.state ≠ .sequenced) (hplace : event.scopeSequence = none)
    (hclaim : event.state = .claimed → event.claimToken = latestClaim event.eventId (moves ++ [made]))
    (hothers : ∀ eventId, eventId ≠ event.eventId → made.claimed eventId = none) :
    Sequenced (moves ++ [made]) (s.store event) := by
  refine h.keep hnone (Keyed.put_nodup h.keys) rfl (fun eventId => ?_)
  rw [event_store]
  split
  · rename_i hid
    subst hid
    refine ⟨fun place => ?_, ?_, ?_⟩
    · rw [assigned_append, hnone, Option.toList_none, List.append_nil, (h.standing _).placed]
      constructor
      · rintro ⟨old, hold, hsequenced, -⟩
        exact absurd hsequenced (hbefore old hold)
      · rintro ⟨new, hnew, hsequenced, -⟩
        cases hnew
        exact absurd hsequenced hstate
    · rintro new hnew -
      cases hnew
      exact hplace
    · intro new hnew hclaimed
      cases hnew
      exact hclaim hclaimed
  · rename_i hid
    exact (h.standing eventId).other (by simp [hnone]) (hothers eventId hid)

/-- A call that gives a claimed event the next place. -/
theorem Sequenced.placed (h : Sequenced moves s) {event : SequencedEvent}
    (held : s.event event.eventId = some event) (hclaimed : event.state = .claimed)
    (hmade : made.assigned = some (event.eventId, some s.nextSequence))
    (hothers : ∀ eventId, made.claimed eventId = none) :
    Sequenced (moves ++ [made])
      { s.store (event.sequencedAt s.nextSequence) with nextSequence := s.nextSequence + 1 } := by
  have hassigned : assigned (moves ++ [made]) =
      assigned moves ++ [(event.eventId, some s.nextSequence)] := by
    rw [assigned_append, hmade, Option.toList_some]
  have hnew : ∀ place, (event.eventId, place) ∉ assigned moves := fun place hplace => by
    obtain ⟨old, hold, hsequenced, -⟩ := ((h.standing _).placed place).mp hplace
    rw [held] at hold
    cases hold
    rw [hclaimed] at hsequenced
    cases hsequenced
  refine ⟨Keyed.put_nodup h.keys, ?_, ?_, ?_, fun eventId => ?_⟩
  · simp [hassigned, h.next]
  · rw [hassigned, List.map_append, h.exact_, List.length_append, List.length_singleton, places_succ]
    simp [h.next]
  · rw [hassigned, List.map_append, List.map_singleton]
    refine List.Nodup.append h.once (List.nodup_singleton _) (fun id hid hid' => ?_)
    obtain ⟨⟨_, place⟩, hmem, rfl⟩ := List.mem_map.mp hid
    cases List.mem_singleton.mp hid'
    exact hnew place hmem
  · change Standing _ eventId ((s.store (event.sequencedAt s.nextSequence)).event eventId)
    rw [event_store]
    split
    · rename_i hid
      have hid : eventId = event.eventId := hid
      subst hid
      refine ⟨fun place => ?_, ?_, ?_⟩
      · rw [hassigned, List.mem_append, or_iff_right (hnew place), List.mem_singleton]
        constructor
        · intro heq
          cases heq
          exact ⟨_, rfl, rfl, rfl⟩
        · rintro ⟨new, hstored, -, rfl⟩
          cases hstored
          rfl
      · intro new hstored hstate
        cases hstored
        exact absurd rfl hstate
      · intro new hstored hstate
        cases hstored
        cases hstate
    · rename_i hid
      have hid : eventId ≠ event.eventId := hid
      refine (h.standing eventId).other (fun place hplace => ?_) (hothers eventId)
      rw [hmade, Option.toList_some, List.mem_singleton] at hplace
      exact hid (congrArg Prod.fst hplace)

/-- What every call keeps. -/
theorem Sequenced.step (h : Sequenced moves s) (move : (sequencing epoch now positive).step s made s') :
    Sequenced (moves ++ [made]) s' := by
  obtain ⟨call, answer⟩ := made
  obtain ⟨hfresh, hperform⟩ := move
  unfold CommittedEventSequencer.perform at hperform
  split at hperform
  · rename_i after event hcall
    obtain ⟨rfl, rfl⟩ := Prod.mk.injEq .. ▸ hperform
    cases called_of_ok hcall with
    | again held => exact h.keep rfl h.keys rfl (fun id => (h.standing id).other (by simp [Made.assigned]) rfl)
    | ingested absent =>
      obtain ⟨hstate, -, -, -, hplace, -⟩ := hfresh _ rfl
      refine h.stored rfl (fun old hold => ?_) (by simp [hstate]) hplace (by simp [hstate]) (fun _ _ => rfl)
      rw [absent] at hold
      cases hold
    | claimed expires held open_ =>
      rename_i eventId now leaseSeconds token event
      obtain rfl := eventId_of_event held
      have hunplaced : event.state ≠ .sequenced := by
        rcases open_ with hstate | hstate <;> simp [hstate]
      refine h.stored rfl (fun old hold => ?_) (by simp [SequencedEvent.claimedWith])
        ((h.standing _).unplaced event held hunplaced) (fun _ => ?_) (fun other hother => ?_)
      · rw [show (event.claimedWith token expires).eventId = event.eventId from rfl, held] at hold
        cases hold
        exact hunplaced
      · rw [latestClaim_append]
        simp [Made.claimed, SequencedEvent.claimedWith]
      · exact if_neg (fun hboth => hother hboth.1.symm)
    | sequenced held claimed fenced unblocked =>
      obtain rfl := eventId_of_event held
      exact h.placed held claimed rfl (fun _ => rfl)
    | quarantined held claimed fenced =>
      rename_i eventId token errorRef event
      obtain rfl := eventId_of_event held
      refine h.stored rfl (fun old hold => ?_) (by simp [SequencedEvent.quarantinedFor])
        ((h.standing _).unplaced event held (by simp [claimed]))
        (by simp [SequencedEvent.quarantinedFor]) (fun _ _ => rfl)
      rw [show (event.quarantinedFor errorRef).eventId = event.eventId from rfl, held] at hold
      cases hold
      simp [claimed]
    | superseded held poisoned =>
      rename_i eventId errorRef event
      obtain rfl := eventId_of_event held
      refine h.stored rfl (fun old hold => ?_) (by simp)
        ((h.standing _).unplaced event held (by simp [poisoned])) (by simp) (fun _ _ => rfl)
      rw [show ({ event with state := .superseded } : SequencedEvent).eventId = event.eventId from rfl,
        held] at hold
      cases hold
      simp [poisoned]
  · -- What raises leaves everything as it was.
    obtain ⟨rfl, rfl⟩ := Prod.mk.injEq .. ▸ hperform
    have hnone : (Made.mk call none).assigned = none := by cases call <;> rfl
    refine h.keep hnone h.keys rfl (fun id => (h.standing id).other (by simp [hnone]) ?_)
    cases call with
    | claim => exact if_neg (fun hboth => nomatch hboth.2)
    | _ => rfl

theorem sequenced_of_path (h : (sequencing epoch now positive).Path (.new epoch now positive) moves t) :
    Sequenced moves t :=
  h.history Sequenced.new (fun _ _ _ _ hs move => hs.step move)

/-- A call that succeeds where a claim is needed is made with the latest claim. -/
theorem Sequenced.fenced (h : Sequenced moves s) (hcall : s.call call = .ok (s', returned))
    {eventId : String} {token : Token} (hfenced : call.fenced = some (eventId, token)) :
    latestClaim eventId moves = some token := by
  cases called_of_ok hcall with
  | sequenced held claimed fenced _ =>
    cases hfenced
    rw [← (h.standing _).claimed _ held claimed, fenced]
  | quarantined held claimed fenced =>
    cases hfenced
    rw [← (h.standing _).claimed _ held claimed, fenced]
  | _ => cases hfenced

/-- In every run the places given out are 1, 2, 3 and so on, in that order and no
event's twice, the events hold the places they were given, and a call on a claimed
event succeeds only for the latest claim on it; none is given a place while any is
quarantined. -/
theorem sequencer_places (h : (sequencing epoch now positive).Path (.new epoch now positive) moves t) :
    (assigned moves).map Prod.snd = places (assigned moves).length ∧
      ((assigned moves).map Prod.fst).Nodup ∧
      (∀ event ∈ t.events, ∀ place, event.scopeSequence = some place ↔
        (event.eventId, some place) ∈ assigned moves) ∧
      ∀ front made back, moves = front ++ made :: back → made.returned.isSome →
        (∀ eventId token, made.call.fenced = some (eventId, token) →
          latestClaim eventId front = some token) ∧
        ∃ u, (sequencing epoch now positive).Path (.new epoch now positive) front u ∧
          (sequencing epoch now positive).Path u (made :: back) t ∧
          (made.assigned.isSome → ∀ event ∈ u.events, event.state ≠ .quarantined) := by
  have hall := sequenced_of_path h
  refine ⟨hall.exact_, hall.once, fun event hevent place => ?_, ?_⟩
  · have hheld : t.event event.eventId = some event := Keyed.get_of_mem hall.keys hevent
    have hstanding := hall.standing event.eventId
    rw [hstanding.placed]
    constructor
    · intro hplace
      refine ⟨event, hheld, ?_, hplace⟩
      by_contra hstate
      rw [hstanding.unplaced event hheld hstate] at hplace
      cases hplace
    · rintro ⟨held, hget, -, hplace⟩
      rw [hheld] at hget
      cases hget
      exact hplace
  · rintro front made back rfl hreturned
    obtain ⟨u, hfront, hback⟩ := h.split
    have hu := sequenced_of_path hfront
    cases hback with
    | cons move rest =>
      obtain ⟨call, answer⟩ := made
      have hperform := move.2
      unfold CommittedEventSequencer.perform at hperform
      split at hperform
      · rename_i after event hcall
        refine ⟨fun eventId token hfenced => hu.fenced hcall hfenced, u, hfront, .cons move rest, ?_⟩
        intro hassigned
        cases called_of_ok hcall with
        | sequenced _ _ _ unblocked => exact unblocked
        | _ => cases hassigned
      · obtain ⟨-, rfl⟩ := Prod.mk.injEq .. ▸ hperform
        cases hreturned

/-- Carry out calls one after the other, with what each returns. -/
def record (s : CommittedEventSequencer) : List SequencerCall → List Made × CommittedEventSequencer
  | [] => ([], s)
  | call :: calls =>
    let rest := record (s.perform call).1 calls
    (⟨call, (s.perform call).2⟩ :: rest.1, rest.2)

theorem path_of_record (calls : List SequencerCall)
    (hfresh : ∀ event, .ingest event ∈ calls → event.Fresh) :
    (sequencing epoch now positive).Path s (record s calls).1 (record s calls).2 := by
  induction calls generalizing s with
  | nil => exact .nil
  | cons call calls ih =>
    refine .cons ⟨fun event hcall => hfresh event ?_, rfl⟩
      (ih (fun event hevent => hfresh event (List.mem_cons_of_mem _ hevent)))
    exact hcall ▸ List.mem_cons_self

/-- An event of one scope, as it is committed. -/
def committedEvent (eventId eventRef eventHash : String) : SequencedEvent where
  organizationId := "org_demo"
  projectId := "prj_demo"
  environmentId := "env_demo"
  eventId := eventId
  eventRef := eventRef
  eventHash := eventHash
  placementEpoch := 3
  createdAt := ⟨0, some 0, Calendar.maxMicros_pos⟩

/-- Two workers: the second takes an event over once the first one's claim has run out,
and the first comes back too late. -/
def takeover : List SequencerCall :=
  [.ingest (committedEvent "evt_1" "ref_event_1" "sha256:1"),
    .ingest (committedEvent "evt_2" "ref_event_2" "sha256:2"),
    .claim "evt_1" none 30 1, .claim "evt_1" (some 30000000) 30 2, .sequence "evt_1" 1 none,
    .sequence "evt_1" 2 none, .claim "evt_2" none 30 3, .sequence "evt_2" 3 none,
    .sequence "evt_2" 3 none]

theorem takeover_places :
    let moves := (record (.new 3 0 (by decide)) takeover).1
    assigned moves = [("evt_1", some 1), ("evt_2", some 2)] ∧
      (assigned moves).map Prod.snd = places (assigned moves).length := by
  have hfresh : ∀ event, .ingest event ∈ takeover → event.Fresh := by
    intro event hevent
    simp only [takeover, List.mem_cons, SequencerCall.ingest.injEq, reduceCtorEq, List.not_mem_nil,
      or_false] at hevent
    rcases hevent with rfl | rfl <;> exact ⟨rfl, rfl, rfl, rfl, rfl, rfl⟩
  have path : (sequencing 3 0 (by decide)).Path (.new 3 0 (by decide)) _ _ :=
    path_of_record takeover hfresh
  exact ⟨by decide, (sequencer_places path).1⟩

end Solvan.Scale
