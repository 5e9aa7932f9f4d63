import Solvan.Queues.Inbox

namespace Solvan.Queues
open Claims

def outboxPublishAttemptBudget : Nat := 25

/-- A row of `outbox_events`. The claim columns are set together or not at all. -/
structure OutboxRow where
  id : EventId
  eventType : String
  createdAt : Int
  publishAttempts : Nat
  claimedAt : Option Int
  claim : Option (Hold String Token)
  publishedAt : Option Int
  quarantinedAt : Option Int
deriving DecidableEq, Repr

inductive OutboxOutcome where
  | published | quarantined
deriving DecidableEq, Repr

abbrev Outbox := Queue OutboxRow OutboxOutcome

def OutboxRow.written (id : EventId) (eventType : String) (createdAt : Int) : OutboxRow :=
  ⟨id, eventType, createdAt, 0, none, none, none, none⟩

def OutboxRow.unclaimed (now : Int) (r : OutboxRow) : Bool :=
  match r.claim with
  | none => true
  | some claim => decide (claim.expires < now)

def OutboxRow.waiting (now : Int) (r : OutboxRow) : Bool :=
  r.publishedAt.isNone && r.quarantinedAt.isNone && r.unclaimed now

/-- The predicate of `COMPLETE_OUTBOX`, which does not look at `quarantined_at`. -/
def OutboxRow.heldBy (now : Int) (eventId : EventId) (owner : String) (token : Token)
    (r : OutboxRow) : Bool :=
  r.id == eventId && r.publishedAt.isNone &&
    match r.claim with
    | some claim => claim.owner == owner && claim.token == token && decide (now ≤ claim.expires)
    | none => false

/-- `QUARANTINE_OUTBOX` -/
def quarantineOutbox (outbox : Outbox) : Outbox :=
  outbox.update OutboxRow.id
    (fun r => decide (outboxPublishAttemptBudget ≤ r.publishAttempts) && r.waiting outbox.now)
    (fun r => { r with quarantinedAt := some outbox.now, claimedAt := none, claim := none })
    (fun _ => .park .quarantined)

/-- `CLAIM_OUTBOX`, the claim proper of `claim_outbox`. -/
def claimOutbox (outbox : Outbox) (owner : String) (claimTtlMs batchSize : Nat) (token : Token)
    (locked : List EventId) : Option (Outbox × List ClaimedEvent) :=
  if claimTtlMs < 1 ∨ batchSize < 1 then none
  else
    let claim : Hold String Token := ⟨owner, token, outbox.now + milliseconds claimTtlMs⟩
    let ids := Table.candidates OutboxRow.id OutboxRow.createdAt
      (fun r => decide (r.publishAttempts < outboxPublishAttemptBudget) && r.waiting outbox.now)
      locked batchSize outbox.rows
    let outbox' := outbox.update OutboxRow.id (fun r => ids.contains r.id)
      (fun r =>
        { r with
          claimedAt := some outbox.now
          claim := some claim
          publishAttempts := r.publishAttempts + 1 })
      (fun _ => .claim claim)
    let returned := (outbox.rows.filter (fun r => ids.contains r.id)).map
      (fun r => ⟨r.id, r.eventType, claim.token, claim.expires⟩)
    some ({ outbox' with issued := token :: outbox.issued }, returned)

/-- `complete_outbox` -/
def completeOutbox (outbox : Outbox) (owner : String) (eventId : EventId) (token : Token) :
    Option Outbox :=
  outbox.complete OutboxRow.id (·.heldBy outbox.now eventId owner token)
    (fun r => { r with publishedAt := some outbox.now, claim := none })
    (fun _ => .finish owner token .published)

inductive OutboxMove where
  | tick (micros : Nat)
  | write (eventId : EventId) (eventType : String)
  | quarantine
  | claim (owner : String) (claimTtlMs batchSize : Nat) (token : Token) (locked : List EventId)
  | complete (owner : String) (eventId : EventId) (token : Token)
deriving DecidableEq, Repr

def Outbox.next (outbox : Outbox) : OutboxMove → Option Outbox
  | .tick micros => some { outbox with now := outbox.now + micros }
  | .write eventId eventType =>
    if outbox.rows.any (fun r => r.id == eventId) then none
    else some { outbox with rows := outbox.rows ++ [.written eventId eventType outbox.now] }
  | .quarantine => some (quarantineOutbox outbox)
  | .claim owner claimTtlMs batchSize token locked =>
    if outbox.issued.contains token then none
    else (claimOutbox outbox owner claimTtlMs batchSize token locked).map Prod.fst
  | .complete owner eventId token => completeOutbox outbox owner eventId token

def outboxMachine : Machine Outbox OutboxMove :=
  .ofFn (fun outbox => ∃ now, outbox = .empty now) Outbox.next

def OutboxRow.item (r : OutboxRow) : Item String Token OutboxOutcome :=
  ⟨r.publishAttempts,
    match r.publishedAt, r.quarantinedAt, r.claim with
    | some _, _, _ => .done .published
    | none, some _, _ => .done .quarantined
    | none, none, some claim => .held claim
    | none, none, none => .free⟩

/-- Published or quarantined, never both, and then claimed by nobody. -/
structure OutboxRow.Settled (r : OutboxRow) : Prop where
  one : r.publishedAt = none ∨ r.quarantinedAt = none
  unclaimed : ∀ claim, r.claim = some claim → r.publishedAt = none ∧ r.quarantinedAt = none

variable {outbox outbox' : Outbox} {now : Int} {r : OutboxRow} {move : OutboxMove}

theorem OutboxRow.available_of_waiting (h : r.waiting now = true) :
    r.publishedAt = none ∧ r.quarantinedAt = none ∧ r.item.phase.Available now := by
  simp only [OutboxRow.waiting, Bool.and_eq_true, Option.isNone_iff_eq_none] at h
  obtain ⟨⟨hp, hq⟩, hc⟩ := h
  refine ⟨hp, hq, ?_⟩
  simp only [OutboxRow.item, hp, hq]
  unfold OutboxRow.unclaimed at hc
  cases hs : r.claim with
  | none => trivial
  | some claim => rw [hs] at hc; simpa [Phase.Available] using hc

theorem OutboxRow.of_heldBy {eventId : EventId} {owner : String} {token : Token}
    (h : r.heldBy now eventId owner token = true) :
    ∃ claim, r.claim = some claim ∧ claim.LiveFor now owner token := by
  unfold OutboxRow.heldBy at h
  cases hs : r.claim with
  | none => simp [hs] at h
  | some claim =>
    rw [hs] at h
    simp only [Bool.and_eq_true, beq_iff_eq, decide_eq_true_eq] at h
    exact ⟨claim, rfl, h.2.1.1, h.2.1.2, h.2.2⟩

/-- What each move of the outbox does to its rows. -/
theorem Outbox.next_change (hu : Table.Unique OutboxRow.id outbox.rows)
    (settled : ∀ r ∈ outbox.rows, r.Settled) (h : outbox.next move = some outbox') :
    Change outboxPublishAttemptBudget OutboxRow.id OutboxRow.item (fun _ => True) outbox outbox' := by
  cases move with
  | tick micros =>
    cases h
    exact .tick _ (Int.le_add_of_nonneg_right (Int.natCast_nonneg micros))
  | write eventId eventType =>
    simp only [Outbox.next] at h
    split at h
    · cases h
    · rename_i hnew
      cases h
      refine .arrive _ ?_ rfl
      intro r hr he
      exact hnew (List.any_eq_true.mpr ⟨r, hr, beq_iff_eq.mpr he⟩)
  | quarantine =>
    cases h
    refine .of_update (fun _ _ _ => rfl) ?_ (fun _ _ he => by cases he) (fun _ => trivial)
    intro r _ hp
    simp only [Bool.and_eq_true, decide_eq_true_eq] at hp
    obtain ⟨hpub, -, ha⟩ := OutboxRow.available_of_waiting hp.2
    have hpark : Step outboxPublishAttemptBudget outbox.now r.item (.park .quarantined)
        ⟨r.publishAttempts, .done .quarantined⟩ := .park _ ha hp.1
    simpa [OutboxRow.item, hpub] using hpark
  | claim owner claimTtlMs batchSize token locked =>
    simp only [Outbox.next] at h
    split at h
    · cases h
    · rename_i hfresh
      obtain ⟨⟨_, returned⟩, hc, rfl⟩ := Option.map_eq_some_iff.mp h
      unfold claimOutbox at hc
      split at hc
      · cases hc
      · cases hc
        refine .update _ _ _ _ (fun _ _ _ => rfl) ?_ ?_ (fun _ => List.mem_cons_of_mem _)
          (fun _ => trivial)
        · intro r hr hp
          have hc := Table.open_of_candidate hu hr (List.contains_iff_mem.mp hp)
          simp only [Bool.and_eq_true, decide_eq_true_eq] at hc
          obtain ⟨hpub, hqua, ha⟩ := OutboxRow.available_of_waiting hc.2
          have hclaim : Step outboxPublishAttemptBudget outbox.now r.item _ _ :=
            .claim ⟨owner, token, outbox.now + milliseconds claimTtlMs⟩ ha hc.1
          simpa [OutboxRow.item, hpub, hqua] using hclaim
        · intro r _ _ hold he
          cases he
          exact ⟨fun hm => hfresh (List.contains_iff_mem.mpr hm), List.mem_cons_self⟩
  | complete owner eventId token =>
    refine .of_complete h (fun _ _ _ => rfl) ?_ (fun _ _ he => by cases he) (fun _ => trivial)
    intro r hr hp
    obtain ⟨claim, hs, live⟩ := OutboxRow.of_heldBy hp
    obtain ⟨hpub, hqua⟩ := (settled r hr).unclaimed claim hs
    simp only [OutboxRow.item, hs, hpub, hqua]
    exact .finish _ live

theorem Outbox.next_settled (settled : ∀ r ∈ outbox.rows, r.Settled)
    (hu : Table.Unique OutboxRow.id outbox.rows)
    (h : outbox.next move = some outbox') : ∀ r ∈ outbox'.rows, r.Settled := by
  cases move with
  | tick micros => cases h; exact settled
  | write eventId eventType =>
    simp only [Outbox.next] at h
    split at h
    · cases h
    · cases h
      intro r hr
      rcases List.mem_append.mp hr with hr | hr
      · exact settled r hr
      · rw [List.mem_singleton.mp hr]
        exact ⟨.inl rfl, fun _ he => by cases he⟩
  | quarantine =>
    cases h
    intro r' hr'
    rcases Table.update_cases hr' with ⟨r, hr, hp, rfl⟩ | ⟨hr, -⟩
    · simp only [Bool.and_eq_true] at hp
      exact ⟨.inl (OutboxRow.available_of_waiting hp.2).1, fun _ he => by cases he⟩
    · exact settled r' hr
  | claim owner claimTtlMs batchSize token locked =>
    simp only [Outbox.next] at h
    split at h
    · cases h
    · obtain ⟨⟨_, returned⟩, hc, rfl⟩ := Option.map_eq_some_iff.mp h
      unfold claimOutbox at hc
      split at hc
      · cases hc
      · cases hc
        intro r' hr'
        rcases Table.update_cases hr' with ⟨r, hr, hp, rfl⟩ | ⟨hr, -⟩
        · have hc := Table.open_of_candidate hu hr (List.contains_iff_mem.mp hp)
          simp only [Bool.and_eq_true] at hc
          obtain ⟨hpub, hqua, -⟩ := OutboxRow.available_of_waiting hc.2
          exact ⟨.inl hpub, fun _ _ => ⟨hpub, hqua⟩⟩
        · exact settled r' hr
  | complete owner eventId token =>
    simp only [Outbox.next, completeOutbox, Queue.complete] at h
    split at h
    · cases h
      intro r' hr'
      rcases Table.update_cases hr' with ⟨r, hr, hp, rfl⟩ | ⟨hr, -⟩
      · obtain ⟨claim, hs, -⟩ := OutboxRow.of_heldBy hp
        exact ⟨.inr ((settled r hr).unclaimed claim hs).2, fun _ he => by cases he⟩
      · exact settled r' hr
    · cases h

/-- The books of the outbox balance, and each of its rows is settled at most
one way. -/
structure Outbox.Kept (outbox : Outbox) : Prop where
  booked : outbox.Booked outboxPublishAttemptBudget OutboxRow.id OutboxRow.item
  settled : ∀ r ∈ outbox.rows, r.Settled

theorem Outbox.Kept.next (h : outbox.Kept) (move : outbox.next move = some outbox') :
    outbox'.Kept :=
  ⟨(next_change h.booked.unique h.settled move).booked h.booked,
    next_settled h.settled h.booked.unique move⟩

theorem outbox_kept (h : outboxMachine.Reach outbox) : outbox.Kept := by
  refine h.invariant ?_ (fun s a s' _ hs move => hs.next move)
  rintro _ ⟨now, rfl⟩
  exact ⟨.empty, by simp [Queue.empty]⟩

end Solvan.Queues
