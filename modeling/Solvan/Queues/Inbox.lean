import Solvan.Base.Machine
import Solvan.Queues.Queue

namespace Solvan.Queues
open Claims

def inboxClaimAttemptBudget : Nat := 5

/-- `processing_state` with the claim columns, which are set just while it is
`PROCESSING`. -/
inductive ProcessingState where
  | pending
  | processing (claim : Hold String Token)
  | completed
  | failed
deriving DecidableEq, Repr

/-- A row of `inbox_events`. -/
structure InboxRow where
  id : EventId
  eventType : String
  receivedAt : Int
  attempts : Nat
  processingState : ProcessingState
  claimedAt : Option Int
  processedAt : Option Int
  resultRef : Option String
  errorClass : Option String
deriving DecidableEq, Repr

inductive InboxOutcome where
  | completed | failed
deriving DecidableEq, Repr

abbrev Inbox := Queue InboxRow InboxOutcome

def InboxRow.received (id : EventId) (eventType : String) (receivedAt : Int) : InboxRow :=
  ⟨id, eventType, receivedAt, 0, .pending, none, none, none, none⟩

def InboxRow.claimable (now : Int) (r : InboxRow) : Bool :=
  match r.processingState with
  | .pending => true
  | .processing claim => decide (claim.expires < now)
  | _ => false

/-- The claim predicate of `COMPLETE_INBOX` and `RELEASE_INBOX`. -/
def InboxRow.heldBy (now : Int) (eventId : EventId) (owner : String) (token : Token)
    (r : InboxRow) : Bool :=
  r.id == eventId &&
    match r.processingState with
    | .processing claim => claim.owner == owner && claim.token == token && decide (now ≤ claim.expires)
    | _ => false

/-- `QUARANTINE_INBOX` -/
def quarantineInbox (inbox : Inbox) : Inbox :=
  inbox.update InboxRow.id
    (fun r => decide (inboxClaimAttemptBudget ≤ r.attempts) && r.claimable inbox.now)
    (fun r =>
      { r with
        processingState := .failed
        processedAt := some inbox.now
        errorClass := some "POISON_EVENT_QUARANTINED" })
    (fun _ => .park .failed)

/-- `CLAIM_INBOX`, the claim proper of `claim_inbox`. Rows that other
transactions have locked are skipped. -/
def claimInbox (inbox : Inbox) (owner : String) (claimTtlMs batchSize : Nat) (token : Token)
    (locked : List EventId) : Option (Inbox × List ClaimedEvent) :=
  if claimTtlMs < 1 ∨ batchSize < 1 then none
  else
    let claim : Hold String Token := ⟨owner, token, inbox.now + milliseconds claimTtlMs⟩
    let ids := Table.candidates InboxRow.id InboxRow.receivedAt
      (fun r => decide (r.attempts < inboxClaimAttemptBudget) && r.claimable inbox.now)
      locked batchSize inbox.rows
    let inbox' := inbox.update InboxRow.id (fun r => ids.contains r.id)
      (fun r =>
        { r with
          processingState := .processing claim
          claimedAt := some inbox.now
          attempts := r.attempts + 1 })
      (fun _ => .claim claim)
    let returned := (inbox.rows.filter (fun r => ids.contains r.id)).map
      (fun r => ⟨r.id, r.eventType, claim.token, claim.expires⟩)
    some ({ inbox' with issued := token :: inbox.issued }, returned)

/-- `complete_inbox` -/
def completeInbox (inbox : Inbox) (owner : String) (eventId : EventId) (token : Token)
    (resultRef errorClass : Option String) : Option Inbox :=
  let failed := errorClass.isSome
  inbox.complete InboxRow.id (·.heldBy inbox.now eventId owner token)
    (fun r =>
      { r with
        processingState := if failed then .failed else .completed
        processedAt := some inbox.now
        resultRef
        errorClass })
    (fun _ => .finish owner token (if failed then .failed else .completed))

/-- `release_inbox` -/
def releaseInbox (inbox : Inbox) (owner : String) (eventId : EventId) (token : Token)
    (refundAttempt : Bool) : Option Inbox :=
  inbox.complete InboxRow.id (·.heldBy inbox.now eventId owner token)
    (fun r =>
      { r with
        processingState := .pending
        claimedAt := none
        attempts := if refundAttempt then r.attempts - 1 else r.attempts })
    (fun _ => .giveBack owner token refundAttempt)

inductive InboxMove where
  | tick (micros : Nat)
  | arrive (eventId : EventId) (eventType : String)
  | quarantine
  | claim (owner : String) (claimTtlMs batchSize : Nat) (token : Token) (locked : List EventId)
  | complete (owner : String) (eventId : EventId) (token : Token)
      (resultRef errorClass : Option String)
  | release (owner : String) (eventId : EventId) (token : Token) (refundAttempt : Bool)
deriving DecidableEq, Repr

/-- One committed transaction, or none where the code raises. Every claim
draws a new token. -/
def Inbox.next (inbox : Inbox) : InboxMove → Option Inbox
  | .tick micros => some { inbox with now := inbox.now + micros }
  | .arrive eventId eventType =>
    if inbox.rows.any (fun r => r.id == eventId) then none
    else some { inbox with rows := inbox.rows ++ [.received eventId eventType inbox.now] }
  | .quarantine => some (quarantineInbox inbox)
  | .claim owner claimTtlMs batchSize token locked =>
    if inbox.issued.contains token then none
    else (claimInbox inbox owner claimTtlMs batchSize token locked).map Prod.fst
  | .complete owner eventId token resultRef errorClass =>
    completeInbox inbox owner eventId token resultRef errorClass
  | .release owner eventId token refundAttempt =>
    releaseInbox inbox owner eventId token refundAttempt

def inboxMachine : Machine Inbox InboxMove :=
  .ofFn (fun inbox => ∃ now, inbox = .empty now) Inbox.next

/-- A row as a claimed item. -/
def InboxRow.item (r : InboxRow) : Item String Token InboxOutcome :=
  ⟨r.attempts,
    match r.processingState with
    | .pending => .free
    | .processing claim => .held claim
    | .completed => .done .completed
    | .failed => .done .failed⟩

variable {inbox inbox' : Inbox} {now : Int} {r : InboxRow} {move : InboxMove}

theorem InboxRow.available_of_claimable (h : r.claimable now = true) :
    r.item.phase.Available now := by
  unfold InboxRow.claimable at h
  unfold InboxRow.item
  cases hs : r.processingState with
  | pending => trivial
  | processing claim => rw [hs] at h; simpa [Phase.Available] using h
  | completed => rw [hs] at h; cases h
  | failed => rw [hs] at h; cases h

theorem InboxRow.of_heldBy {eventId : EventId} {owner : String} {token : Token}
    (h : r.heldBy now eventId owner token = true) :
    ∃ claim, r.processingState = .processing claim ∧ claim.LiveFor now owner token := by
  unfold InboxRow.heldBy at h
  cases hs : r.processingState with
  | processing claim =>
    rw [hs] at h
    simp only [Bool.and_eq_true, beq_iff_eq, decide_eq_true_eq] at h
    exact ⟨claim, rfl, h.2.1.1, h.2.1.2, h.2.2⟩
  | pending => simp [hs] at h
  | completed => simp [hs] at h
  | failed => simp [hs] at h

/-- What each move of the inbox does to its rows. -/
theorem Inbox.next_change (hu : Table.Unique InboxRow.id inbox.rows)
    (h : inbox.next move = some inbox') :
    Change inboxClaimAttemptBudget InboxRow.id InboxRow.item (fun _ => True) inbox inbox' := by
  cases move with
  | tick micros =>
    cases h
    exact .tick _ (Int.le_add_of_nonneg_right (Int.natCast_nonneg micros))
  | arrive eventId eventType =>
    simp only [Inbox.next] at h
    split at h
    · cases h
    · rename_i hnew
      cases h
      refine .arrive _ ?_ rfl
      intro r hr he
      exact hnew (List.any_eq_true.mpr ⟨r, hr, beq_iff_eq.mpr he⟩)
  | quarantine =>
    cases h
    refine .of_update (fun _ _ _ => rfl) ?_ (fun _ _ he => by cases he) (fun _ => trivial)
    intro r _ hp
    simp only [Bool.and_eq_true, decide_eq_true_eq] at hp
    exact .park _ (InboxRow.available_of_claimable hp.2) hp.1
  | claim owner claimTtlMs batchSize token locked =>
    simp only [Inbox.next] at h
    split at h
    · cases h
    · rename_i hfresh
      obtain ⟨⟨_, returned⟩, hc, rfl⟩ := Option.map_eq_some_iff.mp h
      unfold claimInbox at hc
      split at hc
      · cases hc
      · cases hc
        refine .update _ _ _ _ (fun _ _ _ => rfl) ?_ ?_ (fun _ => List.mem_cons_of_mem _)
          (fun _ => trivial)
        · intro r hr hp
          have hc := Table.open_of_candidate hu hr (List.contains_iff_mem.mp hp)
          simp only [Bool.and_eq_true, decide_eq_true_eq] at hc
          exact .claim _ (InboxRow.available_of_claimable hc.2) hc.1
        · intro r _ _ hold he
          cases he
          exact ⟨fun hm => hfresh (List.contains_iff_mem.mpr hm), List.mem_cons_self⟩
  | complete owner eventId token resultRef errorClass =>
    refine Change.of_complete h (fun _ _ _ => rfl) ?_ (fun _ _ he => by cases he) (fun _ => trivial)
    intro r _ hp
    obtain ⟨claim, hs, live⟩ := InboxRow.of_heldBy hp
    simp only [InboxRow.item, hs]
    cases errorClass with
    | none => exact .finish _ live
    | some error => exact .finish _ live
  | release owner eventId token refundAttempt =>
    refine Change.of_complete h (fun _ _ _ => rfl) ?_ (fun _ _ he => by cases he) (fun _ => trivial)
    intro r _ hp
    obtain ⟨claim, hs, live⟩ := InboxRow.of_heldBy hp
    simp only [InboxRow.item, hs]
    exact .giveBack _ live

theorem inbox_booked (h : inboxMachine.Reach inbox) :
    inbox.Booked inboxClaimAttemptBudget InboxRow.id InboxRow.item := by
  refine h.invariant ?_ (fun s a s' _ hs move => (Inbox.next_change hs.unique move).booked hs)
  rintro _ ⟨now, rfl⟩
  exact .empty

end Solvan.Queues
