import Solvan.Queues.Outbox

namespace Solvan.Queues
open Claims

variable {inbox inbox' : Inbox} {outbox outbox' : Outbox}

theorem Inbox.path_keeps_done {moves : List InboxMove} {r : InboxRow} {outcome : InboxOutcome}
    (reach : inboxMachine.Reach inbox) (path : inboxMachine.Path inbox moves inbox')
    (hr : r ∈ inbox.rows) (hd : r.item.phase = .done outcome) : r ∈ inbox'.rows := by
  have hkept : inboxMachine.Reach inbox' ∧ r ∈ inbox'.rows := by
    refine path.keeps (P := fun s => inboxMachine.Reach s ∧ r ∈ s.rows) ?_ ⟨reach, hr⟩
    intro s move s' hs step
    exact ⟨hs.1.step step, (next_change (inbox_booked hs.1).unique step).keeps_done hs.2 hd⟩
  exact hkept.2

theorem Outbox.path_keeps_done {moves : List OutboxMove} {r : OutboxRow}
    {outcome : OutboxOutcome} (reach : outboxMachine.Reach outbox)
    (path : outboxMachine.Path outbox moves outbox') (hr : r ∈ outbox.rows)
    (hd : r.item.phase = .done outcome) : r ∈ outbox'.rows := by
  have hkept : outboxMachine.Reach outbox' ∧ r ∈ outbox'.rows := by
    refine path.keeps (P := fun s => outboxMachine.Reach s ∧ r ∈ s.rows) ?_ ⟨reach, hr⟩
    intro s move s' hs step
    have kept := outbox_kept hs.1
    exact ⟨hs.1.step step,
      (next_change kept.booked.unique kept.settled step).keeps_done hs.2 hd⟩
  exact hkept.2

/-- Whatever any number of workers do in whatever order, every event's claims
and refunds add up to its attempts within its budget, it is settled at most
once and for good, only the holder of its latest claim settles it or gives it
back, in time, and it is parked only with its budget spent. -/
theorem event_claims_orderly :
    (∀ inbox, inboxMachine.Reach inbox → ∀ r ∈ inbox.rows,
      Orderly inboxClaimAttemptBudget r.item (about r.id inbox.ledger) ∧
      ∀ moves inbox', inboxMachine.Path inbox moves inbox' →
        ∀ outcome, r.item.phase = .done outcome → r ∈ inbox'.rows) ∧
    (∀ outbox, outboxMachine.Reach outbox → ∀ r ∈ outbox.rows,
      Orderly outboxPublishAttemptBudget r.item (about r.id outbox.ledger) ∧
      (r.publishedAt = none ∨ r.quarantinedAt = none) ∧
      ∀ moves outbox', outboxMachine.Path outbox moves outbox' →
        ∀ outcome, r.item.phase = .done outcome → r ∈ outbox'.rows) := by
  refine ⟨?_, ?_⟩
  · intro inbox reach r hr
    refine ⟨(inbox_booked reach).orderly hr, ?_⟩
    intro moves inbox' path outcome hd
    exact Inbox.path_keeps_done reach path hr hd
  · intro outbox reach r hr
    have kept := outbox_kept reach
    refine ⟨kept.booked.orderly hr, (kept.settled r hr).one, ?_⟩
    intro moves outbox' path outcome hd
    exact Outbox.path_keeps_done reach path hr hd

section Example

/-- The first claim lapses and its holder comes too late. -/
def takenOver : List InboxMove :=
  [.arrive "evt_1" "incident", .claim "a" 1000 1 1 [], .tick 2000000, .claim "b" 1000 1 2 [],
    .release "b" "evt_1" 2 true]

def takenOverRow : InboxRow := { InboxRow.received "evt_1" "incident" 0 with attempts := 1 }

def takenOverInbox : Inbox :=
  ⟨2000000, [takenOverRow],
    [("evt_1", 2000000, .giveBack "b" 2 true), ("evt_1", 2000000, .claim ⟨"b", 2, 3000000⟩),
      ("evt_1", 0, .claim ⟨"a", 1, 1000000⟩)], [2, 1]⟩

def published : List OutboxMove :=
  [.write "evt_2" "relay", .claim "a" 1000 1 1 [], .complete "a" "evt_2" 1]

def publishedRow : OutboxRow :=
  { OutboxRow.written "evt_2" "relay" 0 with
    publishAttempts := 1, claimedAt := some 0, publishedAt := some 0 }

def publishedOutbox : Outbox :=
  ⟨0, [publishedRow],
    [("evt_2", 0, .finish "a" 1 .published), ("evt_2", 0, .claim ⟨"a", 1, 1000000⟩)], [1]⟩

theorem takenOver_reached : inboxMachine.Reach takenOverInbox :=
  Machine.reach_of_runFn takenOver ⟨0, rfl⟩ rfl

theorem published_reached : outboxMachine.Reach publishedOutbox :=
  Machine.reach_of_runFn published ⟨0, rfl⟩ rfl

theorem event_claims_orderly_runs :
    Orderly 5 takenOverRow.item (about "evt_1" takenOverInbox.ledger) ∧
      Orderly 25 publishedRow.item (about "evt_2" publishedOutbox.ledger) :=
  ⟨(event_claims_orderly.1 _ takenOver_reached _ (List.mem_singleton.mpr rfl)).1,
    (event_claims_orderly.2 _ published_reached _ (List.mem_singleton.mpr rfl)).1⟩

end Example

end Solvan.Queues
