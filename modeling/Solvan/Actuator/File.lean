import Solvan.Actuator.Execute
import Solvan.Base.Fencing

namespace Solvan.Actuator
open Fencing (Verdict Stage Lease Phase)
open Mitigation (TargetEpochRow)
open Workflow (ActionRow ActionStatus IncidentRow)

/-- All a database has on one action. -/
structure File where
  actions : List ActionRow
  reservations : List ReservationRow
  dispatches : List DispatchRow
  receipts : List ExecutionReceiptRow

def Database.file (db : Database) (actionId : String) : File where
  actions := db.actions.filter (fun a => a.id == actionId)
  reservations := db.reservations.filter (fun r => r.actionId == actionId)
  dispatches := db.dispatches.filter (fun d => d.actionId == actionId)
  receipts := db.executionReceipts.filter (fun e => e.actionId == actionId)

def DispatchPhase.stage : DispatchPhase → Stage
  | .prepared => .prepared
  | .mutationIssued => .issued
  | .reconciling => .reconciling

def ExecutionResult.verdict : ExecutionResult → Verdict
  | .succeeded => .effect
  | .failed => .noEffect
  | .ambiguous => .unknown

/-- What a file says about the job of mutating the action's target. -/
inductive Filed : File → Phase Token → Prop where
  | untouched (actions : List ActionRow) : Filed ⟨actions, [], [], []⟩ .untouched
  | reserved {a : ActionRow} {r : ReservationRow} (open_ : r.active = true)
      (target : r.targetKey = a.targetKey)
      (status : a.status = .authorized ∨ a.status = .executing ∨ a.status = .invalidated) :
      Filed ⟨[a], [r], [], []⟩ (.reserved r.leaseToken)
  | withdrawn {a : ActionRow} {r : ReservationRow} (closed : r.active = false)
      (status : a.status = .invalidated ∨ a.status = .dryRunMismatch) :
      Filed ⟨[a], [r], [], []⟩ .withdrawn
  | pending {a : ActionRow} {r : ReservationRow} {d : DispatchRow} {phase : DispatchPhase}
      (open_ : r.active = true) (target : r.targetKey = a.targetKey)
      (status : a.status = .executing) (reservation : d.reservationId = r.id)
      (outstanding : d.status = .outstanding phase) :
      Filed ⟨[a], [r], [d], []⟩ (.pending phase.stage ⟨d.leaseToken, d.leaseExpiresAt⟩)
  | settled {a : ActionRow} {r : ReservationRow} {d : DispatchRow} {e : ExecutionReceiptRow}
      (held : r.active = (e.result == .ambiguous)) (target : r.targetKey = a.targetKey)
      (status : a.status = e.result.actionStatus) (reservation : d.reservationId = r.id)
      (terminal : d.status = e.result.terminal) :
      Filed ⟨[a], [r], [d], [e]⟩ (.settled e.result.verdict)

variable {db db' : Database} {actionId : String} {phase : Phase Token} {a : ActionRow}
  {r : ReservationRow} {d : DispatchRow} {f : File}

theorem eq_singleton {α : Type} {x : α} {rows : List α} (hm : x ∈ rows) (hl : rows.length ≤ 1) :
    rows = [x] := by
  match rows, hl with
  | [y], _ => rw [List.mem_singleton.mp hm]
  | [], _ => cases hm

/-- A file has at most one reservation, one dispatch and one receipt. -/
theorem Filed.lengths (h : Filed f phase) :
    f.reservations.length ≤ 1 ∧ f.dispatches.length ≤ 1 ∧ f.receipts.length ≤ 1 := by
  cases h <;> simp

theorem Filed.reservation_eq (h : Filed (db.file r.actionId) phase) (hr : r ∈ db.reservations) :
    (db.file r.actionId).reservations = [r] :=
  eq_singleton (List.mem_filter.mpr ⟨hr, by simp⟩) h.lengths.1

theorem Filed.dispatch_eq (h : Filed (db.file d.actionId) phase) (hd : d ∈ db.dispatches) :
    (db.file d.actionId).dispatches = [d] :=
  eq_singleton (List.mem_filter.mpr ⟨hd, by simp⟩) h.lengths.2.1

/-- The unique keys the protocol leans on. -/
structure Keys (db : Database) : Prop where
  actions : Table.Unique ActionRow.id db.actions
  targets : Table.Unique TargetEpochRow.targetKey db.targetEpochs
  reservations : Table.Unique ReservationRow.id db.reservations
  dispatches : Table.Unique DispatchRow.id db.dispatches

/-- What a row is about, which no update changes. -/
def ReservationRow.about (r : ReservationRow) : String × String := (r.id, r.actionId)

def DispatchRow.about (d : DispatchRow) : String × String × String :=
  (d.id, d.actionId, d.reservationId)

/-- Rows stay what they are about, and no action leaves execution but the one
that is closed. -/
structure Keeps (db db' : Database) (closed : Option String) : Prop where
  now : db'.now = db.now
  reservations : db.reservations.map ReservationRow.about ⊆ db'.reservations.map ReservationRow.about
  dispatches : db.dispatches.map DispatchRow.about ⊆ db'.dispatches.map DispatchRow.about
  actions : ∀ a ∈ db.actions, closed ≠ some a.id →
    ∃ a' ∈ db'.actions, a'.id = a.id ∧ (a.status = .executing → a'.status = .executing)

variable {closed : Option String}

theorem Keeps.refl (db : Database) : Keeps db db closed :=
  ⟨rfl, fun _ => id, fun _ => id, fun a ha _ => ⟨a, ha, rfl, id⟩⟩

/-- The actions are kept as they are. -/
theorem Keeps.of_actions (now : db'.now = db.now)
    (reservations : db.reservations.map ReservationRow.about ⊆
      db'.reservations.map ReservationRow.about)
    (dispatches : db.dispatches.map DispatchRow.about ⊆ db'.dispatches.map DispatchRow.about)
    (actions : db'.actions = db.actions) : Keeps db db' closed :=
  ⟨now, reservations, dispatches, fun a ha _ => ⟨a, actions ▸ ha, rfl, id⟩⟩

theorem about_reservations {hit : ReservationRow → Bool} {set : ReservationRow → ReservationRow}
    {rows : List ReservationRow} (hset : ∀ r, (set r).about = r.about) :
    (Table.update hit set rows).map ReservationRow.about = rows.map ReservationRow.about :=
  Table.keys_update (fun r _ _ => hset r)

theorem about_dispatches {hit : DispatchRow → Bool} {set : DispatchRow → DispatchRow}
    {rows : List DispatchRow} (hset : ∀ d, (set d).about = d.about) :
    (Table.update hit set rows).map DispatchRow.about = rows.map DispatchRow.about :=
  Table.keys_update (fun d _ _ => hset d)

end Solvan.Actuator
