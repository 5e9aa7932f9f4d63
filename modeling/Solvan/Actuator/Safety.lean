import Solvan.Actuator.Protocol

namespace Solvan.Actuator
open Fencing (Hand Lease Phase Sound Stage Step System machine sound_of_reach)
open Mitigation (TargetEpochRow)
open Workflow (ActionRow ActionStatus IncidentRow)

def targetAt (t : TargetEpochRow) : String × Nat := (t.targetKey, t.epoch)

def actionOf (a : ActionRow) : String × String := (a.id, a.incidentId)

/-- No target is reserved, no epoch moves and nothing is counted. -/
structure Calm (db db' : Database) : Prop where
  targets : db'.targetEpochs.map targetAt = db.targetEpochs.map targetAt
  actions : db'.actions.map actionOf = db.actions.map actionOf
  incidents : db'.incidents = db.incidents
  receipts : db'.executionReceipts = db.executionReceipts
  reservations : ∀ r' ∈ db'.reservations, ∃ r ∈ db.reservations, r'.id = r.id ∧
    r'.targetKey = r.targetKey ∧ r'.reservationEpoch = r.reservationEpoch ∧
    (r'.active = true → r.active = true)

variable {db db₁ db' : Database} {reservation : TargetReservation} {dispatch dispatch' : ActuatorDispatch}
  {receipt : ExecutionReceiptWrite} {hash : Json → String} {ttlMs : Nat}

theorem Calm.refl (db : Database) : Calm db db :=
  ⟨rfl, rfl, rfl, rfl, fun r hr => ⟨r, hr, rfl, rfl, rfl, id⟩⟩

theorem Calm.trans (h : Calm db db₁) (h' : Calm db₁ db') : Calm db db' := by
  refine ⟨h'.targets.trans h.targets, h'.actions.trans h.actions, h'.incidents.trans h.incidents,
    h'.receipts.trans h.receipts, fun r' hr' => ?_⟩
  obtain ⟨r₁, hr₁, hid₁, htarget₁, hepoch₁, hactive₁⟩ := h'.reservations r' hr'
  obtain ⟨r, hr, hid, htarget, hepoch, hactive⟩ := h.reservations r₁ hr₁
  exact ⟨r, hr, hid₁.trans hid, htarget₁.trans htarget, hepoch₁.trans hepoch,
    fun ha => hactive (hactive₁ ha)⟩

theorem calm_setActionStatus (db : Database) (actionId : String) (from_ : List ActionStatus)
    (status : ActionStatus) : Calm db (db.setActionStatus actionId from_ status) :=
  { Calm.refl db with actions := Table.keys_update (fun _ _ _ => rfl) }

theorem calm_reservations {hit : ReservationRow → Bool} {set : ReservationRow → ReservationRow}
    (hset : ∀ r, (set r).id = r.id ∧ (set r).targetKey = r.targetKey ∧
      (set r).reservationEpoch = r.reservationEpoch ∧ ((set r).active = true → r.active = true)) :
    Calm db { db with reservations := Table.update hit set db.reservations } := by
  refine { Calm.refl db with reservations := fun r' hr' => ?_ }
  rcases Table.update_cases hr' with ⟨r, hr, -, rfl⟩ | ⟨hr, -⟩
  · exact ⟨r, hr, hset r⟩
  · exact ⟨r', hr, rfl, rfl, rfl, id⟩

theorem calm_extended (db : Database) (reservation : TargetReservation) (ttlMs : Nat) :
    Calm db (extended db reservation ttlMs) :=
  calm_reservations (by exact fun _ => ⟨rfl, rfl, rfl, id⟩)

theorem calm_release {reason : ReleaseReason} {u : Unit}
    (ok : releaseBeforeMutation db reservation reason = (db', .ok u)) : Calm db db' := by
  obtain ⟨-, rfl⟩ := releaseBeforeMutation_ok ok
  refine Calm.trans ?_ (calm_setActionStatus _ _ _ _)
  exact calm_reservations
    (by exact fun _ => ⟨rfl, rfl, rfl, fun h => absurd h (by simp [ReservationRow.active])⟩)

theorem calm_prepare {material : ActionRow} {actuatorId owner dispatchId effectReceiptId : String}
    {before : TargetObservation} {prediction : PredictedEffect} {traceId : Option String}
    {token : Token}
    (ok : prepareDispatch hash db reservation material actuatorId owner before prediction traceId
      ttlMs dispatchId effectReceiptId token = (db', .ok dispatch)) : Calm db db' := by
  obtain ⟨d, e, -, -, -, -, -, -, -, -, rfl, -⟩ := prepareDispatch_ok ok
  refine Calm.trans ?_ (calm_extended _ _ _)
  exact { Calm.refl db with }

theorem calm_claim (ok : claimMutation db dispatch ttlMs = (db', .ok dispatch')) : Calm db db' := by
  obtain ⟨-, rfl, -⟩ := claimMutation_ok ok
  refine Calm.trans ?_ (calm_extended _ _ _)
  exact { Calm.refl db with }

theorem calm_acknowledge {requestId : Option String} {returnedAt : Option Int}
    (ok : recordConnectorAck db dispatch requestId returnedAt ttlMs = (db', .ok dispatch')) :
    Calm db db' := by
  obtain ⟨-, rfl, -⟩ := recordConnectorAck_ok ok
  refine Calm.trans ?_ (calm_extended _ _ _)
  exact { Calm.refl db with }

theorem calm_takeOver {actionId owner : String} {d : DispatchRow} {token token' : Token} :
    Calm db (takenOver db actionId owner ttlMs d token token') := by
  have hcalm : Calm db { db with
      reservations := (takenOver db actionId owner ttlMs d token token').reservations } :=
    calm_reservations (by exact fun _ => ⟨rfl, rfl, rfl, id⟩)
  exact { Calm.refl db with reservations := hcalm.reservations }

/-- The call of `mutate` a worker makes. -/
def Mutation.of (db : Database) (dispatch : ActuatorDispatch) : Mutation :=
  ⟨dispatch.material.id, dispatch.leaseToken, dispatch.reservation.expiresAt, db⟩

/-- What a move can do. -/
inductive Move (s : State) : State → Prop where
  | calm (w : Nat) {db : Database} {tokens : Nat} {point : Point} (calm : Calm s.db db) :
      Move s (s.after w db tokens point)
  | around {db : Database} (calm : Calm s.db db) : Move s { s with db }
  | plan {action : ActionRow} {db : Database} (planned : planned s.db action = some db) :
      Move s { s with db }
  | baseline {target : TargetEpochRow}
      (new : ∀ t ∈ s.db.targetEpochs, t.targetKey ≠ target.targetKey) :
      Move s { s with db := { s.db with targetEpochs := s.db.targetEpochs ++ [target] } }
  | coordinate (incident : IncidentRow) : Move s { s with db := coordinated s.db incident }
  | reserve (w : Nat) {action : ActionRow} {row : ReservationRow} {tokens : Nat} {point : Point}
      (mem : action ∈ s.db.actions)
      (target : ∃ t ∈ s.db.targetEpochs, t.targetKey = action.targetKey ∧
        t.epoch = action.expectedTargetEpoch ∧
        t.lastObservedVersion = action.expectedTargetVersion)
      (free : ∀ r ∈ s.db.reservations, r.targetKey = action.targetKey → r.active = false)
      (key : row.targetKey = action.targetKey)
      (epoch : row.expectedTargetEpoch = action.expectedTargetEpoch) :
      Move s (s.after w (reserve s.db action row) tokens point)
  | mutate {w : Nat} {call : Call} {dispatch : ActuatorDispatch}
      (point : s.points w = .mutating call dispatch) :
      Move s { s.goto w (.awaiting call dispatch) with
        mutations := .of s.db dispatch :: s.mutations
        inFlight := dispatch.material.id :: s.inFlight }
  | finalize {w : Nat} {dispatch : ActuatorDispatch} {receipt : ExecutionReceiptWrite}
      {customerAuditRef receiptId result : String} {db : Database} {next : Point}
      (point : s.points w = .finalizing dispatch receipt customerAuditRef)
      (ok : finalizeDispatch s.db dispatch receipt customerAuditRef receiptId = (db, .ok result)) :
      Move s (s.after w db s.tokens next)
  | deliver {actionId : String} {action : ActionRow} (flying : actionId ∈ s.inFlight)
      (mem : action ∈ s.db.actions) (id : action.id = actionId) :
      Move s { s with
        inFlight := s.inFlight.erase actionId
        effects := ⟨actionId, action.targetKey, s.db⟩ :: s.effects }
  | lose (actionId : String) : Move s { s with inFlight := s.inFlight.erase actionId }

variable {s s' : State} {event : Event} {w : Nat}

/-- A worker that only hears or raises. -/
theorem Move.stay (w : Nat) (point : Point) : Move s (s.goto w point) :=
  .calm w (Calm.refl s.db)

/-- A worker that calls its store, which keeps calm either way. -/
theorem Move.call {α : Type} {called : Called α} {returned : α → Point}
    {raised : ExecutionError → Point} {tokens : Nat} (calm : Calm s.db called.1) :
    Move s ({ s with tokens }.call w called returned raised) :=
  .calm w calm

theorem calm_of_transaction {α : Type} {called : Called α}
    (ok : ∀ value, called = (db', .ok value) → Calm db db')
    (error : ∀ e, called = (db', .error e) → db' = db) (h : called.1 = db') : Calm db db' := by
  obtain ⟨db₁, result⟩ := called
  cases h
  cases result with
  | ok value => exact ok value rfl
  | error e => exact (error e rfl) ▸ Calm.refl _

/-- Every event is one of these moves. -/
theorem State.next_move (h : s.next hash event = some s') : Move s s' := by
  cases event with
  | tick micros =>
    cases h
    exact .around { Calm.refl s.db with }
  | plan action =>
    obtain ⟨db', hplan, heq⟩ := Option.map_eq_some_iff.mp h
    cases heq
    exact .plan hplan
  | approve actionId =>
    cases h
    exact .around (calm_setActionStatus _ _ _ _)
  | baseline target =>
    obtain ⟨hnew, heq⟩ := Option.ite_none_left_eq_some.mp h
    cases heq
    exact .baseline (fun t ht hkey => hnew (List.any_eq_true.mpr ⟨t, ht, by simpa using hkey⟩))
  | register rows | schedule rows =>
    cases h
    exact .around { Calm.refl s.db with }
  | coordinate incident =>
    cases h
    exact .coordinate incident
  | execute w call =>
    obtain ⟨-, heq⟩ := Option.ite_none_right_eq_some.mp h
    cases heq
    exact .stay w _
  | recover w =>
    simp only [State.next] at h
    split at h
    · rename_i call hpoint
      cases h
      refine Move.call ?_
      generalize hcalled : claimRecovery hash s.db call.actionId call.actuator.actuatorId
        call.actuator.actorIdentity call.actuator.reservationTtlMs s.tokens (s.tokens + 1) = called
      obtain ⟨db', result⟩ := called
      rcases claimRecovery_cases hcalled with ⟨rfl, -⟩ | ⟨d, ph, dispatch, -, -, -, -, rfl, -⟩
      · exact Calm.refl _
      · exact calm_takeOver
    · cases h
  | reauthorize w verdict | observe w observation | dryRun w prediction | undo w plan
  | audit w ref =>
    simp only [State.next] at h
    split at h
    · cases h
      exact .stay w _
    · cases h
  | acquire w reservationId =>
    simp only [State.next] at h
    split at h
    · rename_i call hpoint
      cases h
      rw [State.call_eq]
      generalize hcalled : acquireReservation s.db call.actionId call.actuator.actorIdentity
        call.actuator.reservationTtlMs reservationId s.tokens = called
      obtain ⟨db', result⟩ := called
      rcases acquireReservation_cases hcalled with
        ⟨error, rfl, rfl | rfl⟩ | ⟨action, ha, -, -, htarget, hfree, rfl, rfl⟩
      · exact .calm w (Calm.refl _)
      · exact .calm w (calm_setActionStatus _ _ _ _)
      · exact .reserve w ha htarget (fun r hr => (hfree r hr).2) rfl rfl
    · cases h
  | authorize w verdict =>
    simp only [State.next] at h
    split at h
    · rename_i call reservation hpoint
      cases h
      refine .calm w (calm_of_transaction (fun a hok => ?_) (fun e he => transaction_error he) rfl)
      obtain ⟨-, hdb⟩ := authorizeForExecution_ok hok
      exact hdb ▸ calm_setActionStatus _ _ _ _
    · cases h
  | gate w verdict =>
    simp only [State.next] at h
    split at h
    · cases h
      exact .stay w _
    · cases h
      exact .stay w _
    · cases h
  | release w =>
    simp only [State.next] at h
    split at h
    · cases h
      exact .calm w (calm_of_transaction (fun _ hok => calm_release hok)
        (fun e he => releaseBeforeMutation_error he) rfl)
    · cases h
  | prepare w dispatchId effectReceiptId =>
    simp only [State.next] at h
    split at h
    · cases h
      exact .call (calm_of_transaction (fun _ hok => calm_prepare hok)
        (fun e he => transaction_error he) rfl)
    · cases h
  | claim w =>
    simp only [State.next] at h
    split at h
    · cases h
      exact .calm w (calm_of_transaction (fun _ hok => calm_claim hok)
        (fun e he => transaction_error he) rfl)
    · cases h
  | mutate w =>
    simp only [State.next] at h
    split at h
    · rename_i call dispatch hpoint
      cases h
      exact .mutate hpoint
    · cases h
  | mutated w outcome =>
    simp only [State.next] at h
    split at h
    · cases outcome with
      | returned | ambiguous | failed =>
        cases h
        exact .stay w _
    · cases h
  | acknowledge w =>
    simp only [State.next] at h
    split at h
    · cases h
      exact .calm w (calm_of_transaction (fun _ hok => calm_acknowledge hok)
        (fun e he => transaction_error he) rfl)
    · cases h
      exact .calm w (calm_of_transaction (fun _ hok => calm_acknowledge hok)
        (fun e he => transaction_error he) rfl)
    · cases h
  | reconcile w reconciliation =>
    simp only [State.next] at h
    split at h
    · obtain ⟨-, heq⟩ := Option.ite_none_right_eq_some.mp h
      cases heq
      exact .stay w _
    · cases h
  | finalize w receiptId =>
    simp only [State.next] at h
    split at h
    · rename_i dispatch receipt customerAuditRef hpoint
      cases h
      generalize hcalled : finalizeDispatch s.db dispatch receipt customerAuditRef receiptId = called
      obtain ⟨db', result⟩ := called
      cases result with
      | ok result => exact .finalize hpoint hcalled
      | error error =>
        cases transaction_error hcalled
        exact .calm w (Calm.refl _)
    · cases h
  | crash w =>
    cases h
    exact .stay w _
  | deliver actionId =>
    obtain ⟨hflying, heq⟩ := Option.ite_none_right_eq_some.mp h
    obtain ⟨action, hfind, heq⟩ := Option.bind_eq_some_iff.mp heq
    cases heq
    exact .deliver hflying (List.mem_of_find?_eq_some hfind) (by simpa using List.find?_some hfind)
  | lose actionId =>
    cases h
    exact .lose actionId

/-- What an unreleased reservation holds: its target, at the epoch it raised
the target to. -/
structure Targets (db : Database) : Prop where
  one : ∀ r ∈ db.reservations, ∀ r' ∈ db.reservations, r.active = true → r'.active = true →
    r.targetKey = r'.targetKey → r.id = r'.id
  epoch : ∀ r ∈ db.reservations, r.active = true →
    (r.targetKey, r.reservationEpoch) ∈ db.targetEpochs.map targetAt

theorem Targets.calm (h : Targets db) (calm : Calm db db') : Targets db' := by
  constructor
  · intro r₁ hr₁ r₂ hr₂ hactive₁ hactive₂ htarget
    obtain ⟨r, hr, hid, hkey, -, hactive⟩ := calm.reservations r₁ hr₁
    obtain ⟨r', hr', hid', hkey', -, hactive'⟩ := calm.reservations r₂ hr₂
    rw [hid, hid']
    exact h.one r hr r' hr' (hactive hactive₁) (hactive' hactive₂)
      (hkey.symm.trans (htarget.trans hkey'))
  · intro r₁ hr₁ hactive₁
    obtain ⟨r, hr, -, hkey, hepoch, hactive⟩ := calm.reservations r₁ hr₁
    rw [hkey, hepoch, calm.targets]
    exact h.epoch r hr (hactive hactive₁)

/-- A free target is reserved at its next epoch. -/
theorem Targets.reserve {action : ActionRow} {row : ReservationRow} (h : Targets db)
    (target : ∃ t ∈ db.targetEpochs, t.targetKey = action.targetKey ∧
      t.epoch = action.expectedTargetEpoch ∧ t.lastObservedVersion = action.expectedTargetVersion)
    (free : ∀ r ∈ db.reservations, r.targetKey = action.targetKey → r.active = false)
    (key : row.targetKey = action.targetKey)
    (epoch : row.expectedTargetEpoch = action.expectedTargetEpoch) :
    Targets (reserve db action row) := by
  have hother : ∀ r ∈ db.reservations, r.active = true → r.targetKey ≠ action.targetKey := by
    intro r hr hactive htarget
    rw [free r hr htarget] at hactive
    cases hactive
  constructor
  · intro r hr r' hr' hactive hactive' htarget
    rcases List.mem_append.mp hr with hr | hr
    · rcases List.mem_append.mp hr' with hr' | hr'
      · exact h.one r hr r' hr' hactive hactive' htarget
      · cases List.mem_singleton.mp hr'
        exact absurd (htarget.trans key) (hother r hr hactive)
    · cases List.mem_singleton.mp hr
      rcases List.mem_append.mp hr' with hr' | hr'
      · exact absurd (htarget.symm.trans key) (hother r' hr' hactive')
      · cases List.mem_singleton.mp hr'
        rfl
  · intro r hr hactive
    rcases List.mem_append.mp hr with hr | hr
    · obtain ⟨t, ht, hat⟩ := List.mem_map.mp (h.epoch r hr hactive)
      refine List.mem_map.mpr ⟨t, Table.mem_update_of_miss ht ?_, hat⟩
      have : t.targetKey ≠ action.targetKey := by
        simp only [targetAt, Prod.mk.injEq] at hat
        exact hat.1.symm ▸ hother r hr hactive
      simp [this]
    · cases List.mem_singleton.mp hr
      obtain ⟨t, ht, hkey, hepoch, hversion⟩ := target
      refine List.mem_map.mpr ⟨_, Table.mem_update_of_hit ht ?_, ?_⟩
      · simp [hkey, hepoch, hversion]
      · simp [targetAt, hkey, hepoch, key, row.follows, epoch]

theorem targets_released {db : Database} {release : Release} {targets : List TargetEpochRow}
    (h : Targets db) (htargets : targets.map targetAt = db.targetEpochs.map targetAt) :
    Targets (released db reservation release targets) := by
  have hcalm : Targets { db with
      reservations := (released db reservation release targets).reservations } :=
    h.calm (calm_reservations
      (by exact fun _ => ⟨rfl, rfl, rfl, fun h => absurd h (by simp [ReservationRow.active])⟩))
  exact ⟨hcalm.one, fun r hr hactive => htargets ▸ hcalm.epoch r hr hactive⟩

theorem Targets.finalize {customerAuditRef receiptId result : String} (h : Targets db)
    (ok : finalizeDispatch db dispatch receipt customerAuditRef receiptId = (db', .ok result)) :
    Targets db' := by
  obtain ⟨-, -, hsettle⟩ := finalizeDispatch_ok ok
  have hfinal : Targets (settledAction (finalized db dispatch receipt customerAuditRef receiptId)
      receipt) := by
    constructor
    · rw [settledAction_reservations]
      exact h.one
    · rw [settledAction_reservations, settledAction_targetEpochs]
      exact h.epoch
  rcases settleAction_ok hsettle with ⟨-, rfl⟩ | ⟨-, -, targets, why, htargets, rfl⟩
  · exact hfinal
  · refine targets_released hfinal ?_
    rw [settledAction_targetEpochs]
    exact htargets

/-- The targets' invariant survives every move. -/
theorem Targets.move (h : Targets s.db) (move : Move s s') : Targets s'.db := by
  cases move with
  | calm w calm | around calm => exact h.calm calm
  | plan planned =>
    obtain ⟨-, heq⟩ := Option.ite_none_left_eq_some.mp planned
    cases heq
    exact ⟨h.one, h.epoch⟩
  | baseline new =>
    exact ⟨h.one, fun r hr hactive => by
      simpa using Or.inl (List.mem_map.mp (h.epoch r hr hactive))⟩
  | coordinate incident => exact ⟨h.one, h.epoch⟩
  | reserve w mem target free key epoch => exact h.reserve target free key epoch
  | mutate | deliver | lose => exact h
  | finalize point ok => exact h.finalize ok

theorem targets_of_reach (h : (workers hash).Reach s) : Targets s.db := by
  refine h.invariant (I := fun s => Targets s.db) ?_
    (fun s _ s' _ targets move => targets.move (State.next_move move))
  intro s fresh
  constructor
  · simp [fresh.reservations]
  · simp [fresh.reservations]

/-- The attempts of an incident's actions that were executed. -/
def attempts (db : Database) (incidentId : String) : Nat :=
  (db.executionReceipts.filter (fun e =>
    db.actions.any (fun a => a.id == e.actionId && a.incidentId == incidentId))).length

/-- Every incident counts the receipts of its actions, above where it began. -/
def Counted (base : List IncidentRow) (db : Database) : Prop :=
  ∀ i ∈ db.incidents, ∃ i₀ ∈ base, i₀.id = i.id ∧
    i.actionAttemptCount = i₀.actionAttemptCount + attempts db i.id

variable {base : List IncidentRow}

theorem any_actionOf (actions : List ActionRow) (id incidentId : String) :
    actions.any (fun a => a.id == id && a.incidentId == incidentId) =
      (actions.map actionOf).any (fun key => key.1 == id && key.2 == incidentId) := by
  rw [List.any_map]
  rfl

theorem attempts_congr (receipts : db'.executionReceipts = db.executionReceipts)
    (actions : db'.actions.map actionOf = db.actions.map actionOf) (incidentId : String) :
    attempts db' incidentId = attempts db incidentId := by
  simp only [attempts, receipts, any_actionOf, actions]

theorem Counted.calm (h : Counted base db) (calm : Calm db db') : Counted base db' := by
  intro i hi
  rw [attempts_congr calm.receipts calm.actions]
  exact h i (calm.incidents ▸ hi)

/-- A new action has no receipts yet. -/
theorem Counted.plan {action : ActionRow} {phase : String → Phase Token} (h : Counted base db)
    (files : Files db phase) (hplan : planned db action = some db') : Counted base db' := by
  obtain ⟨hnew, heq⟩ := Option.ite_none_left_eq_some.mp hplan
  cases heq
  have hnone : ∀ e ∈ db.executionReceipts, e.actionId ≠ action.id := by
    intro e he haction
    have hf := files.filed action.id
    have hactions : (db.file action.id).actions = [] := by
      rw [Database.file, List.filter_eq_nil_iff]
      intro a ha hid
      exact hnew (List.any_eq_true.mpr ⟨a, ha, hid⟩)
    have hmem : e ∈ (db.file action.id).receipts := List.mem_filter.mpr ⟨he, by simp [haction]⟩
    generalize db.file action.id = f at hf hactions hmem
    generalize phase action.id = p at hf
    cases hf with
    | untouched actions => cases hmem
    | reserved | withdrawn | pending | settled => cases hactions
  intro i hi
  obtain ⟨i₀, hi₀, hid, hcount⟩ := h i hi
  refine ⟨i₀, hi₀, hid, hcount.trans ?_⟩
  simp only [attempts]
  congr 2
  apply List.filter_congr
  intro e he
  have : (action.id == e.actionId) = false := by simpa using Ne.symm (hnone e he)
  simp [this]

theorem Counted.coordinate (h : Counted base db) (incident : IncidentRow) :
    Counted base (coordinated db incident) := by
  have hsame : ∀ id, attempts (coordinated db incident) id = attempts db id :=
    attempts_congr rfl rfl
  intro i hi
  rw [hsame]
  rcases Table.update_cases hi with ⟨i', hi', hit, rfl⟩ | ⟨hi, -⟩
  · obtain ⟨i₀, hi₀, hid, hcount⟩ := h i' hi'
    simp only [Bool.and_eq_true, beq_iff_eq] at hit
    exact ⟨i₀, hi₀, hid.trans hit.1, by rw [← hit.2, ← hit.1]; exact hcount⟩
  · exact h i hi

theorem settledAction_rest (db : Database) (receipt : ExecutionReceiptWrite) :
    (settledAction db receipt).executionReceipts = db.executionReceipts ∧
      (settledAction db receipt).actions.map actionOf = db.actions.map actionOf := by
  obtain ⟨incidents, heq⟩ := countAttempt_eq
    (db.setActionStatus receipt.actionId [.executing] receipt.result.actionStatus) receipt.actionId
  rw [settledAction, heq]
  exact ⟨rfl, (calm_setActionStatus db _ _ _).actions⟩

/-- The incident whose count goes up is the settled action's. -/
theorem settledAction_incidents {a : ActionRow} (ha : a ∈ db.actions)
    (haction : a.id = receipt.actionId) (unique : Table.Unique ActionRow.id db.actions) :
    ∃ (set : IncidentRow → IncidentRow),
      (settledAction db receipt).incidents =
        Table.update (fun i => i.id == a.incidentId) set db.incidents ∧
      ∀ i, (set i).id = i.id ∧ (set i).actionAttemptCount = i.actionAttemptCount + 1 := by
  have hmarked : Table.Unique ActionRow.id
      (db.setActionStatus receipt.actionId [.executing] receipt.result.actionStatus).actions :=
    unique.update (fun _ _ _ => rfl)
  obtain ⟨a', ha', hof⟩ : ∃ a' ∈ (db.setActionStatus receipt.actionId [.executing]
      receipt.result.actionStatus).actions, actionOf a' = actionOf a := by
    have hsame := (calm_setActionStatus db receipt.actionId [.executing]
      receipt.result.actionStatus).actions
    have hmem : actionOf a ∈ db.actions.map actionOf := List.mem_map_of_mem ha
    exact List.mem_map.mp (hsame ▸ hmem)
  simp only [actionOf, Prod.mk.injEq] at hof
  have hfind : (db.setActionStatus receipt.actionId [.executing]
      receipt.result.actionStatus).actions.find? (fun a => a.id == receipt.actionId) = some a' := by
    have := hmarked.find_eq ha'
    rwa [hof.1, haction] at this
  unfold settledAction countAttempt
  rw [hfind, ← hof.2]
  exact ⟨_, rfl, fun i => ⟨rfl, rfl⟩⟩

/-- A new receipt counts for the incident of its action. -/
theorem attempts_receipt {a : ActionRow} {e : ExecutionReceiptRow}
    (receipts : db'.executionReceipts = db.executionReceipts ++ [e])
    (actions : db'.actions.map actionOf = db.actions.map actionOf) (ha : a ∈ db.actions)
    (haction : a.id = e.actionId) (unique : Table.Unique ActionRow.id db.actions)
    (incidentId : String) :
    attempts db' incidentId =
      attempts db incidentId + if incidentId = a.incidentId then 1 else 0 := by
  simp only [attempts, receipts, any_actionOf, actions, List.filter_append, List.length_append]
  simp only [← any_actionOf, Nat.add_left_cancel_iff]
  by_cases hid : incidentId = a.incidentId
  · have hany : db.actions.any (fun a => a.id == e.actionId && a.incidentId == incidentId) = true :=
      List.any_eq_true.mpr ⟨a, ha, by simp [haction, hid]⟩
    subst hid
    simp [hany]
  · have hnone : db.actions.any (fun a => a.id == e.actionId && a.incidentId == incidentId) =
        false := by
      rw [List.any_eq_false]
      intro a' ha' hit
      simp only [Bool.and_eq_true, beq_iff_eq] at hit
      have heq : a' = a := unique.eq_of_key ha' ha (hit.1.trans haction.symm)
      exact hid (heq ▸ hit.2.symm)
    simp [hnone, hid]

theorem Counted.finalize {customerAuditRef receiptId result : String}
    {phase : String → Phase Token} (h : Counted base db) (files : Files db phase)
    (known : dispatch.Known db)
    (ok : finalizeDispatch db dispatch receipt customerAuditRef receiptId = (db', .ok result)) :
    Counted base db' := by
  obtain ⟨haction, ⟨d, hd, hit⟩, hsettle⟩ := finalizeDispatch_ok ok
  obtain ⟨hid, -, hstatus⟩ := finalizable_iff hit
  obtain ⟨-, a, r, o, -⟩ := files.known_row known hd hid hstatus
  obtain ⟨⟨ha, haid⟩, -, -⟩ := o.mem
  have hreceipt : a.id = receipt.actionId := haid.trans haction.symm
  have hsettled := settledAction_incidents
    (show a ∈ (finalized db dispatch receipt customerAuditRef receiptId).actions from ha) hreceipt
    files.keys.actions
  obtain ⟨set, hincidents, hset⟩ := hsettled
  have hdb' : db'.incidents =
        (settledAction (finalized db dispatch receipt customerAuditRef receiptId) receipt).incidents ∧
      db'.executionReceipts = db.executionReceipts ++ [{ receipt with id := receiptId }] ∧
      db'.actions.map actionOf = db.actions.map actionOf := by
    obtain ⟨hreceipts, hactions⟩ := settledAction_rest
      (finalized db dispatch receipt customerAuditRef receiptId) receipt
    rcases settleAction_ok hsettle with ⟨-, rfl⟩ | ⟨-, -, targets, why, -, rfl⟩
    · exact ⟨rfl, hreceipts, hactions⟩
    · exact ⟨rfl, hreceipts, hactions⟩
  obtain ⟨hincidents', hreceipts, hactions⟩ := hdb'
  intro i hi
  rw [attempts_receipt hreceipts hactions ha hreceipt files.keys.actions]
  rw [hincidents', hincidents] at hi
  rcases Table.update_cases hi with ⟨i', hi', hhit, rfl⟩ | ⟨hi, hmiss⟩
  · obtain ⟨i₀, hi₀, hid₀, hcount⟩ := h i' hi'
    have hof : i'.id = a.incidentId := by simpa using hhit
    refine ⟨i₀, hi₀, hid₀.trans (hset i').1.symm, ?_⟩
    rw [(hset i').2, (hset i').1, if_pos hof]
    omega
  · obtain ⟨i₀, hi₀, hid₀, hcount⟩ := h i hi
    have hof : i.id ≠ a.incidentId := by simpa using hmiss
    exact ⟨i₀, hi₀, hid₀, by rw [if_neg hof]; exact hcount⟩

theorem Counted.move {A : Protocol} (h : Counted base s.db) (follows : Follows s A)
    (move : Move s s') : Counted base s'.db := by
  cases move with
  | calm w calm | around calm => exact h.calm calm
  | plan planned => exact h.plan follows.files planned
  | baseline | mutate | deliver | lose | reserve => exact h
  | coordinate incident => exact h.coordinate incident
  | finalize point ok => exact h.finalize follows.files (follows.known_dispatch point id) ok

/-- A run's counts, above those it began with. -/
theorem counted_of_path {s₀ : State} {events : List Event} (fresh : s₀.Fresh)
    (h : (workers hash).Path s₀ events s) : Counted s₀.db.incidents s.db := by
  have hall := h.keeps (P := fun s => (workers hash).Reach s ∧ Counted s₀.db.incidents s.db)
    (fun s _ s' hs move => ?_) ⟨.start fresh, ?_⟩
  · exact hall.2
  · obtain ⟨A, -, follows⟩ := exists_follows hs.1
    exact ⟨hs.1.step move, hs.2.move follows (State.next_move move)⟩
  · intro i hi
    exact ⟨i, hi, rfl, by simp [attempts, fresh.executionReceipts]⟩

/-- What a worker has when it calls `mutate`: its dispatch is issued under its
own token, unless the lease it was issued under has lapsed. -/
def Mutation.Fenced (m : Mutation) : Prop :=
  (∃ d ∈ m.before.dispatches, d.actionId = m.actionId ∧
    d.status = .outstanding .mutationIssued ∧ d.leaseToken = m.leaseToken) ∨
  m.leaseExpiresAt < m.before.now

theorem Follows.fenced {A : Protocol} {call : Call} (h : Follows s A) (sound : Sound A)
    (hpoint : s.points w = .mutating call dispatch) : (Mutation.of s.db dispatch).Fenced := by
  have holds : A.hand w =
      .sending dispatch.material.id ⟨dispatch.leaseToken, dispatch.reservation.expiresAt⟩ := by
    rw [h.hand w, hpoint]
    rfl
  rcases sound.sending holds with hp | ⟨-, lapsed⟩
  · obtain ⟨a, r, d, ph, o⟩ := h.files.outstanding hp
    obtain ⟨-, -, hd, haction⟩ := o.mem
    have hissued : ph = .mutationIssued := by
      have := o.stage
      cases ph <;> simp [DispatchPhase.stage] at this ⊢
    have hlease := congrArg Lease.token o.lease
    exact .inl ⟨d, hd, haction, hissued ▸ o.status, hlease⟩
  · exact .inr (h.now ▸ lapsed)

theorem fenced_of_reach (h : (workers hash).Reach s) : ∀ m ∈ s.mutations, m.Fenced := by
  refine h.invariant (I := fun s => ∀ m ∈ s.mutations, m.Fenced) ?_ ?_
  · intro s fresh
    simp [fresh.mutations]
  · intro s _ s' hs fenced move
    obtain ⟨A, hA, follows⟩ := exists_follows hs
    cases State.next_move move with
    | mutate point =>
      intro m hm
      rcases List.mem_cons.mp hm with rfl | hm
      · exact follows.fenced (sound_of_reach hA) point
      · exact fenced m hm
    | _ => exact fenced

/-- However the workers of any actions interleave, crash and are taken over
from: each action is mutated at most once, under the token its dispatch was
issued under unless that lease has lapsed; an unreleased reservation has its
target to itself, at the epoch it raised it to; and every action has at most
one receipt, which its incident counts once. -/
theorem at_most_one_mutation {s₀ : State} {events : List Event} (fresh : s₀.Fresh)
    (h : (workers hash).Path s₀ events s) :
    ((s.mutations.map Mutation.actionId).Nodup ∧ ∀ m ∈ s.mutations, m.Fenced) ∧
    ((∀ r ∈ s.db.reservations, ∀ r' ∈ s.db.reservations, r.active = true → r'.active = true →
        r.targetKey = r'.targetKey → r = r') ∧
      ∀ r ∈ s.db.reservations, r.active = true →
        (Table.find TargetEpochRow.targetKey r.targetKey s.db.targetEpochs).map TargetEpochRow.epoch =
          some r.reservationEpoch) ∧
    ((∀ id, (s.db.executionReceipts.filter (fun e => e.actionId == id)).length ≤ 1) ∧
      Counted s₀.db.incidents s.db) := by
  have hr := h.reach (.start fresh)
  obtain ⟨A, hA, follows⟩ := exists_follows hr
  have sound := sound_of_reach hA
  have targets := targets_of_reach hr
  refine ⟨⟨follows.sent ▸ sound.sentOnce, fenced_of_reach hr⟩, ⟨?_, ?_⟩, ?_, counted_of_path fresh h⟩
  · intro r hr r' hr' hactive hactive' htarget
    exact follows.files.keys.reservations.eq_of_key hr hr'
      (targets.one r hr r' hr' hactive hactive' htarget)
  · intro r hr hactive
    obtain ⟨t, ht, hat⟩ := List.mem_map.mp (targets.epoch r hr hactive)
    simp only [targetAt, Prod.mk.injEq] at hat
    rw [← hat.1, follows.files.keys.targets.find_eq ht]
    exact congrArg some hat.2
  · intro id
    exact (follows.files.filed id).lengths.2.2

/-! One worker claims the recycling of a pool and stalls. Its lease lapses, and
another worker takes the dispatch over. -/

def poolAction : ActionRow where
  id := "act_1"
  displayId := "ACT-0001"
  incidentId := "inc_1"
  workflowVersion := 5
  evidenceVersion := 3
  actionType := .paymentsPoolRecycle
  normalizedSignature := "sha256:signature"
  targetKey := "payments-api/connection-pool"
  expectedTargetVersion := "generation-7"
  expectedTargetEpoch := 1
  payload := [("admin_operation", .str "RECYCLE_DB_POOL"), ("drain_timeout_ms", .int 5000)]
  payloadDigest := "sha256:payload"
  expectedEffect := ⟨[("connections", .int 0)], "connections"⟩
  riskClass := .medium
  reversible := false
  rollbackPlan := []
  verificationProfileId := "vpf_1"
  verificationProfileVersion := 1
  policyDecisionId := "pol_1"
  proposerPrincipal := "coordinator"
  standingPreauthorization := none
  requiresApproval := true
  status := .authorized
  idempotencyKey := "pool-recycle:inc_1"
  expiresAt := milliseconds 3600000

def poolIncident : IncidentRow where
  id := "inc_1"
  workflowVersion := 5
  evidenceVersion := 3
  state := .mitigating
  incidentClass := "DB_CONNECTION_EXHAUSTION"
  primaryServiceId := "svc_payments"
  reliabilityCaseId := none
  productionGraphSnapshotId := "pgs_1"
  actionAttemptCount := 0
  actionBudget := 2
  cooldownUntil := none
  suspectedRootCauseId := some "hyp_1"
  confirmedRootCauseId := some "hyp_1"
  lease := none

def poolState : State where
  db :=
    { now := 0
      actions := [poolAction]
      incidents := [poolIncident]
      standingPreauthorizations := []
      targetEpochs := [⟨"payments-api/connection-pool", 1, "generation-7"⟩]
      registrations := [⟨"atr_1", .active, .remediate, true, false, some "sha256:policy", some "sink"⟩]
      agentRuns := [⟨"run_1", "inv_1", "execution-agent", some "act_1", 5, .dispatched,
        milliseconds 3600000⟩]
      reservations := []
      dispatches := []
      effectReceipts := []
      executionReceipts := [] }
  points _ := .idle
  tokens := 0
  mutations := []
  inFlight := []
  effects := []

theorem poolState_fresh : poolState.Fresh := by
  constructor <;> simp [poolState, Table.Unique]

/-- Stands for a content hash. -/
def firstField : Json → String
  | .obj ((name, _) :: _) => name
  | _ => ""

def poolCall : Call := ⟨⟨"atr_1", "actuator", 30000⟩, "act_1", none⟩

def poolClaimed : List Event :=
  [.execute 0 poolCall, .recover 0, .acquire 0 "res_1", .authorize 0 (.ok ()),
    .observe 0 (.ok ⟨"obs_1", "generation-7"⟩),
    .dryRun 0 (.ok ⟨[("connections", .int 0)], "rev_1"⟩), .gate 0 (.ok ()), .undo 0 (.ok ()),
    .prepare 0 "dis_1" "efr_1", .claim 0]

def poolTakenOver : List Event :=
  poolClaimed ++ [.tick 60000000, .execute 1 poolCall, .recover 1, .acknowledge 1]

theorem mutated_after_takeover : ∃ s, (workers firstField).Reach s ∧
    s.mutations.any (fun m => !m.before.dispatches.any (fun d => d.actionId == m.actionId &&
      d.status == .outstanding .mutationIssued && d.leaseToken == m.leaseToken)) = true := by
  refine Machine.exists_reach (poolTakenOver ++ [.mutate 0]) poolState_fresh ?_
  decide +kernel

theorem at_most_one_mutation_pool : ∃ s,
    (workers firstField).Path poolState (poolTakenOver ++ [.mutate 0]) s ∧
      (s.mutations.length == 1) = true ∧ ∀ m ∈ s.mutations, m.Fenced := by
  obtain ⟨s, path, hone⟩ :=
    (Machine.exists_path (by decide +kernel) : ∃ s,
      (workers firstField).Path poolState (poolTakenOver ++ [.mutate 0]) s ∧
        (s.mutations.length == 1) = true)
  exact ⟨s, path, hone, (at_most_one_mutation poolState_fresh path).1.2⟩

end Solvan.Actuator
