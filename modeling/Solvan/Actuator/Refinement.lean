import Solvan.Actuator.File
import Solvan.Domain.ActionPolicy

namespace Solvan.Actuator
open Domain (ok_of_bind)
open Fencing (Verdict Stage Lease Phase)
open Mitigation (TargetEpochRow)
open Workflow (ActionRow ActionStatus IncidentRow)

variable {db db' : Database} {actionId id : String} {phase : String → Phase Token} {a : ActionRow}
  {r : ReservationRow} {d : DispatchRow} {f : File} {p : Phase Token} {from_ : List ActionStatus}
  {status : ActionStatus}

/-- The files of a database say how far each action is. -/
structure Files (db : Database) (phase : String → Phase Token) : Prop where
  keys : Keys db
  filed : ∀ id, Filed (db.file id) (phase id)

/-- The file of one action changes, and with it how far the action is. -/
theorem Files.update (h : Files db phase) (keys : Keys db') (self : Filed (db'.file id) p)
    (other : ∀ id', id' ≠ id → db'.file id' = db.file id') :
    Files db' (Function.update phase id p) := by
  refine ⟨keys, fun id' => ?_⟩
  by_cases hid : id' = id
  · subst hid
    simpa only [Function.update_self] using self
  · simpa only [Function.update_of_ne hid, other id' hid] using h.filed id'

/-- The rows of an action whose target is reserved and not yet dispatched. -/
theorem Files.reserved {token : Token} (h : Files db phase) (hp : phase id = .reserved token) :
    ∃ a r, db.file id = ⟨[a], [r], [], []⟩ ∧ r.active = true ∧ r.leaseToken = token ∧
      r.targetKey = a.targetKey ∧
      (a.status = .authorized ∨ a.status = .executing ∨ a.status = .invalidated) := by
  have hf := h.filed id
  generalize db.file id = f at hf ⊢
  rw [hp] at hf
  cases hf with
  | @reserved a r open_ target status => exact ⟨a, r, rfl, open_, rfl, target, status⟩

/-- The rows of an action that is dispatched and not settled. -/
structure Outstanding (db : Database) (id : String) (stage : Stage) (lease : Lease Token)
    (a : ActionRow) (r : ReservationRow) (d : DispatchRow) (phase : DispatchPhase) : Prop where
  file : db.file id = ⟨[a], [r], [d], []⟩
  active : r.active = true
  target : r.targetKey = a.targetKey
  executing : a.status = .executing
  reservation : d.reservationId = r.id
  status : d.status = .outstanding phase
  stage : phase.stage = stage
  lease : ⟨d.leaseToken, d.leaseExpiresAt⟩ = lease

theorem Files.outstanding {stage : Stage} {lease : Lease Token} (h : Files db phase)
    (hp : phase id = .pending stage lease) :
    ∃ a r d ph, Outstanding db id stage lease a r d ph := by
  have hf := h.filed id
  generalize hfile : db.file id = f at hf
  rw [hp] at hf
  cases hf with
  | @pending a r d ph open_ target status reservation outstanding =>
    exact ⟨a, r, d, ph, hfile, open_, target, status, reservation, outstanding, rfl, rfl⟩

/-- A dispatch that is not settled says how far its action is. -/
theorem Files.phase_of_outstanding {ph : DispatchPhase} (h : Files db phase)
    (hd : d ∈ db.dispatches) (hs : d.status = .outstanding ph) :
    phase d.actionId = .pending ph.stage ⟨d.leaseToken, d.leaseExpiresAt⟩ := by
  have hf := h.filed d.actionId
  have heq := hf.dispatch_eq hd
  generalize hfile : db.file d.actionId = f at hf heq
  generalize hphase : phase d.actionId = p at hf
  cases hf with
  | untouched | reserved | withdrawn => cases heq
  | @pending a r d' ph' open_ target status reservation outstanding =>
    cases heq
    cases outstanding.symm.trans hs
    rfl
  | @settled a r d' e held target status reservation terminal =>
    cases heq
    have := terminal.symm.trans hs
    cases he : e.result <;> simp [he, ExecutionResult.terminal] at this

theorem file_setActionStatus (db : Database) (actionId : String) (from_ : List ActionStatus)
    (status : ActionStatus) (id : String) :
    (db.setActionStatus actionId from_ status).file id = { db.file id with
      actions := Table.update (fun a => a.id == actionId && from_.contains a.status)
        (fun a => { a with status }) (db.file id).actions } := by
  simp only [Database.file, Database.setActionStatus]
  rw [Table.filter_update (f := fun a : ActionRow => { a with status }) (fun _ _ _ => rfl)]

/-- A status change that no reserved or dispatched action is in for. -/
theorem Filed.setStatus {actionId : String} (h : Filed f p)
    (early : ∀ st ∈ from_, st = .awaitingApproval ∨ st = .authorized)
    (kept : status = .authorized ∨ status = .executing ∨ status = .invalidated) :
    Filed { f with
      actions := Table.update (fun a => a.id == actionId && from_.contains a.status)
        (fun a => { a with status }) f.actions } p := by
  have miss : ∀ a : ActionRow, a.status ≠ .awaitingApproval → a.status ≠ .authorized →
      (a.id == actionId && from_.contains a.status) = false := by
    intro a hw ha
    have hout : a.status ∉ from_ := by
      intro hm
      rcases early _ hm with h | h
      · exact hw h
      · exact ha h
    simp [hout]
  cases h with
  | untouched actions => exact .untouched _
  | @reserved a r open_ target hstatus =>
    simp only [Table.update, List.map_cons, List.map_nil]
    split
    · exact .reserved open_ target kept
    · exact .reserved open_ target hstatus
  | @withdrawn a r closed hstatus =>
    have := miss a (by rcases hstatus with h | h <;> simp [h]) (by rcases hstatus with h | h <;> simp [h])
    simp only [Table.update, List.map_cons, List.map_nil, this]
    exact .withdrawn closed hstatus
  | @pending a r d phase open_ target hstatus reservation outstanding =>
    have := miss a (by simp [hstatus]) (by simp [hstatus])
    simp only [Table.update, List.map_cons, List.map_nil, this]
    exact .pending open_ target hstatus reservation outstanding
  | @settled a r d e held target hstatus reservation terminal =>
    have := miss a (by cases h : e.result <;> simp [hstatus, h, ExecutionResult.actionStatus])
      (by cases h : e.result <;> simp [hstatus, h, ExecutionResult.actionStatus])
    simp only [Table.update, List.map_cons, List.map_nil, this]
    exact .settled held target hstatus reservation terminal

theorem Keys.setActionStatus (h : Keys db) : Keys (db.setActionStatus actionId from_ status) :=
  { h with actions := h.actions.update (fun _ _ _ => rfl) }

theorem Files.setActionStatus (h : Files db phase)
    (early : ∀ st ∈ from_, st = .awaitingApproval ∨ st = .authorized)
    (kept : status = .authorized ∨ status = .executing ∨ status = .invalidated) :
    Files (db.setActionStatus actionId from_ status) phase := by
  refine ⟨h.keys.setActionStatus, fun id => ?_⟩
  rw [file_setActionStatus]
  exact (h.filed id).setStatus early kept

/-- The two ways a call for a reservation can end. -/
theorem acquireReservation_cases {owner reservationId : String} {ttlMs : Nat} {token : Token}
    {result : Except ExecutionError TargetReservation}
    (h : acquireReservation db actionId owner ttlMs reservationId token = (db', result)) :
    (∃ error, result = .error error ∧
      (db' = db ∨ db' = db.setActionStatus actionId [.authorized] .invalidated)) ∨
    ∃ action ∈ db.actions, action.id = actionId ∧ action.status = .authorized ∧
      (∃ target ∈ db.targetEpochs, target.targetKey = action.targetKey ∧
        target.epoch = action.expectedTargetEpoch ∧
        target.lastObservedVersion = action.expectedTargetVersion) ∧
      (∀ r ∈ db.reservations, r.id ≠ reservationId ∧
        (r.targetKey = action.targetKey → r.active = false)) ∧
      db' = reserve db action (newReservation db action owner ttlMs reservationId token) ∧
      result = .ok (newReservation db action owner ttlMs reservationId token).handle := by
  unfold acquireReservation at h
  split at h
  · cases h
    exact .inl ⟨_, rfl, .inl rfl⟩
  · split at h
    · cases h
      exact .inl ⟨_, rfl, .inl rfl⟩
    · rename_i action hfind
      split at h
      · cases h
        exact .inl ⟨_, rfl, .inl rfl⟩
      · rename_i hstatus
        split at h
        · cases h
          exact .inl ⟨_, rfl, .inl rfl⟩
        · rename_i target htarget
          split at h
          · cases h
            exact .inl ⟨_, rfl, .inr rfl⟩
          · rename_i hepoch
            split at h
            · cases h
              exact .inl ⟨_, rfl, .inr rfl⟩
            · rename_i hversion
              split at h
              · cases h
                exact .inl ⟨_, rfl, .inl rfl⟩
              · rename_i hfree
                cases h
                have hid := List.find?_some hfind
                simp only [Bool.and_eq_true, beq_iff_eq] at hid
                refine .inr ⟨action, List.mem_of_find?_eq_some hfind, hid.1, not_not.mp hstatus,
                  ⟨target, List.mem_of_find?_eq_some htarget, by simpa using List.find?_some htarget,
                    not_not.mp hepoch, not_not.mp hversion⟩, ?_, rfl, rfl⟩
                intro r hr
                have := List.any_eq_false.mp (Bool.not_eq_true _ ▸ hfree) r hr
                simpa [not_or] using this

/-- An authorized action whose target is free has reserved nothing yet. -/
theorem Files.untouched (h : Files db phase) (ha : a ∈ db.actions) (hs : a.status = .authorized)
    (free : ∀ r ∈ db.reservations, r.targetKey = a.targetKey → r.active = false) :
    phase a.id = .untouched ∧ db.file a.id = ⟨[a], [], [], []⟩ := by
  have hf := h.filed a.id
  have hmem : a ∈ (db.file a.id).actions := List.mem_filter.mpr ⟨ha, by simp⟩
  have hres : ∀ r ∈ (db.file a.id).reservations, r.targetKey = a.targetKey → r.active = false :=
    fun r hr => free r (List.mem_filter.mp hr).1
  have hlen : (db.file a.id).actions.length ≤ 1 := h.keys.actions.filter_length a.id
  generalize hfile : db.file a.id = f at hf hmem hres hlen ⊢
  generalize hphase : phase a.id = p at hf ⊢
  cases hf with
  | untouched actions =>
    have hone : actions = [a] := eq_singleton hmem hlen
    simp [hone]
  | @reserved a' r open_ target status =>
    cases List.mem_singleton.mp hmem
    have := hres r (by simp) target
    simp [open_] at this
  | @withdrawn a' r closed status =>
    cases List.mem_singleton.mp hmem
    simp [hs] at status
  | @pending a' r d ph open_ target status reservation outstanding =>
    cases List.mem_singleton.mp hmem
    simp [hs] at status
  | @settled a' r d e held target status reservation terminal =>
    cases List.mem_singleton.mp hmem
    rw [hs] at status
    cases he : e.result <;> simp [he, ExecutionResult.actionStatus] at status

theorem Keys.reserve {row : ReservationRow} (h : Keys db)
    (hid : ∀ r ∈ db.reservations, r.id ≠ row.id) : Keys (reserve db a row) :=
  { h with
    targets := h.targets.update (fun _ _ _ => rfl)
    reservations := h.reservations.append hid }

theorem Files.reserve (h : Files db phase) (row : ReservationRow) (ha : a ∈ db.actions)
    (hs : a.status = .authorized) (hr : row.actionId = a.id ∧ row.targetKey = a.targetKey)
    (open_ : row.active = true)
    (free : ∀ r ∈ db.reservations, r.id ≠ row.id ∧
      (r.targetKey = a.targetKey → r.active = false)) :
    Files (reserve db a row) (Function.update phase a.id (.reserved row.leaseToken)) := by
  have hfile := (h.untouched ha hs (fun r hm => (free r hm).2)).2
  refine h.update (h.keys.reserve (fun r hm => (free r hm).1)) ?_ ?_
  · have : (Actuator.reserve db a row).file a.id = ⟨[a], [row], [], []⟩ := by
      simp only [Database.file, File.mk.injEq] at hfile
      simp [Database.file, Actuator.reserve, List.filter_append, hfile, hr.1]
    rw [this]
    exact .reserved open_ hr.2 (.inl hs)
  · intro id' hne
    have : (row.actionId == id') = false := by simpa [hr.1] using Ne.symm hne
    simp [Database.file, Actuator.reserve, List.filter_append, this]

theorem file_setActionStatus_other {actionId id : String} (hne : id ≠ actionId) :
    (db.setActionStatus actionId from_ status).file id = db.file id := by
  rw [file_setActionStatus]
  have : Table.update (fun a => a.id == actionId && from_.contains a.status)
      (fun a => { a with status }) (db.file id).actions = (db.file id).actions := by
    apply Table.update_of_no_hit
    intro a ha
    have hid : a.id = id := by simpa using (List.mem_filter.mp ha).2
    simp [hid, hne]
  rw [this]

theorem file_updateReservations (db : Database) (hit : ReservationRow → Bool)
    {set : ReservationRow → ReservationRow} (hset : ∀ r, (set r).actionId = r.actionId)
    (id : String) :
    ({ db with reservations := Table.update hit set db.reservations } : Database).file id =
      { db.file id with reservations := Table.update hit set (db.file id).reservations } := by
  simp only [Database.file]
  rw [Table.filter_update (fun r _ _ => by rw [hset r])]

theorem file_updateReservations_other {hit : ReservationRow → Bool}
    {set : ReservationRow → ReservationRow} {job : String}
    (hset : ∀ r, (set r).actionId = r.actionId)
    (only : ∀ r ∈ db.reservations, hit r = true → r.actionId = job) (hne : id ≠ job) :
    ({ db with reservations := Table.update hit set db.reservations } : Database).file id =
      db.file id := by
  rw [file_updateReservations db hit hset]
  have : Table.update hit set (db.file id).reservations = (db.file id).reservations := by
    apply Table.update_of_no_hit
    intro r hr
    obtain ⟨hr, hid⟩ := List.mem_filter.mp hr
    cases hp : hit r with
    | false => rfl
    | true => exact absurd ((by simpa using hid : r.actionId = id).symm.trans (only r hr hp)) hne
  rw [this]

theorem file_updateDispatches (db : Database) (hit : DispatchRow → Bool)
    {set : DispatchRow → DispatchRow} (hset : ∀ d, (set d).actionId = d.actionId) (id : String) :
    ({ db with dispatches := Table.update hit set db.dispatches } : Database).file id =
      { db.file id with dispatches := Table.update hit set (db.file id).dispatches } := by
  simp only [Database.file]
  rw [Table.filter_update (fun d _ _ => by rw [hset d])]

theorem file_updateDispatches_other {hit : DispatchRow → Bool} {set : DispatchRow → DispatchRow}
    {job : String} (hset : ∀ d, (set d).actionId = d.actionId)
    (only : ∀ d ∈ db.dispatches, hit d = true → d.actionId = job) (hne : id ≠ job) :
    ({ db with dispatches := Table.update hit set db.dispatches } : Database).file id =
      db.file id := by
  rw [file_updateDispatches db hit hset]
  have : Table.update hit set (db.file id).dispatches = (db.file id).dispatches := by
    apply Table.update_of_no_hit
    intro d hd
    obtain ⟨hd, hid⟩ := List.mem_filter.mp hd
    cases hp : hit d with
    | false => rfl
    | true => exact absurd ((by simpa using hid : d.actionId = id).symm.trans (only d hd hp)) hne
  rw [this]

/-- An extended lease changes no file's account. -/
theorem Filed.extended {hit : ReservationRow → Bool} {until_ : Int} (h : Filed f p) :
    Filed { f with
      reservations := Table.update hit (fun r => { r with expiresAt := until_ }) f.reservations } p := by
  have hone : ∀ r : ReservationRow, ∃ r' : ReservationRow,
      Table.update hit (fun r => { r with expiresAt := until_ }) [r] = [r'] ∧
        r'.id = r.id ∧ r'.targetKey = r.targetKey ∧ r'.leaseToken = r.leaseToken ∧
        r'.active = r.active := by
    intro r
    cases hp : hit r with
    | true => exact ⟨{ r with expiresAt := until_ }, by simp [Table.update, hp], rfl, rfl, rfl, rfl⟩
    | false => exact ⟨r, by simp [Table.update, hp], rfl, rfl, rfl, rfl⟩
  cases h with
  | untouched actions => exact .untouched actions
  | @reserved a r open_ target status =>
    obtain ⟨r', heq, -, htarget, htoken, hactive⟩ := hone r
    rw [heq, ← htoken]
    exact .reserved (hactive.trans open_) (htarget.trans target) status
  | @withdrawn a r closed status =>
    obtain ⟨r', heq, -, -, -, hactive⟩ := hone r
    rw [heq]
    exact .withdrawn (hactive.trans closed) status
  | @pending a r d ph open_ target status reservation outstanding =>
    obtain ⟨r', heq, hid, htarget, -, hactive⟩ := hone r
    rw [heq]
    exact .pending (hactive.trans open_) (htarget.trans target) status
      (reservation.trans hid.symm) outstanding
  | @settled a r d e held target status reservation terminal =>
    obtain ⟨r', heq, hid, htarget, -, hactive⟩ := hone r
    rw [heq]
    exact .settled (hactive.trans held) (htarget.trans target) status
      (reservation.trans hid.symm) terminal

theorem file_extended (db : Database) (reservation : TargetReservation) (ttlMs : Nat) (id : String) :
    (extended db reservation ttlMs).file id = { db.file id with
      reservations := Table.update (ReservationRow.ownedBy reservation)
        (fun r => { r with expiresAt := ttl db ttlMs }) (db.file id).reservations } :=
  file_updateReservations db _ (by exact fun _ => rfl) id

theorem Files.extended (h : Files db phase) (reservation : TargetReservation) (ttlMs : Nat) :
    Files (extended db reservation ttlMs) phase := by
  refine ⟨{ h.keys with reservations := h.keys.reservations.update (fun _ _ _ => rfl) },
    fun id => ?_⟩
  rw [file_extended]
  exact (h.filed id).extended

theorem transaction_ok {α : Type} {body : Except ExecutionError (Database × α)} {value : α}
    (h : transaction db body = (db', .ok value)) : body = .ok (db', value) := by
  unfold transaction at h
  split at h
  · cases h
    rfl
  · cases h

theorem transaction_error {α : Type} {body : Except ExecutionError (Database × α)}
    {error : ExecutionError} (h : transaction db body = (db', .error error)) : db' = db := by
  unfold transaction at h
  split at h
  · cases h
  · cases h
    rfl

theorem check_ok {ok : Bool} {error : ExecutionError} {u : Unit} (h : check ok error = .ok u) :
    ok = true := by
  unfold check at h
  split at h
  · assumption
  · cases h

theorem releasable_action {reservation : TargetReservation}
    (h : releasable db reservation r = true) :
    r.id = reservation.reservationId ∧ r.actionId = reservation.actionId := by
  simp only [releasable, Bool.and_eq_true, beq_iff_eq] at h
  exact ⟨h.1.1.1.1, h.1.1.1.2⟩

theorem releaseBeforeMutation_ok {reservation : TargetReservation} {reason : ReleaseReason}
    {u : Unit} (h : releaseBeforeMutation db reservation reason = (db', .ok u)) :
    (∃ r ∈ db.reservations, releasable db reservation r = true) ∧
    db' = Database.setActionStatus
      { db with
        reservations := Table.update (releasable db reservation)
          (fun r => { r with release := some ⟨db.now, reason.value⟩ }) db.reservations }
      reservation.actionId [.authorized, .executing] reason.actionStatus := by
  unfold releaseBeforeMutation at h
  split at h
  · rename_i hany
    cases h
    exact ⟨List.any_eq_true.mp hany, rfl⟩
  · cases h

theorem releaseBeforeMutation_error {reservation : TargetReservation} {reason : ReleaseReason}
    {error : ExecutionError} (h : releaseBeforeMutation db reservation reason = (db', .error error)) :
    db' = db := by
  unfold releaseBeforeMutation at h
  split at h
  · cases h
  · cases h
    rfl

/-- A reservation released before the mutation. -/
theorem Files.release {reservation : TargetReservation} {reason : ReleaseReason} {u : Unit}
    {token : Token} (h : Files db phase) (hp : phase reservation.actionId = .reserved token)
    (ok : releaseBeforeMutation db reservation reason = (db', .ok u)) :
    Files db' (Function.update phase reservation.actionId .withdrawn) := by
  obtain ⟨⟨r', hr', hit⟩, rfl⟩ := releaseBeforeMutation_ok ok
  obtain ⟨a, r, hfile, open_, -, -, status⟩ := h.reserved hp
  have heq : r' = r := by
    have hm : r' ∈ (db.file reservation.actionId).reservations :=
      List.mem_filter.mpr ⟨hr', by simp [(releasable_action hit).2]⟩
    simpa [hfile] using hm
  subst heq
  have haid : a.id = reservation.actionId := by
    have hm : a ∈ (db.file reservation.actionId).actions := by simp [hfile]
    simpa using (List.mem_filter.mp hm).2
  refine h.update (Keys.setActionStatus { h.keys with
      reservations := h.keys.reservations.update (fun _ _ _ => rfl) }) ?_ ?_
  · rw [file_setActionStatus, file_updateReservations db _ (by exact fun _ => rfl), hfile]
    simp only [Table.update, List.map_cons, List.map_nil, hit, if_true]
    refine .withdrawn rfl ?_
    rcases status with hs | hs | hs
    · cases reason <;> simp [haid, hs, ReleaseReason.actionStatus]
    · cases reason <;> simp [haid, hs, ReleaseReason.actionStatus]
    · simp [hs]
  · intro id' hne
    rw [file_setActionStatus_other hne]
    exact file_updateReservations_other (fun _ => rfl)
      (fun r _ hr => (releasable_action hr).2) hne

theorem extendReservation_ok {reservation : TargetReservation} {ttlMs : Nat} {message : String}
    (h : extendReservation db reservation ttlMs message = .ok db') :
    db.reservations.any (ReservationRow.ownedBy reservation) = true ∧
      db' = extended db reservation ttlMs := by
  unfold extendReservation at h
  split at h
  · rename_i hany
    cases h
    exact ⟨hany, rfl⟩
  · cases h

theorem authorityRow_some {reservation : TargetReservation} {status : ActionStatus}
    (h : authorityRow db reservation status = some a) :
    a ∈ db.actions ∧ a.id = reservation.actionId ∧ a.status = status ∧
      ∃ r ∈ db.reservations, r.actionId = a.id ∧ r.id = reservation.reservationId ∧
        r.leaseToken = reservation.leaseToken ∧ r.active = true := by
  have hm := List.mem_of_find?_eq_some h
  have hp := List.find?_some h
  simp only [Bool.and_eq_true, beq_iff_eq, List.any_eq_true] at hp
  obtain ⟨⟨⟨⟨hid, hstatus⟩, -⟩, -⟩, r, hr, ⟨⟨⟨⟨hraction, hrid⟩, -⟩, htoken⟩, hactive⟩, -⟩ := hp
  exact ⟨hm, hid, hstatus, r, hr, hraction, hrid, htoken, hactive⟩

theorem loadApprovalAuthority_ok {reservation : TargetReservation} {status : ActionStatus}
    {verdict : Except ExecutionError Unit}
    (h : loadApprovalAuthority db reservation status verdict = .ok a) :
    authorityRow db reservation status = some a := by
  unfold loadApprovalAuthority at h
  split at h
  · cases h
  · rename_i action hrow
    obtain ⟨_, -, h⟩ := ok_of_bind h
    cases h
    exact hrow

theorem authorizeForExecution_ok {reservation : TargetReservation}
    {verdict : Except ExecutionError Unit}
    (h : authorizeForExecution db reservation verdict = (db', .ok a)) :
    authorityRow db reservation .authorized = some a ∧
      db' = db.setActionStatus reservation.actionId [.authorized] .executing := by
  obtain ⟨material, hload, h⟩ := ok_of_bind (transaction_ok h)
  cases h
  exact ⟨loadApprovalAuthority_ok hload, rfl⟩

variable {hash : Json → String} {reservation : TargetReservation} {material : ActionRow}
  {actuatorId owner dispatchId effectReceiptId : String} {before : TargetObservation}
  {prediction : PredictedEffect} {traceId : Option String} {ttlMs : Nat} {token : Token}
  {dispatch dispatch' : ActuatorDispatch}

/-- What a prepared dispatch was prepared from. -/
theorem prepareDispatch_ok (h : prepareDispatch hash db reservation material actuatorId owner before
      prediction traceId ttlMs dispatchId effectReceiptId token = (db', .ok dispatch)) :
    ∃ (d : DispatchRow) (e : EffectReceiptRow), material.id = reservation.actionId ∧
      (∃ r ∈ db.reservations, r.ownedBy reservation = true ∧ r.actionId = reservation.actionId) ∧
      (∀ d' ∈ db.dispatches, d'.id ≠ d.id) ∧
      d.id = dispatchId ∧ d.actionId = reservation.actionId ∧
      d.reservationId = reservation.reservationId ∧ d.leaseToken = token ∧
      d.status = .outstanding .prepared ∧
      db' = extended { db with
        dispatches := db.dispatches ++ [d]
        effectReceipts := db.effectReceipts ++ [e] } reservation ttlMs ∧
      dispatch.dispatchId = d.id ∧ dispatch.material = material ∧ dispatch.leaseToken = token ∧
      dispatch.reservation = { reservation with expiresAt := ttl db ttlMs } := by
  obtain ⟨_, -, h⟩ := ok_of_bind (transaction_ok h)
  obtain ⟨_, hmaterial, h⟩ := ok_of_bind h
  split at h
  · cases h
  · rename_i policyHash sink _
    obtain ⟨_, howned, h⟩ := ok_of_bind h
    obtain ⟨_, hfree, h⟩ := ok_of_bind h
    obtain ⟨db₁, hextend, h⟩ := ok_of_bind h
    cases h
    obtain ⟨-, rfl⟩ := extendReservation_ok hextend
    obtain ⟨r, hr, howned⟩ := List.any_eq_true.mp (check_ok howned)
    simp only [Bool.and_eq_true, beq_iff_eq] at howned
    have hfree := check_ok hfree
    simp only [dispatchTaken, Bool.not_eq_true', Bool.or_eq_false_iff, List.any_eq_false] at hfree
    refine ⟨newDispatch hash db reservation material actuatorId owner before prediction traceId
        ttlMs dispatchId policyHash token, _, by simpa using check_ok hmaterial,
      ⟨r, hr, howned.1.1.1, howned.1.1.2⟩, ?_, rfl, rfl, rfl, rfl, rfl, rfl, rfl, rfl, rfl, rfl⟩
    intro d' hd' heq
    exact hfree.1 d' hd' (by simp [show d'.id = dispatchId from heq])

theorem ownedBy_iff : r.ownedBy reservation = true ↔
    r.id = reservation.reservationId ∧ r.leaseToken = reservation.leaseToken ∧ r.active = true := by
  simp [ReservationRow.ownedBy, and_assoc]

/-- A dispatch prepared for an action in execution. -/
theorem Files.prepare {token₀ : Token} (h : Files db phase)
    (hp : phase reservation.actionId = .reserved token₀)
    (executing : ∀ a ∈ db.actions, a.id = reservation.actionId → a.status = .executing)
    (ok : prepareDispatch hash db reservation material actuatorId owner before prediction traceId
      ttlMs dispatchId effectReceiptId token = (db', .ok dispatch)) :
    ∃ expires, Files db' (Function.update phase reservation.actionId
      (.pending .prepared ⟨token, expires⟩)) := by
  obtain ⟨d, e, -, ⟨r', hr', howned, haction⟩, hfree, -, hdaction, hdres, rfl, hstatus, rfl, -⟩ :=
    prepareDispatch_ok ok
  obtain ⟨a, r, hfile, open_, -, target, -⟩ := h.reserved hp
  have hmem : r' ∈ (db.file reservation.actionId).reservations :=
    List.mem_filter.mpr ⟨hr', by simp [haction]⟩
  have heq : r' = r := by simpa [hfile] using hmem
  subst heq
  have hrow : a ∈ (db.file reservation.actionId).actions := by simp [hfile]
  obtain ⟨ha, haid⟩ := List.mem_filter.mp hrow
  have hexecuting := executing a ha (by simpa using haid)
  refine ⟨d.leaseExpiresAt, Files.extended (h.update ?_ ?_ ?_) reservation ttlMs⟩
  · exact { h.keys with dispatches := h.keys.dispatches.append hfree }
  · simp only [Database.file, File.mk.injEq] at hfile
    simp only [Database.file, List.filter_append, hfile, List.filter_cons, hdaction, List.filter_nil,
      beq_self_eq_true, if_true, List.nil_append]
    exact .pending open_ target hexecuting (hdres.trans (ownedBy_iff.mp howned).1.symm) hstatus
  · intro id' hne
    have : (d.actionId == id') = false := by simpa [hdaction] using Ne.symm hne
    simp [Database.file, List.filter_append, this]

theorem Outstanding.mem {stage : Stage} {lease : Lease Token} {ph : DispatchPhase}
    (o : Outstanding db id stage lease a r d ph) :
    (a ∈ db.actions ∧ a.id = id) ∧ (r ∈ db.reservations ∧ r.actionId = id) ∧
      (d ∈ db.dispatches ∧ d.actionId = id) := by
  have ha : a ∈ (db.file id).actions := by simp [o.file]
  have hr : r ∈ (db.file id).reservations := by simp [o.file]
  have hd : d ∈ (db.file id).dispatches := by simp [o.file]
  exact ⟨by simpa [Database.file] using ha, by simpa [Database.file] using hr,
    by simpa [Database.file] using hd⟩

/-- A dispatch stays outstanding while its row is rewritten. -/
theorem Files.rewrite {stage stage' : Stage} {lease lease' : Lease Token} {ph ph' : DispatchPhase}
    {hit : DispatchRow → Bool} {set : DispatchRow → DispatchRow} (h : Files db phase)
    (o : Outstanding db id stage lease a r d ph) (hd : hit d = true)
    (only : ∀ d' ∈ db.dispatches, hit d' = true → d'.id = d.id)
    (hset : ∀ d, (set d).id = d.id ∧ (set d).actionId = d.actionId ∧
      (set d).reservationId = d.reservationId)
    (after : (set d).status = .outstanding ph' ∧ ph'.stage = stage' ∧
      ⟨(set d).leaseToken, (set d).leaseExpiresAt⟩ = lease') :
    Files { db with dispatches := Table.update hit set db.dispatches }
      (Function.update phase id (.pending stage' lease')) := by
  obtain ⟨-, -, hmem, haction⟩ := o.mem
  obtain ⟨hstatus, rfl, rfl⟩ := after
  refine h.update ?_ ?_ ?_
  · exact { h.keys with dispatches := h.keys.dispatches.update (fun d _ _ => (hset d).1) }
  · rw [file_updateDispatches db hit (fun d => (hset d).2.1), o.file]
    simp only [Table.update, List.map_cons, List.map_nil, hd, if_true]
    exact .pending o.active o.target o.executing ((hset d).2.2.trans o.reservation) hstatus
  · intro id' hne
    refine file_updateDispatches_other (fun d => (hset d).2.1) (fun d' hd' hp => ?_) hne
    exact (h.keys.dispatches.eq_of_key hd' hmem (only d' hd' hp)) ▸ haction

/-- The rows a worker's copy of a dispatch stands for. -/
def ActuatorDispatch.Known (db : Database) (dispatch : ActuatorDispatch) : Prop :=
  dispatch.reservation.actionId = dispatch.material.id ∧
    (dispatch.dispatchId, dispatch.material.id, dispatch.reservation.reservationId) ∈
      db.dispatches.map DispatchRow.about

/-- The row that answers to a known dispatch. -/
theorem Files.known_row {ph : DispatchPhase} (h : Files db phase) (known : dispatch.Known db)
    (hd : d ∈ db.dispatches) (hid : d.id = dispatch.dispatchId) (hs : d.status = .outstanding ph) :
    d.reservationId = dispatch.reservation.reservationId ∧
      ∃ a r, Outstanding db dispatch.material.id ph.stage ⟨d.leaseToken, d.leaseExpiresAt⟩ a r d ph ∧
        phase dispatch.material.id = .pending ph.stage ⟨d.leaseToken, d.leaseExpiresAt⟩ := by
  obtain ⟨d', hd', habout⟩ := List.mem_map.mp known.2
  simp only [DispatchRow.about, Prod.mk.injEq] at habout
  obtain ⟨hid', haction, hres⟩ := habout
  have heq : d = d' := h.keys.dispatches.eq_of_key hd hd' (hid.trans hid'.symm)
  subst heq
  have hphase := haction ▸ h.phase_of_outstanding hd hs
  obtain ⟨a, r, d', ph', o⟩ := h.outstanding hphase
  have hmem : d ∈ (db.file dispatch.material.id).dispatches :=
    List.mem_filter.mpr ⟨hd, by simp [haction]⟩
  have heq : d = d' := by simpa [o.file] using hmem
  subst heq
  cases hs.symm.trans o.status
  exact ⟨hres, a, r, o, hphase⟩

theorem claimMutation_ok (h : claimMutation db dispatch ttlMs = (db', .ok dispatch')) :
    (∃ d ∈ db.dispatches, issuable db dispatch d = true) ∧
      db' = extended (issued db dispatch ttlMs) dispatch.reservation ttlMs ∧
      dispatch' = { dispatch with
        phase := .mutationIssued
        startedAt := db.now
        reservation := { dispatch.reservation with expiresAt := ttl db ttlMs } } := by
  obtain ⟨_, hcheck, h⟩ := ok_of_bind (transaction_ok h)
  obtain ⟨db₁, hextend, h⟩ := ok_of_bind h
  cases h
  obtain ⟨-, rfl⟩ := extendReservation_ok hextend
  exact ⟨List.any_eq_true.mp (check_ok hcheck), rfl, rfl⟩

theorem issuable_iff : issuable db dispatch d = true →
    d.id = dispatch.dispatchId ∧ d.leaseToken = dispatch.leaseToken ∧
      d.status = .outstanding .prepared := by
  simp only [issuable, DispatchRow.heldBy, Bool.and_eq_true, beq_iff_eq]
  exact fun h => ⟨h.1.1.1.1, h.1.1.1.2, h.1.2⟩

/-- The mutation of a prepared dispatch is claimed. -/
theorem Files.claim (h : Files db phase) (known : dispatch.Known db)
    (ok : claimMutation db dispatch ttlMs = (db', .ok dispatch')) :
    ∃ lease : Lease Token, lease.token = dispatch.leaseToken ∧
      phase dispatch.material.id = .pending .prepared lease ∧
      Files db' (Function.update phase dispatch.material.id
        (.pending .issued ⟨dispatch.leaseToken, ttl db ttlMs⟩)) := by
  obtain ⟨⟨d, hd, hit⟩, rfl, -⟩ := claimMutation_ok ok
  obtain ⟨hid, htoken, hstatus⟩ := issuable_iff hit
  obtain ⟨-, a, r, o, hphase⟩ := h.known_row known hd hid hstatus
  refine ⟨_, htoken, hphase, Files.extended ?_ dispatch.reservation ttlMs⟩
  rw [← htoken]
  exact h.rewrite o hit (fun d' _ hp => (issuable_iff hp).1.trans hid.symm)
    (by exact fun _ => ⟨rfl, rfl, rfl⟩) (by exact ⟨rfl, rfl, rfl⟩)

theorem recordConnectorAck_ok {requestId : Option String} {returnedAt : Option Int}
    (h : recordConnectorAck db dispatch requestId returnedAt ttlMs = (db', .ok dispatch')) :
    (∃ d ∈ db.dispatches, acknowledgeable db dispatch d = true) ∧
      db' = extended (acknowledged db dispatch requestId returnedAt ttlMs) dispatch.reservation ttlMs ∧
      dispatch'.dispatchId = dispatch.dispatchId ∧ dispatch'.material = dispatch.material ∧
      dispatch'.leaseToken = dispatch.leaseToken ∧
      dispatch'.reservation = { dispatch.reservation with expiresAt := ttl db ttlMs } := by
  have h := transaction_ok h
  split at h
  · cases h
  · rename_i row hfind
    obtain ⟨db₁, hextend, h⟩ := ok_of_bind h
    cases h
    obtain ⟨-, rfl⟩ := extendReservation_ok hextend
    exact ⟨⟨row, List.mem_of_find?_eq_some hfind, List.find?_some hfind⟩, rfl, rfl, rfl, rfl, rfl⟩

theorem acknowledgeable_iff : acknowledgeable db dispatch d = true →
    d.id = dispatch.dispatchId ∧ d.leaseToken = dispatch.leaseToken ∧
      ∃ ph : DispatchPhase, ph ≠ .prepared ∧ d.status = .outstanding ph := by
  simp only [acknowledgeable, DispatchRow.heldBy, Bool.and_eq_true, beq_iff_eq, Bool.or_eq_true]
  rintro ⟨⟨⟨hid, htoken⟩, -⟩, hs | hs⟩
  · exact ⟨hid, htoken, .mutationIssued, by simp, hs⟩
  · exact ⟨hid, htoken, .reconciling, by simp, hs⟩

/-- The connector's answer is recorded. -/
theorem Files.acknowledge {requestId : Option String} {returnedAt : Option Int}
    (h : Files db phase) (known : dispatch.Known db)
    (ok : recordConnectorAck db dispatch requestId returnedAt ttlMs = (db', .ok dispatch')) :
    ∃ stage lease, lease.token = dispatch.leaseToken ∧
      phase dispatch.material.id = .pending stage lease ∧
      Files db' (Function.update phase dispatch.material.id
        (.pending .reconciling ⟨dispatch.leaseToken, ttl db ttlMs⟩)) := by
  obtain ⟨⟨d, hd, hit⟩, rfl, -⟩ := recordConnectorAck_ok ok
  obtain ⟨hid, htoken, ph, -, hstatus⟩ := acknowledgeable_iff hit
  obtain ⟨-, a, r, o, hphase⟩ := h.known_row known hd hid hstatus
  refine ⟨_, _, htoken, hphase, Files.extended ?_ dispatch.reservation ttlMs⟩
  rw [← htoken]
  exact h.rewrite o hit (fun d' _ hp => (acknowledgeable_iff hp).1.trans hid.symm)
    (by exact fun _ => ⟨rfl, rfl, rfl⟩) (by exact ⟨rfl, rfl, rfl⟩)

/-- The reservation of an outstanding dispatch gets a new owner. -/
theorem Files.reown {stage : Stage} {lease : Lease Token} {ph : DispatchPhase}
    {hit : ReservationRow → Bool} {set : ReservationRow → ReservationRow} (h : Files db phase)
    (o : Outstanding db id stage lease a r d ph) (hp : phase id = .pending stage lease)
    (only : ∀ r ∈ db.reservations, hit r = true → r.actionId = id)
    (hset : ∀ r, (set r).id = r.id ∧ (set r).actionId = r.actionId ∧
      (set r).targetKey = r.targetKey ∧ (set r).active = r.active) :
    Files { db with reservations := Table.update hit set db.reservations } phase := by
  rw [← Function.update_eq_self id phase]
  refine h.update ?_ ?_ ?_
  · exact { h.keys with reservations := h.keys.reservations.update (fun r _ _ => (hset r).1) }
  · rw [file_updateReservations db hit (fun r => (hset r).2.1), o.file, hp, ← o.lease, ← o.stage]
    simp only [Table.update, List.map_cons, List.map_nil]
    cases hit r with
    | true =>
      exact .pending ((hset r).2.2.2.trans o.active) ((hset r).2.2.1.trans o.target) o.executing
        (o.reservation.trans (hset r).1.symm) o.status
    | false => exact .pending o.active o.target o.executing o.reservation o.status
  · intro id' hne
    exact file_updateReservations_other (fun r => (hset r).2.1) only hne

theorem recoveryRow_some {actionId : String} {row : RecoveryRow}
    (h : recoveryRow db actionId actuatorId = some row) :
    row.dispatch ∈ db.dispatches ∧ row.dispatch.actionId = actionId ∧
      row.dispatch.status = .outstanding row.phase ∧
      row.action ∈ db.actions ∧ row.action.id = actionId := by
  obtain ⟨d, hd, h⟩ := Option.bind_eq_some_iff.mp h
  have hpd := List.find?_some hd
  simp only [Bool.and_eq_true, beq_iff_eq] at hpd
  dsimp only at h
  split at h
  · rename_i ph hs
    obtain ⟨_, hph, h⟩ := Option.bind_eq_some_iff.mp h
    cases hph
    obtain ⟨e, -, h⟩ := Option.bind_eq_some_iff.mp h
    obtain ⟨g, -, h⟩ := Option.bind_eq_some_iff.mp h
    obtain ⟨a, ha, h⟩ := Option.bind_eq_some_iff.mp h
    cases h
    exact ⟨List.mem_of_find?_eq_some hd, hpd.1.1, hs, List.mem_of_find?_eq_some ha,
      by simpa using List.find?_some ha⟩
  · cases h

/-- The two ways a claim of recovery can end: nothing changed, or a lapsed
dispatch was taken over, even if its hashes then turn out to have drifted. -/
theorem claimRecovery_cases {actionId : String} {token' : Token}
    {result : Except ExecutionError (Option ActuatorDispatch)}
    (h : claimRecovery hash db actionId actuatorId owner ttlMs token token' = (db', result)) :
    (db' = db ∧ (result = .ok none ∨ ∃ error, result = .error error)) ∨
    ∃ (d : DispatchRow) (ph : DispatchPhase) (dispatch : ActuatorDispatch), d ∈ db.dispatches ∧
      d.actionId = actionId ∧ d.status = .outstanding ph ∧ d.leaseExpiresAt < db.now ∧
      db' = takenOver db actionId owner ttlMs d token token' ∧
      (result = .ok (some dispatch) ∨ ∃ error, result = .error error) ∧
      dispatch.dispatchId = d.id ∧ dispatch.material.id = actionId ∧ dispatch.phase = ph ∧
      dispatch.leaseToken = token ∧ dispatch.reservation.reservationId = d.reservationId ∧
      dispatch.reservation.actionId = actionId := by
  unfold claimRecovery at h
  split at h
  · cases h
    exact .inl ⟨rfl, .inr ⟨_, rfl⟩⟩
  · split at h
    · cases h
      exact .inl ⟨rfl, .inl rfl⟩
    · rename_i row hrow
      obtain ⟨hd, haction, hstatus, -, hid⟩ := recoveryRow_some hrow
      split at h
      · cases h
        exact .inl ⟨rfl, .inr ⟨_, rfl⟩⟩
      · rename_i hlapsed
        split at h
        · cases h
          exact .inl ⟨rfl, .inr ⟨_, rfl⟩⟩
        · rename_i reserved hfind
          cases h
          refine .inr ⟨row.dispatch, row.phase,
            recoveredDispatch db actionId actuatorId owner ttlMs row reserved token token', hd,
            haction, hstatus, Int.not_le.mp hlapsed, rfl, ?_, rfl, hid, rfl, rfl, rfl, rfl⟩
          generalize checkDrift hash actionId actuatorId row _ = drift
          cases drift with
          | ok u => exact .inl rfl
          | error error => exact .inr ⟨error, rfl⟩

/-- A lapsed dispatch is taken over. -/
theorem Files.takeOver {ph : DispatchPhase} (h : Files db phase) (owner : String) (ttlMs : Nat)
    (token token' : Token) (hd : d ∈ db.dispatches) (hs : d.status = .outstanding ph)
    (lapsed : d.leaseExpiresAt < db.now) :
    Files (takenOver db d.actionId owner ttlMs d token token')
      (Function.update phase d.actionId (.pending ph.stage ⟨token, ttl db ttlMs⟩)) := by
  have hphase := h.phase_of_outstanding hd hs
  obtain ⟨a, r, d', ph', o⟩ := h.outstanding hphase
  have hmem : d ∈ (db.file d.actionId).dispatches := List.mem_filter.mpr ⟨hd, by simp⟩
  have heq : d = d' := by simpa [o.file] using hmem
  subst heq
  have hrewritten : Files
      { db with
        dispatches := Table.update
          (fun d' => d'.id == d.id && d'.leaseToken == d.leaseToken &&
            decide (d'.leaseExpiresAt < db.now) && d'.isOutstanding)
          (fun d => { d with
            leaseOwner := owner
            leaseToken := token
            leaseExpiresAt := ttl db ttlMs }) db.dispatches }
      (Function.update phase d.actionId (.pending ph.stage ⟨token, ttl db ttlMs⟩)) := by
    refine h.rewrite o ?_ ?_ (by exact fun _ => ⟨rfl, rfl, rfl⟩) (by exact ⟨hs, rfl, rfl⟩)
    · simp [lapsed, DispatchRow.isOutstanding, hs]
    · intro d' _ hit
      simp only [Bool.and_eq_true, beq_iff_eq] at hit
      exact hit.1.1.1
  obtain ⟨a', r', d', ph', o'⟩ := hrewritten.outstanding (Function.update_self ..)
  refine hrewritten.reown o' (Function.update_self ..) ?_ (by exact fun _ => ⟨rfl, rfl, rfl, rfl⟩)
  intro r _ hit
  simp only [Bool.and_eq_true, beq_iff_eq] at hit
  exact hit.1.2

theorem countAttempt_eq (db : Database) (actionId : String) :
    ∃ incidents, countAttempt db actionId = { db with incidents } := by
  unfold countAttempt
  split
  · exact ⟨db.incidents, rfl⟩
  · exact ⟨_, rfl⟩

/-- The action's status and its incident's count, as settling leaves them. -/
def settledAction (db : Database) (receipt : ExecutionReceiptWrite) : Database :=
  countAttempt (db.setActionStatus receipt.actionId [.executing] receipt.result.actionStatus)
    receipt.actionId

variable {receipt : ExecutionReceiptWrite} {customerAuditRef receiptId : String}

/-- The reservation is released, and the version of its target noted. -/
def released (db : Database) (reservation : TargetReservation) (release : Release)
    (targets : List TargetEpochRow) : Database :=
  { db with
    reservations := Table.update (ReservationRow.ownedBy reservation)
      (fun r => { r with release := some release }) db.reservations
    targetEpochs := targets }

theorem file_released (db : Database) (reservation : TargetReservation) (release : Release)
    (targets : List TargetEpochRow) (id : String) :
    (released db reservation release targets).file id = { db.file id with
      reservations := Table.update (ReservationRow.ownedBy reservation)
        (fun r => { r with release := some release }) (db.file id).reservations } :=
  file_updateReservations db _ (by exact fun _ => rfl) id

theorem Keys.released {release : Release} {targets : List TargetEpochRow} (h : Keys db)
    (htargets : targets.map (fun t => (t.targetKey, t.epoch)) =
      db.targetEpochs.map (fun t => (t.targetKey, t.epoch))) :
    Keys (released db reservation release targets) := by
  refine { h with
    reservations := h.reservations.update (fun _ _ _ => rfl)
    targets := ?_ }
  have heq := congrArg (List.map Prod.fst) htargets
  simp only [List.map_map, Function.comp_def] at heq
  have htargets := h.targets
  unfold Table.Unique at htargets ⊢
  exact (show targets.map TargetEpochRow.targetKey = _ from heq) ▸ htargets

theorem settleAction_ok (h : settleAction db dispatch receipt = .ok db') :
    (receipt.result = .ambiguous ∧ db' = settledAction db receipt) ∨
    (receipt.result ≠ .ambiguous ∧
      (settledAction db receipt).reservations.any (ReservationRow.ownedBy dispatch.reservation) =
        true ∧
      ∃ (targets : List TargetEpochRow) (why : String),
        targets.map (fun t => (t.targetKey, t.epoch)) =
          db.targetEpochs.map (fun t => (t.targetKey, t.epoch)) ∧
        db' = released (settledAction db receipt) dispatch.reservation ⟨db.now, why⟩ targets) := by
  unfold settleAction at h
  dsimp only at h
  split at h
  · rename_i hresult
    cases h
    exact .inl ⟨hresult, rfl⟩
  · rename_i hresult
    split at h
    · rename_i howned
      cases h
      refine .inr ⟨hresult, howned, _, _, ?_, rfl⟩
      obtain ⟨incidents, heq⟩ := countAttempt_eq
        (db.setActionStatus receipt.actionId [.executing] receipt.result.actionStatus)
        receipt.actionId
      rw [heq]
      cases receipt.observedTargetVersion with
      | none => rfl
      | some version => exact Table.keys_update (fun _ _ _ => rfl)
    · cases h

theorem finalizeDispatch_ok {result : String}
    (h : finalizeDispatch db dispatch receipt customerAuditRef receiptId = (db', .ok result)) :
    receipt.actionId = dispatch.material.id ∧
      (∃ d ∈ db.dispatches, finalizable db dispatch d = true) ∧
      settleAction (finalized db dispatch receipt customerAuditRef receiptId) dispatch receipt =
        .ok db' := by
  obtain ⟨_, howns, h⟩ := ok_of_bind (transaction_ok h)
  obtain ⟨_, -, h⟩ := ok_of_bind h
  obtain ⟨_, hheld, h⟩ := ok_of_bind h
  obtain ⟨_, -, h⟩ := ok_of_bind h
  obtain ⟨_, -, h⟩ := ok_of_bind h
  obtain ⟨db₁, hsettle, h⟩ := ok_of_bind h
  cases h
  exact ⟨by simpa using check_ok howns, List.any_eq_true.mp (check_ok hheld), hsettle⟩

theorem finalizable_iff : finalizable db dispatch d = true →
    d.id = dispatch.dispatchId ∧ d.leaseToken = dispatch.leaseToken ∧
      d.status = .outstanding .reconciling := by
  simp only [finalizable, DispatchRow.heldBy, Bool.and_eq_true, beq_iff_eq]
  exact fun h => ⟨h.1.1.1, h.1.1.2, h.2⟩

theorem file_settledAction (db : Database) (receipt : ExecutionReceiptWrite) (id : String) :
    (settledAction db receipt).file id =
      (db.setActionStatus receipt.actionId [.executing] receipt.result.actionStatus).file id := by
  obtain ⟨incidents, heq⟩ := countAttempt_eq
    (db.setActionStatus receipt.actionId [.executing] receipt.result.actionStatus) receipt.actionId
  rw [settledAction, heq]
  rfl

theorem settledAction_reservations (db : Database) (receipt : ExecutionReceiptWrite) :
    (settledAction db receipt).reservations = db.reservations := by
  obtain ⟨incidents, heq⟩ := countAttempt_eq
    (db.setActionStatus receipt.actionId [.executing] receipt.result.actionStatus) receipt.actionId
  rw [settledAction, heq]
  rfl

theorem settledAction_targetEpochs (db : Database) (receipt : ExecutionReceiptWrite) :
    (settledAction db receipt).targetEpochs = db.targetEpochs := by
  obtain ⟨incidents, heq⟩ := countAttempt_eq
    (db.setActionStatus receipt.actionId [.executing] receipt.result.actionStatus) receipt.actionId
  rw [settledAction, heq]
  rfl

theorem Keys.settledAction (h : Keys db) : Keys (settledAction db receipt) := by
  obtain ⟨incidents, heq⟩ := countAttempt_eq
    (db.setActionStatus receipt.actionId [.executing] receipt.result.actionStatus) receipt.actionId
  rw [Actuator.settledAction, heq]
  exact { h.setActionStatus with }

theorem Keys.finalized (h : Keys db) :
    Keys (finalized db dispatch receipt customerAuditRef receiptId) :=
  { h with dispatches := h.dispatches.update (fun _ _ _ => rfl) }

theorem file_finalized (db : Database) (dispatch : ActuatorDispatch)
    (receipt : ExecutionReceiptWrite) (customerAuditRef receiptId id : String) :
    (finalized db dispatch receipt customerAuditRef receiptId).file id =
      { db.file id with
        dispatches := Table.update (finalizable db dispatch)
          (fun d => { d with status := receipt.result.terminal }) (db.file id).dispatches
        receipts := (db.file id).receipts ++
          [({ receipt with id := receiptId } : ExecutionReceiptRow)].filter
            (fun e => e.actionId == id) } := by
  simp only [Database.file, finalized, List.filter_append]
  rw [Table.filter_update (f := fun d : DispatchRow => { d with status := receipt.result.terminal })
    (fun _ _ _ => rfl)]

/-- The file of the action a receipt is for. -/
theorem Outstanding.finalized_file {stage : Stage} {lease : Lease Token} {ph : DispatchPhase}
    (o : Outstanding db receipt.actionId stage lease a r d ph)
    (hit : finalizable db dispatch d = true) (customerAuditRef receiptId : String) :
    (settledAction (finalized db dispatch receipt customerAuditRef receiptId) receipt).file
        receipt.actionId =
      ⟨[{ a with status := receipt.result.actionStatus }], [r],
        [{ d with status := receipt.result.terminal }], [{ receipt with id := receiptId }]⟩ := by
  obtain ⟨⟨-, haid⟩, -, -⟩ := o.mem
  rw [file_settledAction, file_setActionStatus, file_finalized, o.file]
  simp [Table.update, haid, o.executing, hit]

/-- The other files stay as they are. -/
theorem finalized_file_other (hne : id ≠ receipt.actionId)
    (only : ∀ d ∈ db.dispatches, finalizable db dispatch d = true → d.actionId = receipt.actionId) :
    (settledAction (finalized db dispatch receipt customerAuditRef receiptId) receipt).file id =
      db.file id := by
  have hreceipt : (receipt.actionId == id) = false := by simpa using Ne.symm hne
  rw [file_settledAction, file_setActionStatus_other hne, file_finalized]
  have hdispatches : Table.update (finalizable db dispatch)
      (fun d => { d with status := receipt.result.terminal }) (db.file id).dispatches =
        (db.file id).dispatches := by
    apply Table.update_of_no_hit
    intro d hd
    obtain ⟨hd, hid⟩ := List.mem_filter.mp hd
    cases hp : finalizable db dispatch d with
    | false => rfl
    | true => exact absurd ((by simpa using hid : d.actionId = id).symm.trans (only d hd hp)) hne
  rw [hdispatches]
  simp [hreceipt]

/-- A receipt settles its action. -/
theorem Files.finalize {result : String} (h : Files db phase) (known : dispatch.Known db)
    (ok : finalizeDispatch db dispatch receipt customerAuditRef receiptId = (db', .ok result)) :
    receipt.actionId = dispatch.material.id ∧
    ∃ lease : Lease Token, lease.token = dispatch.leaseToken ∧
      phase dispatch.material.id = .pending .reconciling lease ∧
      Files db' (Function.update phase dispatch.material.id (.settled receipt.result.verdict)) := by
  obtain ⟨haction, ⟨d, hd, hit⟩, hsettle⟩ := finalizeDispatch_ok ok
  obtain ⟨hid, htoken, hstatus⟩ := finalizable_iff hit
  obtain ⟨hres, a, r, o, hphase⟩ := h.known_row known hd hid hstatus
  refine ⟨haction, _, htoken, hphase, ?_⟩
  rw [← haction] at o ⊢
  obtain ⟨-, ⟨hr, hraction⟩, -, hdaction⟩ := o.mem
  have only : ∀ d' ∈ db.dispatches, finalizable db dispatch d' = true →
      d'.actionId = receipt.actionId := by
    intro d' hd' hit'
    have heq : d' = d := h.keys.dispatches.eq_of_key hd' hd
      ((finalizable_iff hit').1.trans hid.symm)
    exact heq ▸ hdaction
  have hself := o.finalized_file hit customerAuditRef receiptId
  rcases settleAction_ok hsettle with ⟨hresult, rfl⟩ | ⟨hresult, howned, targets, why, htargets, rfl⟩
  · refine h.update (h.keys.finalized.settledAction) ?_ ?_
    · rw [hself]
      exact .settled (by simp [hresult, o.active]) o.target rfl o.reservation rfl
    · intro id' hne
      exact finalized_file_other hne only
  · have hmine : ∀ r' ∈ db.reservations, r'.ownedBy dispatch.reservation = true → r' = r :=
      fun r' hr' howned => h.keys.reservations.eq_of_key hr' hr
        ((ownedBy_iff.mp howned).1.trans (hres.symm.trans o.reservation))
    rw [settledAction_reservations] at howned
    obtain ⟨r', hr', howned⟩ := List.any_eq_true.mp howned
    have heq := hmine r' hr' howned
    subst heq
    refine h.update (h.keys.finalized.settledAction.released ?_) ?_ ?_
    · rw [htargets]
      exact (settledAction_targetEpochs _ _).symm ▸ rfl
    · rw [file_released, hself]
      simp only [Table.update, List.map_cons, List.map_nil, howned, if_true]
      refine .settled ?_ o.target rfl o.reservation rfl
      simp [ReservationRow.active, hresult]
    · intro id' hne
      rw [file_released, finalized_file_other hne only]
      rw [Table.update_of_no_hit]
      intro r hm
      obtain ⟨hm, hid'⟩ := List.mem_filter.mp hm
      cases hp : r.ownedBy dispatch.reservation with
      | false => rfl
      | true =>
        rw [hmine r hm hp, hraction] at hid'
        exact absurd (by simpa using hid') (Ne.symm hne)

/-! What each call keeps. -/

variable {closed : Option String} {db₁ : Database}

theorem Keeps.trans (h : Keeps db db₁ closed) (h' : Keeps db₁ db' closed) : Keeps db db' closed := by
  refine ⟨h'.now.trans h.now, fun _ hm => h'.reservations (h.reservations hm),
    fun _ hm => h'.dispatches (h.dispatches hm), fun a ha hc => ?_⟩
  obtain ⟨a₁, ha₁, hid₁, hs₁⟩ := h.actions a ha hc
  obtain ⟨a₂, ha₂, hid₂, hs₂⟩ := h'.actions a₁ ha₁ (hid₁.symm ▸ hc)
  exact ⟨a₂, ha₂, hid₂.trans hid₁, fun hs => hs₂ (hs₁ hs)⟩

theorem keeps_setActionStatus (db : Database) {actionId : String}
    (still : closed ≠ some actionId → .executing ∉ from_) :
    Keeps db (db.setActionStatus actionId from_ status) closed := by
  refine ⟨rfl, fun _ => id, fun _ => id, fun a ha hc => ?_⟩
  refine ⟨_, Table.mem_update.mpr ⟨a, ha, rfl⟩, ?_, ?_⟩
  · split
    · rfl
    · rfl
  · intro hs
    split
    · rename_i hit
      simp only [Bool.and_eq_true, beq_iff_eq, List.contains_eq_mem, decide_eq_true_eq, hs] at hit
      exact absurd hit.2 (still (hit.1 ▸ hc))
    · exact hs

theorem keeps_extended (db : Database) (reservation : TargetReservation) (ttlMs : Nat) :
    Keeps db (extended db reservation ttlMs) closed := by
  refine Keeps.of_actions rfl ?_ (fun _ => id) rfl
  unfold extended
  rw [about_reservations (by exact fun _ => rfl)]
  exact fun _ => id

theorem keeps_dispatches {hit : DispatchRow → Bool} {set : DispatchRow → DispatchRow}
    (hset : ∀ d, (set d).about = d.about) :
    Keeps db { db with dispatches := Table.update hit set db.dispatches } closed := by
  refine Keeps.of_actions rfl (fun _ => id) ?_ rfl
  rw [about_dispatches hset]
  exact fun _ => id

theorem keeps_reserve (db : Database) (a : ActionRow) (row : ReservationRow) :
    Keeps db (reserve db a row) closed :=
  .of_actions rfl (by simp [reserve]) (fun _ => id) rfl

theorem keeps_release {reason : ReleaseReason} {u : Unit}
    (ok : releaseBeforeMutation db reservation reason = (db', .ok u)) :
    Keeps db db' (some reservation.actionId) := by
  obtain ⟨-, rfl⟩ := releaseBeforeMutation_ok ok
  refine Keeps.trans ?_ (keeps_setActionStatus _ (fun hc => absurd rfl hc))
  refine Keeps.of_actions rfl ?_ (fun _ => id) rfl
  rw [about_reservations (by exact fun _ => rfl)]
  exact fun _ => id

theorem keeps_prepare (ok : prepareDispatch hash db reservation material actuatorId owner before
      prediction traceId ttlMs dispatchId effectReceiptId token = (db', .ok dispatch)) :
    Keeps db db' none := by
  obtain ⟨d, e, -, -, -, -, -, -, -, -, rfl, -⟩ := prepareDispatch_ok ok
  refine Keeps.trans ?_ (keeps_extended _ reservation ttlMs)
  exact .of_actions rfl (fun _ => id) (by simp) rfl

theorem keeps_claim (ok : claimMutation db dispatch ttlMs = (db', .ok dispatch')) :
    Keeps db db' none := by
  obtain ⟨-, rfl, -⟩ := claimMutation_ok ok
  exact .trans (keeps_dispatches (by exact fun _ => rfl)) (keeps_extended _ _ ttlMs)

theorem keeps_acknowledge {requestId : Option String} {returnedAt : Option Int}
    (ok : recordConnectorAck db dispatch requestId returnedAt ttlMs = (db', .ok dispatch')) :
    Keeps db db' none := by
  obtain ⟨-, rfl, -⟩ := recordConnectorAck_ok ok
  exact .trans (keeps_dispatches (by exact fun _ => rfl)) (keeps_extended _ _ ttlMs)

theorem keeps_takeOver {actionId : String} {token' : Token} :
    Keeps db (takenOver db actionId owner ttlMs d token token') none := by
  refine Keeps.of_actions rfl ?_ ?_ rfl
  · unfold takenOver
    rw [about_reservations (by exact fun _ => rfl)]
    exact fun _ => id
  · unfold takenOver
    rw [about_dispatches (by exact fun _ => rfl)]
    exact fun _ => id

theorem keeps_settledAction (db : Database) (receipt : ExecutionReceiptWrite) :
    Keeps db (settledAction db receipt) (some receipt.actionId) := by
  obtain ⟨incidents, heq⟩ := countAttempt_eq
    (db.setActionStatus receipt.actionId [.executing] receipt.result.actionStatus) receipt.actionId
  rw [settledAction, heq]
  exact .trans (keeps_setActionStatus db (fun hc => absurd rfl hc))
    (.of_actions rfl (fun _ => id) (fun _ => id) rfl)

theorem keeps_released {release : Release} {targets : List TargetEpochRow} :
    Keeps db (released db reservation release targets) closed := by
  refine Keeps.of_actions rfl ?_ (fun _ => id) rfl
  unfold released
  rw [about_reservations (by exact fun _ => rfl)]
  exact fun _ => id

theorem keeps_finalize {result : String}
    (ok : finalizeDispatch db dispatch receipt customerAuditRef receiptId = (db', .ok result)) :
    Keeps db db' (some dispatch.material.id) := by
  obtain ⟨haction, -, hsettle⟩ := finalizeDispatch_ok ok
  rw [← haction]
  have hfinal : Keeps db (finalized db dispatch receipt customerAuditRef receiptId)
      (some receipt.actionId) := by
    refine .of_actions rfl (fun _ => id) ?_ rfl
    unfold finalized
    rw [about_dispatches (by exact fun _ => rfl)]
    exact fun _ => id
  have hsettled := hfinal.trans (keeps_settledAction _ receipt)
  rcases settleAction_ok hsettle with ⟨-, rfl⟩ | ⟨-, -, targets, why, -, rfl⟩
  · exact hsettled
  · exact hsettled.trans keeps_released

end Solvan.Actuator
