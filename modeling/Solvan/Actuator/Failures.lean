import Solvan.Actuator.Safety

namespace Solvan.Actuator
open Fencing (Hand Lease Phase Stage System machine sound_of_reach)
open Mitigation (TargetEpochRow)
open Workflow (ActionRow ActionStatus IncidentRow)

/-- The reservation a call of `execute` has, before its mutation. -/
def Point.held : Point → Option TargetReservation
  | .authorizing _ r | .observing _ r _ | .dryRunning _ r _ _ | .gating _ r _ _ _
  | .undoing _ r _ _ _ | .preparing _ r _ _ _ | .releasing r _ _ => some r
  | .reauthorizing _ d | .regating _ d | .claiming _ _ d => some d.reservation
  | _ => none

/-- A later call could execute the action, or recover its dispatch. -/
def Executable (db : Database) (a : ActionRow) : Prop :=
  a.status = .authorized ∨ ∃ d ∈ db.dispatches, d.actionId = a.id ∧ d.isOutstanding = true

/-- The reservation is released, and its action ended or may still be executed. -/
structure NothingHeld (db : Database) (reservation : TargetReservation) : Prop where
  released : ∀ r ∈ db.reservations, r.id = reservation.reservationId → r.active = false
  action : ∀ a ∈ db.actions, a.id = reservation.actionId →
    a.status = .invalidated ∨ a.status = .dryRunMismatch ∨ Executable db a

variable {hash : Json → String} {s s' : State} {event : Event} {w : Nat} {db db' : Database}
  {reservation : TargetReservation} {failure : Failure} {reason : ReleaseReason}
  {phase : String → Phase Token} {dispatch : ActuatorDispatch} {point : Point}

/-- The worker an event is of. -/
def Event.worker : Event → Option Nat
  | .execute w _ | .recover w | .reauthorize w _ | .acquire w _ | .authorize w _ | .observe w _
  | .dryRun w _ | .gate w _ | .undo w _ | .release w | .prepare w _ _ | .claim w | .mutate w
  | .mutated w _ | .acknowledge w | .reconcile w _ | .audit w _ | .finalize w _ | .crash w => some w
  | _ => none

/-- Nobody moves but the worker an event is of. -/
theorem State.next_points (h : s.next hash event = some s') (hw : event.worker ≠ some w) :
    s'.points w = s.points w := by
  cases event with
  | tick | approve | register | schedule | coordinate | lose =>
    cases h
    rfl
  | plan action =>
    obtain ⟨db', -, heq⟩ := Option.map_eq_some_iff.mp h
    cases heq
    rfl
  | baseline target =>
    obtain ⟨-, heq⟩ := Option.ite_none_left_eq_some.mp h
    cases heq
    rfl
  | deliver actionId =>
    obtain ⟨-, heq⟩ := Option.ite_none_right_eq_some.mp h
    obtain ⟨action, -, heq⟩ := Option.bind_eq_some_iff.mp heq
    cases heq
    rfl
  | execute w' call =>
    obtain ⟨-, heq⟩ := Option.ite_none_right_eq_some.mp h
    cases heq
    exact Function.update_of_ne (fun heq => hw (congrArg some heq.symm)) ..
  | crash w' =>
    cases h
    exact Function.update_of_ne (fun heq => hw (congrArg some heq.symm)) ..
  | recover w' | reauthorize w' | acquire w' | authorize w' | observe w' | dryRun w' | undo w'
  | release w' | prepare w' | claim w' | mutate w' | audit w' | finalize w' =>
    simp only [State.next] at h
    split at h
    · cases h
      exact Function.update_of_ne (fun heq => hw (congrArg some heq.symm)) ..
    · cases h
  | gate w' verdict =>
    simp only [State.next] at h
    split at h
    · cases h
      exact Function.update_of_ne (fun heq => hw (congrArg some heq.symm)) ..
    · cases h
      exact Function.update_of_ne (fun heq => hw (congrArg some heq.symm)) ..
    · cases h
  | acknowledge w' =>
    simp only [State.next] at h
    split at h
    · cases h
      exact Function.update_of_ne (fun heq => hw (congrArg some heq.symm)) ..
    · cases h
      exact Function.update_of_ne (fun heq => hw (congrArg some heq.symm)) ..
    · cases h
  | mutated w' outcome =>
    simp only [State.next] at h
    split at h
    · cases outcome with
      | returned | ambiguous | failed =>
        cases h
        exact Function.update_of_ne (fun heq => hw (congrArg some heq.symm)) ..
    · cases h
  | reconcile w' reconciliation =>
    simp only [State.next] at h
    split at h
    · obtain ⟨-, heq⟩ := Option.ite_none_right_eq_some.mp h
      cases heq
      exact Function.update_of_ne (fun heq => hw (congrArg some heq.symm)) ..
    · cases h

theorem State.hear_points {α : Type} {heard : Except ExecutionError α} {returned : α → Point}
    {onError : ExecutionError → Point}
    (h : (s.hear w heard returned onError).points w = .raised failure) :
    (∃ value, heard = .ok value ∧ returned value = .raised failure) ∨
      ∃ error, heard = .error error ∧ onError error = .raised failure := by
  simp only [State.hear, State.goto, Function.update_self] at h
  cases heard with
  | ok value => exact .inl ⟨value, rfl, h⟩
  | error error => exact .inr ⟨error, rfl, h⟩

theorem State.call_points {α : Type} {called : Called α} {returned : α → Point}
    {onError : ExecutionError → Point}
    (h : (s.call w called returned onError).points w = .raised failure) :
    (∃ value, called.2 = .ok value ∧ returned value = .raised failure) ∨
      ∃ error, called.2 = .error error ∧ onError error = .raised failure := by
  simp only [State.call, State.goto, Function.update_self] at h
  cases hresult : called.2 with
  | ok value => exact .inl ⟨value, rfl, by rw [hresult] at h; exact h⟩
  | error error => exact .inr ⟨error, rfl, by rw [hresult] at h; exact h⟩

theorem transaction_raised {α : Type} {body : Except ExecutionError (Database × α)}
    {error : ExecutionError} (h : (transaction db body).2 = .error error) :
    (transaction db body).1 = db := by
  generalize hcalled : transaction db body = called at h ⊢
  obtain ⟨db', result⟩ := called
  cases h
  exact transaction_error hcalled

/-- Where a call raises before its mutation: once it has released, or with
nothing changed. -/
theorem raised_cases (h : s.next hash event = some s')
    (held : (s.points w).held = some reservation) (raised : s'.points w = .raised failure) :
    (∃ reason failure', s.points w = .releasing reservation reason failure' ∧
      ((releaseBeforeMutation s.db reservation reason = (s'.db, .ok ()) ∧ failure' = failure) ∨
        ∃ error, releaseBeforeMutation s.db reservation reason = (s'.db, .error error))) ∨
    ((∀ reason failure', s.points w ≠ .releasing reservation reason failure') ∧ s'.db = s.db ∧
      failure.handled = false) := by
  have hw : event.worker = some w := by
    by_contra hw
    rw [State.next_points h hw] at raised
    rw [raised] at held
    cases held
  cases event with
  | tick | plan | approve | baseline | register | schedule | coordinate | deliver | lose => cases hw
  | execute w' call =>
    cases hw
    obtain ⟨-, heq⟩ := Option.ite_none_right_eq_some.mp h
    cases heq
    simp [State.goto] at raised
  | crash w' =>
    cases hw
    cases h
    simp [State.goto] at raised
  | recover w' | acquire w' | mutate w' | mutated w' | reconcile w' | audit w' | finalize w' =>
    cases hw
    simp only [State.next] at h
    split at h
    · rename_i hpoint
      rw [hpoint] at held
      cases held
    · cases h
  | acknowledge w' =>
    cases hw
    simp only [State.next] at h
    split at h
    · rename_i hpoint
      rw [hpoint] at held
      cases held
    · rename_i hpoint
      rw [hpoint] at held
      cases held
    · cases h
  | reauthorize w' verdict =>
    cases hw
    simp only [State.next] at h
    split at h
    · rename_i hpoint
      cases h
      rcases State.hear_points raised with ⟨_, -, hnext⟩ | ⟨error, -, hnext⟩
      · cases hnext
      · cases hnext
        exact .inr ⟨by simp [hpoint], rfl, rfl⟩
    · cases h
  | authorize w' verdict =>
    cases hw
    simp only [State.next] at h
    split at h
    · rename_i call r hpoint
      cases h
      rcases State.call_points raised with ⟨_, -, hnext⟩ | ⟨error, herror, hnext⟩
      · cases hnext
      · refine .inr ⟨by simp [hpoint], transaction_raised herror, ?_⟩
        cases error with
        | actionPolicyError | reservationLost => cases hnext
        | _ =>
          cases hnext
          rfl
    · cases h
  | observe w' observation =>
    cases hw
    simp only [State.next] at h
    split at h
    · rename_i hpoint
      cases h
      rcases State.hear_points raised with ⟨before, -, hnext⟩ | ⟨error, -, hnext⟩
      · split at hnext
        · cases hnext
        · cases hnext
      · cases hnext
        exact .inr ⟨by simp [hpoint], rfl, rfl⟩
    · cases h
  | dryRun w' prediction =>
    cases hw
    simp only [State.next] at h
    split at h
    · cases h
      rcases State.hear_points raised with ⟨before, -, hnext⟩ | ⟨error, -, hnext⟩
      · split at hnext
        · cases hnext
        · cases hnext
      · cases hnext
    · cases h
  | gate w' verdict =>
    cases hw
    simp only [State.next] at h
    split at h
    · rename_i hpoint
      cases h
      rcases State.hear_points raised with ⟨_, -, hnext⟩ | ⟨error, -, hnext⟩
      · cases hnext
      · refine .inr ⟨by simp [hpoint], rfl, ?_⟩
        cases error with
        | actionPolicyError => cases hnext
        | _ =>
          cases hnext
          rfl
    · rename_i hpoint
      cases h
      rcases State.hear_points raised with ⟨_, -, hnext⟩ | ⟨error, -, hnext⟩
      · cases hnext
      · cases hnext
        exact .inr ⟨by simp [hpoint], rfl, rfl⟩
    · cases h
  | undo w' plan =>
    cases hw
    simp only [State.next] at h
    split at h
    · rename_i hpoint
      cases h
      rcases State.hear_points raised with ⟨_, -, hnext⟩ | ⟨error, -, hnext⟩
      · cases hnext
      · cases hnext
        exact .inr ⟨by simp [hpoint], rfl, rfl⟩
    · cases h
  | release w' =>
    cases hw
    simp only [State.next] at h
    split at h
    · rename_i r reason failure' hpoint
      rw [hpoint] at held
      cases held
      cases h
      refine .inl ⟨reason, failure', hpoint, ?_⟩
      generalize hcalled : releaseBeforeMutation s.db reservation reason = called at raised ⊢
      obtain ⟨db', result⟩ := called
      cases result with
      | ok u =>
        simp [State.call, State.goto] at raised
        exact .inl ⟨rfl, raised⟩
      | error error => exact .inr ⟨error, rfl⟩
    · cases h
  | prepare w' dispatchId effectReceiptId =>
    cases hw
    simp only [State.next] at h
    split at h
    · rename_i hpoint
      cases h
      rcases State.call_points raised with ⟨_, -, hnext⟩ | ⟨error, herror, hnext⟩
      · cases hnext
      · cases hnext
        exact .inr ⟨by simp [hpoint], transaction_raised herror, rfl⟩
    · cases h
  | claim w' =>
    cases hw
    simp only [State.next] at h
    split at h
    · rename_i hpoint
      cases h
      rcases State.call_points raised with ⟨_, -, hnext⟩ | ⟨error, herror, hnext⟩
      · cases hnext
      · cases hnext
        exact .inr ⟨by simp [hpoint], transaction_raised herror, rfl⟩
    · cases h

/-- The rows of a reservation that is known and not yet dispatched. -/
theorem Files.reserved_row {token : Token} (h : Files db phase) (known : reservation.Known db)
    (hp : phase reservation.actionId = .reserved token) :
    ∃ a r, db.file reservation.actionId = ⟨[a], [r], [], []⟩ ∧ r ∈ db.reservations ∧
      r.id = reservation.reservationId ∧ r.actionId = reservation.actionId ∧ r.active = true ∧
      r.leaseToken = token := by
  obtain ⟨a, r, hfile, hactive, htoken, -⟩ := h.reserved hp
  obtain ⟨r', hr', habout⟩ := List.mem_map.mp known
  simp only [ReservationRow.about, Prod.mk.injEq] at habout
  have hmem : r' ∈ (db.file reservation.actionId).reservations :=
    List.mem_filter.mpr ⟨hr', by simp [habout.2]⟩
  have heq : r' = r := by simpa [hfile] using hmem
  subst heq
  exact ⟨a, r', hfile, hr', habout.1, habout.2, hactive, htoken⟩

/-- A reservation that is still in hand can be released. -/
theorem Files.releasable (h : Files db phase) (reason : ReleaseReason)
    (known : reservation.Known db)
    (hp : phase reservation.actionId = .reserved reservation.leaseToken) :
    ∃ db', releaseBeforeMutation db reservation reason = (db', .ok ()) := by
  obtain ⟨a, r, hfile, hr, hid, haction, hactive, htoken⟩ := h.reserved_row known hp
  have hnone : db.executionReceipts.any (fun e => e.actionId == r.actionId) = false := by
    rw [List.any_eq_false, haction]
    intro e he hit
    have hmem : e ∈ (db.file reservation.actionId).receipts := List.mem_filter.mpr ⟨he, hit⟩
    simp [hfile] at hmem
  have hany : db.reservations.any (Actuator.releasable db reservation) = true :=
    List.any_eq_true.mpr ⟨r, hr, by
      simp [Actuator.releasable, hid, haction ▸ hnone, haction, hactive, htoken]⟩
  unfold releaseBeforeMutation
  rw [if_pos hany]
  exact ⟨_, rfl⟩

theorem Files.nothing_held (h : Files db phase) (known : reservation.Known db)
    (hp : phase reservation.actionId = .withdrawn) : NothingHeld db reservation := by
  have hf := h.filed reservation.actionId
  obtain ⟨r₀, hr₀, habout⟩ := List.mem_map.mp known
  simp only [ReservationRow.about, Prod.mk.injEq] at habout
  have hreservation : ∀ r ∈ db.reservations, r.id = reservation.reservationId →
      r ∈ (db.file reservation.actionId).reservations := by
    intro r hr hid
    have heq : r = r₀ := h.keys.reservations.eq_of_key hr hr₀ (hid.trans habout.1.symm)
    exact List.mem_filter.mpr ⟨hr, by simp [heq, habout.2]⟩
  have haction : ∀ a ∈ db.actions, a.id = reservation.actionId →
      a ∈ (db.file reservation.actionId).actions :=
    fun a ha hid => List.mem_filter.mpr ⟨ha, by simp [hid]⟩
  generalize db.file reservation.actionId = f at hf hreservation haction
  rw [hp] at hf
  cases hf with
  | @withdrawn a r closed status =>
    constructor
    · intro r' hr' hid
      rw [List.mem_singleton.mp (hreservation r' hr' hid)]
      exact closed
    · intro a' ha' hid
      rw [List.mem_singleton.mp (haction a' ha' hid)]
      exact status.imp_right .inl

/-- While a reservation waits for its dispatch, something is held. -/
theorem Files.held_of_reserved {token : Token} (h : Files db phase) (known : reservation.Known db)
    (hp : phase reservation.actionId = .reserved token) : ¬NothingHeld db reservation := by
  obtain ⟨a, r, -, hr, hid, -, hactive, -⟩ := h.reserved_row known hp
  intro nothing
  rw [nothing.released r hr hid] at hactive
  cases hactive

/-- Once dispatched, an action is held until it is settled, and then it has
neither been invalidated nor is it executable. -/
theorem Files.held_of_dispatched (h : Files db phase) (known : dispatch.Known db) :
    ¬NothingHeld db dispatch.reservation := by
  obtain ⟨d, hd, habout⟩ := List.mem_map.mp known.2
  simp only [DispatchRow.about, Prod.mk.injEq] at habout
  intro nothing
  have hf := h.filed dispatch.material.id
  have hdispatch : ∀ d ∈ db.dispatches, d.actionId = dispatch.material.id →
      d ∈ (db.file dispatch.material.id).dispatches :=
    fun d hd haction => List.mem_filter.mpr ⟨hd, by simp [haction]⟩
  have hmem := hdispatch d hd habout.2.1
  have hreservation : ∀ r ∈ (db.file dispatch.material.id).reservations, r ∈ db.reservations :=
    fun r hr => (List.mem_filter.mp hr).1
  have haction : ∀ a ∈ (db.file dispatch.material.id).actions,
      a ∈ db.actions ∧ a.id = dispatch.material.id :=
    fun a ha => by simpa [Database.file] using ha
  generalize db.file dispatch.material.id = f at hf hdispatch hmem hreservation haction
  generalize phase dispatch.material.id = p at hf
  cases hf with
  | untouched | reserved | withdrawn => cases hmem
  | @pending a r d' ph open_ target status reservation outstanding =>
    have heq : d = d' := List.mem_singleton.mp hmem
    subst heq
    have := nothing.released r (hreservation r (by simp)) (reservation.symm.trans habout.2.2)
    rw [open_] at this
    cases this
  | @settled a r d' e held target status reservation terminal =>
    obtain ⟨ha, haid⟩ := haction a (by simp)
    have hstatus := nothing.action a ha (haid.trans known.1.symm)
    rcases hstatus with hstatus | hstatus | hstatus | ⟨d₁, hd₁, haction₁, houtstanding⟩
    · rw [status] at hstatus
      cases he : e.result <;> simp [he, ExecutionResult.actionStatus] at hstatus
    · rw [status] at hstatus
      cases he : e.result <;> simp [he, ExecutionResult.actionStatus] at hstatus
    · rw [status] at hstatus
      cases he : e.result <;> simp [he, ExecutionResult.actionStatus] at hstatus
    · rw [List.mem_singleton.mp (hdispatch d₁ hd₁ (haction₁.trans haid)),
        DispatchRow.isOutstanding, terminal] at houtstanding
      cases he : e.result <;> simp [he, ExecutionResult.terminal] at houtstanding

/-- A call that raises before its mutation leaves nothing held just when what it
raised is among the failures it releases for. -/
theorem nothing_held_iff (h : (workers hash).Reach s) (move : s.next hash event = some s')
    (held : (s.points w).held = some reservation) (raised : s'.points w = .raised failure) :
    NothingHeld s'.db reservation ↔ failure.handled = true := by
  obtain ⟨A, hA, follows⟩ := exists_follows h
  have known := follows.known w
  have sound := sound_of_reach hA
  rcases raised_cases move held raised with
    ⟨reason, failure', hpoint, hrelease⟩ | ⟨hother, hdb, hunhandled⟩
  · rw [hpoint] at known held
    cases held
    have holds : A.hand w = .reserving reservation.actionId reservation.leaseToken := by
      rw [follows.hand w, hpoint]
      rfl
    rcases hrelease with ⟨hok, rfl⟩ | ⟨error, herror⟩
    · refine ⟨fun _ => known.2, fun _ => ?_⟩
      exact (follows.files.release (sound.reserving holds) hok).nothing_held
        (known.1.keeps (keeps_release hok)) (Function.update_self ..)
    · obtain ⟨db', hok⟩ := follows.files.releasable reason known.1 (sound.reserving holds)
      cases herror.symm.trans hok
  · rw [hdb, hunhandled]
    refine ⟨fun nothing => ?_, fun hfalse => absurd hfalse Bool.false_ne_true⟩
    have hhand := follows.hand w
    cases hpoint : s.points w with
    | releasing r reason failure' =>
      rw [hpoint] at held
      cases held
      exact absurd hpoint (hother reason failure')
    | authorizing call r =>
      rw [hpoint] at known held hhand
      cases held
      exact absurd nothing (follows.files.held_of_reserved known (sound.reserving hhand))
    | observing | dryRunning | gating | undoing | preparing =>
      rw [hpoint] at known held hhand
      cases held
      exact absurd nothing (follows.files.held_of_reserved known.1 (sound.reserving hhand))
    | reauthorizing | regating | claiming =>
      rw [hpoint] at known held
      cases held
      exact absurd nothing (follows.files.held_of_dispatched known)
    | _ =>
      rw [hpoint] at held
      cases held

def poolAuthorized : List Event :=
  [.execute 0 poolCall, .recover 0, .acquire 0 "res_1", .authorize 0 (.ok ())]

def Point.isObserving : Point → Bool
  | .observing .. => true
  | _ => false

theorem nothing_held_iff_unanswered : ∃ s s' reservation failure,
    (workers firstField).Reach s ∧ (s.points 0).held = some reservation ∧
      s.next firstField (.observe 0 (.error (.other "observation failed"))) = some s' ∧
      s'.points 0 = .raised failure ∧ ¬NothingHeld s'.db reservation := by
  obtain ⟨s, hs, hobserving⟩ :=
    (Machine.exists_reach poolAuthorized poolState_fresh (by decide +kernel) :
      ∃ s, (workers firstField).Reach s ∧ (s.points 0).isObserving = true)
  cases hpoint : s.points 0 with
  | observing call reservation material =>
    have held : (s.points 0).held = some reservation := by
      rw [hpoint]
      rfl
    have move : s.next firstField (.observe 0 (.error (.other "observation failed"))) =
        some (s.goto 0 (.raised ⟨.observation, false, .other "observation failed"⟩)) := by
      simp [State.next, hpoint, State.hear]
    have raised : (s.goto 0 (.raised ⟨.observation, false, .other "observation failed"⟩)).points 0 =
        .raised ⟨.observation, false, .other "observation failed"⟩ := by
      simp [State.goto]
    refine ⟨s, _, reservation, _, hs, hpoint ▸ held, move, raised, fun nothing => ?_⟩
    exact absurd ((nothing_held_iff hs move held raised).mp nothing) Bool.false_ne_true
  | _ =>
    rw [hpoint] at hobserving
    cases hobserving

/-- The connector does not answer, and the pool stays reserved. -/
theorem held_after_observation : ∃ s, (workers firstField).Reach s ∧
    (s.db.reservations.any (fun r => r.id == "res_1" && r.active) &&
      s.db.actions.all (fun a => a.status == .executing) && s.db.dispatches.isEmpty &&
      (match s.points 0 with
        | .raised _ => true
        | _ => false)) = true := by
  refine Machine.exists_reach (poolAuthorized ++ [.observe 0 (.error (.other "observation failed"))])
    poolState_fresh ?_
  decide +kernel

end Solvan.Actuator
