import Solvan.Actuator.Safety

namespace Solvan.Actuator
open Fencing (Hand Lease Phase Quiet Stage System machine open_of_flying sound_of_reach)
open Mitigation (TargetEpochRow)
open Workflow (ActionRow ActionStatus IncidentRow)

/-- A mutation takes effect while its action may still have one: it has not been
settled as without effect, and nobody else holds the target. -/
def Effect.Timely (e : Effect) : Prop :=
  (∀ receipt ∈ e.before.executionReceipts, receipt.actionId = e.actionId →
    receipt.result ≠ .failed) ∧
  ∀ r ∈ e.before.reservations, r.active = true → r.targetKey = e.targetKey →
    r.actionId = e.actionId

/-- No mutation of the action is still to come. -/
def State.Still (s : State) (actionId : String) : Prop :=
  (∀ w call dispatch, s.points w = .mutating call dispatch → dispatch.material.id ≠ actionId) ∧
    actionId ∉ s.inFlight

/-- Nobody hears a conclusive reconciliation while the mutation is still to come. -/
def Patient (s : State) (event : Event) : Prop :=
  ∀ w r call dispatch errorClass, event = .reconcile w (.ok r) →
    s.points w = .reconciling call dispatch errorClass → r.result ≠ .unknown →
    s.Still dispatch.material.id

variable {s : State} {A : Protocol} {hash : Json → String} {db : Database} {job : String}
  {phase : String → Phase Token}

theorem Follows.quiet (h : Follows s A) (still : s.Still job) : Quiet A job := by
  refine ⟨fun w lease hw => ?_, ?_⟩
  · have hhand := (h.hand w).symm.trans hw
    cases hpoint : s.points w with
    | mutating call dispatch =>
      rw [hpoint] at hhand
      cases hhand
      exact still.1 w call dispatch hpoint rfl
    | _ =>
      rw [hpoint] at hhand
      cases hhand
  · rw [h.inFlight]
    exact still.2

/-- Patient workers keep to the protocol in which verdicts are final. -/
theorem exists_follows_patient (h : ((workers hash).guarded Patient).Reach s) :
    ∃ A, (machine Quiet).Reach A ∧ Follows s A := by
  refine h.simulated (fun _ fresh => exists_follows_fresh fresh) ?_
  intro s event s' A _ hr follows move
  refine follows.next hr move.2 ?_
  intro w r call dispatch errorClass hevent hpoint hr
  exact follows.quiet (move.1 w r call dispatch errorClass hevent hpoint hr)

/-- An action that is open, or ended without a conclusion, has no receipt that
says failed and holds its target. -/
theorem Files.holds {a : ActionRow} (h : Files db phase) (ha : a ∈ db.actions)
    (hopen : (∃ stage lease, phase a.id = .pending stage lease) ∨
      phase a.id = .settled .unknown) :
    (∀ receipt ∈ db.executionReceipts, receipt.actionId = a.id → receipt.result ≠ .failed) ∧
      ∃ r ∈ db.reservations, r.active = true ∧ r.targetKey = a.targetKey ∧ r.actionId = a.id := by
  have hf := h.filed a.id
  have hmem : a ∈ (db.file a.id).actions := List.mem_filter.mpr ⟨ha, by simp⟩
  have hreceipts : ∀ receipt ∈ db.executionReceipts, receipt.actionId = a.id →
      receipt ∈ (db.file a.id).receipts :=
    fun receipt hm haction => List.mem_filter.mpr ⟨hm, by simp [haction]⟩
  have hreservations : ∀ r ∈ (db.file a.id).reservations, r ∈ db.reservations ∧ r.actionId = a.id :=
    fun r hr => by simpa [Database.file] using hr
  generalize db.file a.id = f at hf hmem hreceipts hreservations
  generalize phase a.id = p at hf hopen
  cases hf with
  | untouched | reserved | withdrawn => simp at hopen
  | @pending a' r d ph open_ target =>
    cases List.mem_singleton.mp hmem
    obtain ⟨hr, haction⟩ := hreservations r (by simp)
    exact ⟨fun receipt hm haction => absurd (hreceipts receipt hm haction) List.not_mem_nil, r, hr, open_, target,
      haction⟩
  | @settled a' r d e held target =>
    cases List.mem_singleton.mp hmem
    obtain ⟨hr, haction⟩ := hreservations r (by simp)
    have hresult : e.result = .ambiguous := by
      cases he : e.result <;> simp [he, ExecutionResult.verdict] at hopen ⊢
    refine ⟨fun receipt hm haction => ?_, r, hr, by simp [held, hresult], target, haction⟩
    rw [List.mem_singleton.mp (hreceipts receipt hm haction), hresult]
    simp

/-- Where reconciliations conclude only once no mutation is still to come, every
mutation takes effect while its action may have one. -/
theorem effects_timely (h : ((workers hash).guarded Patient).Reach s) :
    ∀ e ∈ s.effects, e.Timely := by
  refine h.invariant (I := fun s => ∀ e ∈ s.effects, e.Timely) ?_ ?_
  · intro s fresh
    simp [fresh.effects]
  · intro s event s' hs timely move
    cases State.next_move move.2 with
    | @deliver actionId action flying mem hid =>
      obtain ⟨A, hA, follows⟩ := exists_follows_patient hs
      intro e he
      rcases List.mem_cons.mp he with rfl | he
      · subst hid
        have hopen := open_of_flying hA (j := action.id) (follows.inFlight ▸ flying)
        obtain ⟨hreceipts, r, hr, hactive, htarget, haction⟩ := follows.files.holds mem hopen
        refine ⟨hreceipts, fun r' hr' hactive' htarget' => ?_⟩
        have hid := (targets_of_reach hs.of_guarded).one r hr r' hr' hactive hactive'
          (htarget.trans htarget'.symm)
        exact (follows.files.keys.reservations.eq_of_key hr hr' hid) ▸ haction
      · exact timely e he
    | _ => exact timely

theorem effects_timely_pool : ∃ s, ((workers firstField).guarded Patient).Reach s ∧
    (s.effects.length == 1) = true ∧ ∀ e ∈ s.effects, e.Timely := by
  obtain ⟨s, path, hone⟩ :=
    (Machine.exists_path (by decide +kernel) : ∃ s,
      (workers firstField).Path poolState (poolClaimed ++ [.mutate 0, .deliver "act_1"]) s ∧
        (s.effects.length == 1) = true)
  have patient : ((workers firstField).guarded Patient).Reach s := by
    refine (path.guarded ?_).reach (.start poolState_fresh)
    intro event hevent _ w r call dispatch errorClass heq
    subst heq
    simp [poolClaimed] at hevent
  exact ⟨s, patient, hone, effects_timely patient⟩

/-- The worker that took over hears that nothing happened, and settles. Then
the one it took over from sends. -/
theorem effect_after_failed_receipt : ∃ s, (workers firstField).Reach s ∧
    s.effects.any (fun e =>
      e.before.executionReceipts.any (fun receipt => receipt.actionId == e.actionId &&
        receipt.result == .failed) &&
      e.before.dispatches.any (fun d => d.actionId == e.actionId && d.status == .executed) &&
      !e.before.reservations.any (fun r => r.actionId == e.actionId && r.active)) = true := by
  refine Machine.exists_reach (poolTakenOver ++
    [.reconcile 1 (.ok ⟨.noEffectConfirmed, none, 60000000⟩), .audit 1 (.ok "audit_1"),
      .finalize 1 "rcp_1", .mutate 0, .deliver "act_1"]) poolState_fresh ?_
  decide +kernel

end Solvan.Actuator
