import Solvan.Actuator.Safety

namespace Solvan.Actuator
open Fencing (Hand Lease Phase Stage System machine sound_of_reach)
open Mitigation (TargetEpochRow)
open Workflow (ActionRow ActionStatus IncidentRow)

variable (hash : Json → String)

/-- `execute_action`: the invocation is required before anything is recovered. -/
def executeAction (db : Database) (actuator : ActionActuator) (invocationId actionId : String)
    (dispatchToken reservationToken : Token) :
    Except ExecutionError (Called (Option ActuatorDispatch)) := do
  let db ← requireExecutionInvocation db invocationId actionId
  return claimRecovery hash db actionId actuator.actuatorId actuator.actorIdentity
    actuator.reservationTtlMs dispatchToken reservationToken

/-- An invocation of the execution agent that is bound to the action, whose
incident is where it was. -/
def boundInvocation (db : Database) (invocationId actionId : String) : Bool :=
  db.agentRuns.any (fun r => r.invocationId == invocationId && r.agentKey == "execution-agent" &&
    r.actionId == some actionId && (r.status == .dispatched || r.status == .running) &&
    decide (db.now < r.deadline) &&
    db.actions.any (fun a => a.id == actionId && a.workflowVersion == r.workflowVersion &&
      db.incidents.any (fun i => i.id == a.incidentId && i.state == .mitigating &&
        i.workflowVersion == r.workflowVersion)))

variable {hash} {s s' : State} {event : Event} {w : Nat} {d : DispatchRow}
  {reservation : TargetReservation} {failure : Failure}

theorem requireExecutionInvocation_authorized {db db' : Database} {invocationId actionId : String}
    (h : requireExecutionInvocation db invocationId actionId = .ok db') :
    ∃ a ∈ db.actions, a.id = actionId ∧ a.status = .authorized := by
  unfold requireExecutionInvocation at h
  dsimp only at h
  split at h
  · rename_i hany
    obtain ⟨r, -, hbound⟩ := List.any_eq_true.mp hany
    simp only [Bool.and_eq_true, List.any_eq_true, beq_iff_eq] at hbound
    obtain ⟨-, a, ha, ⟨⟨hid, hstatus⟩, -⟩, -⟩ := hbound
    exact ⟨a, ha, hid, hstatus⟩
  · cases h

/-- An action whose dispatch is outstanding is in execution, so no invocation
gets a call through to its recovery. -/
theorem interrupted_never_admitted (h : (workers hash).Reach s) (hd : d ∈ s.db.dispatches)
    (outstanding : d.isOutstanding = true) (actuator : ActionActuator) (invocationId : String)
    (dispatchToken reservationToken : Token) :
    executeAction hash s.db actuator invocationId d.actionId dispatchToken reservationToken =
      .error (.actionPolicyError "execution_invocation_not_bound_to_action") := by
  obtain ⟨A, -, follows⟩ := exists_follows h
  obtain ⟨phase, hstatus⟩ : ∃ phase, d.status = .outstanding phase := by
    unfold DispatchRow.isOutstanding at outstanding
    split at outstanding
    · rename_i phase hstatus
      exact ⟨phase, hstatus⟩
    · cases outstanding
  obtain ⟨a, r, d', ph, o⟩ := follows.files.outstanding (follows.files.phase_of_outstanding hd hstatus)
  obtain ⟨⟨ha, haid⟩, -, -⟩ := o.mem
  have hrefused : requireExecutionInvocation s.db invocationId d.actionId =
      .error (.actionPolicyError "execution_invocation_not_bound_to_action") := by
    cases hrequire : requireExecutionInvocation s.db invocationId d.actionId with
    | ok db' =>
      obtain ⟨a', ha', haid', hauthorized⟩ := requireExecutionInvocation_authorized hrequire
      have heq : a' = a := follows.files.keys.actions.eq_of_key ha' ha (haid'.trans haid.symm)
      rw [heq, o.executing] at hauthorized
      cases hauthorized
    | error error =>
      unfold requireExecutionInvocation at hrequire
      dsimp only at hrequire
      split at hrequire
      · cases hrequire
      · exact hrequire.symm
  simp only [executeAction, hrefused]
  rfl

/-- A claimed mutation whose worker stalled, once its lease has lapsed. -/
theorem interrupted_refused : ∃ s, (workers firstField).Reach s ∧
    (s.db.dispatches.any (fun d => d.actionId == "act_1" && d.status == .outstanding .mutationIssued &&
        decide (d.leaseExpiresAt < s.db.now)) &&
      boundInvocation s.db "inv_1" "act_1" &&
      (executeAction firstField s.db poolCall.actuator "inv_1" "act_1" s.tokens
        (s.tokens + 1)).toOption.isNone) = true := by
  refine Machine.exists_reach (poolClaimed ++ [.tick 60000000]) poolState_fresh ?_
  decide +kernel

theorem interrupted_never_admitted_pool : ∃ s, (workers firstField).Reach s ∧
    ∃ d ∈ s.db.dispatches,
      executeAction firstField s.db poolCall.actuator "inv_1" d.actionId s.tokens (s.tokens + 1) =
        .error (.actionPolicyError "execution_invocation_not_bound_to_action") := by
  obtain ⟨s, hs, hany⟩ :=
    (Machine.exists_reach (poolClaimed ++ [.tick 60000000]) poolState_fresh (by decide +kernel) :
      ∃ s, (workers firstField).Reach s ∧ s.db.dispatches.any DispatchRow.isOutstanding = true)
  obtain ⟨d, hd, outstanding⟩ := List.any_eq_true.mp hany
  exact ⟨s, hs, d, hd, interrupted_never_admitted hs hd outstanding _ _ _ _⟩

end Solvan.Actuator
