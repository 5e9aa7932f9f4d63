import Solvan.Investigation.Agreement

namespace Solvan.Investigation
open Attempts (Task)

variable {hashing : Hashing} {s s' : InvestigationStore} {step step' : StepRow}
  {runs runs' : List RunRow} {allowed : Turn → Prop} {move : InvestigationMove}

/-- The second attempt at a step was made no sooner than the backoff after the
end of the first. -/
def RetriesDeferred (s : InvestigationStore) : Prop :=
  ∀ step ∈ s.steps, ∀ first ∈ s.runsOf step.id, ∀ second ∈ s.runsOf step.id,
    first.attempt = 1 → second.attempt = 2 →
      ∃ ended, first.completedAt = some ended ∧
        ended + milliseconds dispatchRetryBackoffMs ≤ second.createdAt

/-- A transaction that does not end a first attempt by the sweep, nor by
rejecting its result, where the step has a fallback. -/
def Defers (s : InvestigationStore) : InvestigationMove → Prop
  | .reserveReadyDispatches incidentId _ _ _ => ¬Burns s incidentId
  | .commitAgentCompletion _ completion _ => ¬Rejects s completion
  | _ => True

instance (s : InvestigationStore) (move : InvestigationMove) : Decidable (Defers s move) := by
  cases move <;> unfold Defers <;> infer_instance

theorem Defers.turns (h : Defers s move) : ¬move.turns s .unputOff := by
  cases move with
  | reserveReadyDispatches incidentId authority batchSize news => exact h
  | commitAgentCompletion authority completion evidence => exact h
  | _ => exact id

/-- A step and its runs, every retry put off. -/
structure Deferred (step : StepRow) (runs : List RunRow) : Prop where
  shape : Shape step runs
  putOff : (task step runs).PutOff (milliseconds dispatchRetryBackoffMs)

theorem putsOff_iff (put : ¬allowed .unputOff) (now : Int) : PutsOff allowed now =
    Attempts.PutsOff (milliseconds dispatchRetryBackoffMs) now := by
  funext notBefore
  exact propext ⟨fun h => h.resolve_left put, .inr⟩

theorem Evolves.deferred {now : Int} (h : Evolves allowed now (step, runs) (step', runs'))
    (put : ¬allowed .unputOff) (d : Deferred step runs) : Deferred step' runs' := by
  have hattempts := h.attempts d.shape
  rw [putsOff_iff put] at hattempts
  exact ⟨h.shape d.shape, hattempts.putOff d.shape.sound d.putOff⟩

theorem Leads.deferred {now : Int} {t t' : StepRow × List RunRow} (h : Leads allowed now t t')
    (put : ¬allowed .unputOff) (d : Deferred t.1 t.2) : Deferred t'.1 t'.2 := by
  induction h with
  | refl => exact d
  | tail _ hlast ih => exact hlast.deferred put ih

/-- Nothing has been put off for a step without runs. -/
theorem Shape.deferred_nil (shape : Shape step []) : Deferred step [] :=
  ⟨shape, .nil, fun _ _ _ ht => nomatch ht⟩

theorem Moves.deferred (m : Moves allowed s s') (put : ¬allowed .unputOff)
    (d : ∀ step ∈ s.steps, Deferred step (s.runsOf step.id)) :
    ∀ step ∈ s'.steps, Deferred step (s'.runsOf step.id) := by
  intro step' hm'
  obtain ⟨step, runs, hleads, hfrom⟩ := m.back step' hm'
  rcases hfrom with ⟨hm, rfl⟩ | ⟨hnew, rfl⟩
  · exact hleads.deferred put (d step hm)
  · exact hleads.deferred put hnew.deferred_nil

theorem reach_deferred (h : ((investigationMachine hashing).guarded Defers).Reach s) :
    ∀ step ∈ s.steps, Deferred step (s.runsOf step.id) := by
  refine h.invariant (I := fun s => ∀ step ∈ s.steps, Deferred step (s.runsOf step.id))
    (fun s hstart step hm => ?_) (fun s move s' reach d hstep => ?_)
  · obtain ⟨now, rfl⟩ := hstart
    cases hm
  · obtain ⟨defers, hnext⟩ := hstep
    obtain ⟨-, hmoves⟩ := next_sound (reach_sound reach.of_guarded) hnext
    exact hmoves.deferred defers.turns d

/-- The first two runs of a step, one after the other. -/
theorem Deferred.follows {first second : RunRow} (d : Deferred step runs) (hf : first ∈ runs)
    (hs : second ∈ runs) (one : first.attempt = 1) (two : second.attempt = 2) :
    Attempts.Follows (milliseconds dispatchRetryBackoffMs) first.try_ second.try_ := by
  have hnumbered := d.shape.numbered
  have hlength := d.shape.length_le_two
  have hchain := d.putOff.chain
  match runs with
  | [] => cases hf
  | [a] =>
    have ha : a.attempt = 1 := by simpa using hnumbered
    rw [List.mem_singleton.mp hs, ha] at two
    cases two
  | [a, b] =>
    have hab : a.attempt = 1 ∧ b.attempt = 2 := by simpa [List.range'] using hnumbered
    have hfirst : first = a := by
      rcases List.mem_cons.mp hf with rfl | hf
      · rfl
      · rw [List.mem_singleton.mp hf, hab.2] at one
        cases one
    have hsecond : second = b := by
      rcases List.mem_cons.mp hs with rfl | hs
      · rw [hab.1] at two
        cases two
      · exact List.mem_singleton.mp hs
    rw [hfirst, hsecond]
    exact (List.isChain_cons_cons.mp hchain).1
  | a :: b :: c :: rest =>
    simp only [List.length_cons] at hlength
    omega

/-- Every statement that ends an attempt, but the sweep and the rejection of a
result, puts the retry off. -/
theorem retries_deferred (h : ((investigationMachine hashing).guarded Defers).Reach s) :
    RetriesDeferred s := by
  intro step hm first hf second hs one two
  exact (reach_deferred h step hm).follows hf hs one two

section Example

/-- The attempt is not dispatched in time, and the sweep makes the next one at once. -/
def burnt : List InvestigationMove :=
  dispatchedOnce (some "fallback") ++ [.tick 2000000,
    .reserveReadyDispatches "inc_1" coordinator 1 [⟨"run_2", "inv_2", "trace_2", "span_2", .null⟩]]

theorem retries_not_deferred :
    ¬∀ s, (investigationMachine named).Reach s → RetriesDeferred s := by
  intro hall
  have hrun : ((Machine.runFn (InvestigationStore.next named) (.empty 0) burnt).any (fun s =>
      s.steps.map StepRow.id == ["step_1"] &&
      (s.runsOf "step_1").map (fun r => (r.attempt, r.completedAt, r.createdAt)) ==
        [(1, some 2000000, 0), (2, none, 2000000)])) = true := by
    decide +kernel
  obtain ⟨s, reach, hs⟩ := (Machine.exists_reach burnt ⟨0, rfl⟩ hrun :
    ∃ s, (investigationMachine named).Reach s ∧ _)
  rw [Bool.and_eq_true, beq_iff_eq, beq_iff_eq] at hs
  obtain ⟨step, hsteps, hid⟩ := List.map_eq_singleton_iff.mp hs.1
  obtain ⟨first, rest, hruns, hfirst, hrest⟩ := List.map_eq_cons_iff.mp hs.2
  obtain ⟨second, rfl, hsecond⟩ := List.map_eq_singleton_iff.mp hrest
  simp only [Prod.mk.injEq] at hfirst hsecond
  obtain ⟨ended, hended, hle⟩ := hall s reach step (by simp [hsteps]) first (by simp [hid, hruns])
    second (by simp [hid, hruns]) hfirst.1 hsecond.1
  rw [hfirst.2.1, Option.some.injEq] at hended
  rw [hsecond.2.2, ← hended] at hle
  exact absurd hle (by decide)

/-- A run that cannot be dispatched is put off, and the fallback is reserved later. -/
def putOff : List InvestigationMove :=
  dispatchedOnce (some "fallback") ++ [
    .recordRuntimeDispatchFailure ⟨"run_1", "inv_1", "inc_1", "plan_1", 1, "step_1", "logs",
      .investigation "inc_1" 1 "logs", "log-reader", "agents/log-reader", "1", "payments",
      "read the logs", [], 3, 1000000, ⟨1000, 1, 1000, 1, 0, thousand_valid⟩,
      "db://solvan/investigation-steps/step_1", "inc_1step_1", "trace_1", "span_1", .null⟩ "unavailable",
    .tick 30000000,
    .reserveReadyDispatches "inc_1" coordinator 1 [⟨"run_2", "inv_2", "trace_2", "span_2", .null⟩]]

theorem retries_deferred_putOff :
    ∃ s, s.runs.map RunRow.attempt = [1, 1, 2] ∧ RetriesDeferred s := by
  have hrun : ((Machine.runFn (Machine.guardFn Defers (InvestigationStore.next named)) (.empty 0)
      putOff).any (fun s => s.runs.map RunRow.attempt == [1, 1, 2])) = true := by
    decide +kernel
  obtain ⟨s, reach, hs⟩ := (Machine.exists_reach putOff ⟨0, rfl⟩ hrun :
    ∃ s, (Machine.ofFn (fun s => ∃ now, s = .empty now)
      (Machine.guardFn Defers (InvestigationStore.next named))).Reach s ∧ _)
  have hguarded : ((investigationMachine named).guarded Defers).Reach s := reach.of_guardFn
  exact ⟨s, beq_iff_eq.mp hs, retries_deferred hguarded⟩

end Example

end Solvan.Investigation
