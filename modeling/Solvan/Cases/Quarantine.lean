import Solvan.Cases.Coordinator

namespace Solvan.Cases
open Claims
open Queues (Queue)

variable {started started' : List (String × Token)} {q q' : Queue Wakeup WakeupOutcome}
  {kinds : Event String Token WakeupOutcome → Prop} {s s' : CaseStore} {wakeup : Wakeup}

/-- The token of a claim that has lapsed on a wakeup nobody gave back. -/
def Wakeup.lapsedUnder (now : Int) (r : Wakeup) : Option Token :=
  match r.status with
  | .claimed hold => if hold.expires < now then some hold.token else none
  | _ => none

/-- The handler of every wakeup whose claim has lapsed was started under it. -/
def LapsedStarted (started : List (String × Token)) (q : Queue Wakeup WakeupOutcome) : Prop :=
  ∀ r ∈ q.rows, ∀ token ∈ r.lapsedUnder q.now, (r.id, token) ∈ started

/-- Claims of a wakeup that is not completed are used by its handler, refunded,
or outstanding, and a quarantined wakeup has spent its budget. -/
structure Fair (started : List (String × Token)) (q : Queue Wakeup WakeupOutcome) : Prop where
  used : ∀ r ∈ q.rows, r.status ≠ .completed →
    UsedOrRefunded (fun token => (r.id, token) ∈ started) (about r.id q.ledger)
  spent : ∀ r ∈ q.rows, r.status = .quarantined → wakeupClaimAttemptBudget ≤ r.attempts

theorem Fair.mono (h : Fair started q) (more : ∀ entry ∈ started, entry ∈ started') :
    Fair started' q := by
  refine ⟨?_, h.spent⟩
  intro r hr open_ token ht
  rcases h.used r hr open_ token ht with hu | hrest
  · exact .inl (more _ hu)
  · exact .inr hrest

theorem Wakeup.phase_done {outcome : WakeupOutcome} (h : wakeup.item.phase = .done outcome) :
    wakeup.status = .completed ∧ outcome = .completed ∨
      wakeup.status = .quarantined ∧ outcome = .quarantined := by
  unfold Wakeup.item at h
  cases hs : wakeup.status <;> simp_all

theorem Wakeup.phase_held {hold : Hold String Token} (h : wakeup.item.phase = .held hold) :
    wakeup.status = .claimed hold := by
  unfold Wakeup.item at h
  cases hs : wakeup.status <;> simp_all

/-- Nothing but the budget check quarantines a wakeup. -/
theorem quarantined_by_park {budget : Nat} {now : Int} {P : Prop}
    {item item' : Item String Token WakeupOutcome} {event : Event String Token WakeupOutcome}
    (move : Step budget now item event item') (hd : item'.phase = .done .quarantined)
    (hk : Mild event ∨ Charging event ∧ P) :
    event = .park .quarantined ∧ budget ≤ item'.attempts := by
  rcases move.done_cases hd with ⟨_, _, rfl⟩ | rfl | hpark
  · rcases hk with hm | ⟨hc, -⟩
    · cases hm
    · exact hc.elim
  · rcases hk with hm | ⟨hc, -⟩
    · cases hm
    · exact hc.elim
  · exact hpark

/-- A change keeps the claims accounted for, if it charges for lapsed claims
only once their handlers were started. -/
theorem Fair.change (h : Fair started q) (change : WakeupChange kinds q q')
    (hb : q.Booked wakeupClaimAttemptBudget Wakeup.id Wakeup.item)
    (listed : ∀ event, kinds event → Mild event ∨ Charging event ∧ LapsedStarted started q) :
    Fair started q' := by
  refine ⟨?_, ?_⟩
  · intro r' hr' open_
    rcases change.row_cases hb.unique hb.known hr' with
      ⟨hr, hlog⟩ | ⟨-, hlog⟩ | ⟨r, hr, event, hid, hk, move, hlog⟩
    · rw [hlog]
      exact h.used r' hr open_
    · rw [hlog]
      exact fun _ ht => by cases ht
    · have hopen : r.status ≠ .completed := by
        intro hd
        have hp : r.item.phase = .done .completed := by simp only [Wakeup.item, hd]
        exact move.not_done hp
      rw [hlog, hid]
      refine (h.used r hr hopen).step (hb.account r hr) move ?_ ?_ ?_
      · rintro owner token rfl
        rcases listed _ hk with hm | ⟨hc, -⟩
        · cases hm
        · exact hc
      · intro outcome hd
        rcases Wakeup.phase_done hd with ⟨hs, -⟩ | ⟨-, rfl⟩
        · exact absurd hs open_
        · exact (quarantined_by_park move hd (listed _ hk)).1
      · intro hcharged hold hp hlapsed
        rcases listed _ hk with hm | ⟨-, lapsed⟩
        · rcases hcharged with ⟨_, rfl⟩ | ⟨_, rfl⟩
          · exact hm.elim
          · exact hm.elim
        · refine lapsed r hr hold.token ?_
          simp [Wakeup.lapsedUnder, Wakeup.phase_held hp, hlapsed]
  · intro r' hr' hq
    rcases change.row_cases hb.unique hb.known hr' with
      ⟨hr, -⟩ | ⟨hfree, -⟩ | ⟨r, hr, event, hid, hk, move, -⟩
    · exact h.spent r' hr hq
    · simp [Wakeup.item, hq] at hfree
    · have hd : r'.item.phase = .done .quarantined := by simp only [Wakeup.item, hq]
      exact (quarantined_by_park move hd (listed _ hk)).2

theorem Fair.mild (h : Fair started q) (change : WakeupChange Mild q q')
    (hb : q.Booked wakeupClaimAttemptBudget Wakeup.id Wakeup.item) : Fair started q' :=
  h.change change hb (fun _ => .inl)

theorem Fair.charging (h : Fair started q) (change : WakeupChange Charging q q')
    (hb : q.Booked wakeupClaimAttemptBudget Wakeup.id Wakeup.item)
    (lapsed : LapsedStarted started q) : Fair started q' :=
  h.change change hb (fun _ hc => .inr ⟨hc, lapsed⟩)

theorem LapsedStarted.quarantine (h : LapsedStarted started q) :
    LapsedStarted started (quarantineWakeups q) := by
  intro r hr token ht
  rcases Table.update_cases hr with ⟨_, -, -, rfl⟩ | ⟨hr, -⟩
  · cases ht
  · exact h r hr token ht

theorem claimDue_fair {owner : String} {ttl batchSize : Nat} {token : Token} {locked : List String}
    (hs : Continuous s) (h : Fair started s.wakeups) (lapsed : LapsedStarted started s.wakeups)
    (move : s.next (.claimDue owner ttl batchSize token locked) = some s') :
    Fair started s'.wakeups := by
  obtain ⟨⟨_, returned⟩, hc, rfl⟩ := Option.map_eq_some_iff.mp move
  simp only [claimDueWakeups, Option.ite_none_left_eq_some] at hc
  obtain ⟨hok, hc⟩ := hc
  cases hc
  have hq := h.charging quarantineWakeups_change hs.booked lapsed
  have hb := quarantineWakeups_change.booked hs.booked
  have fresh : token ∉ (quarantineWakeups s.wakeups).issued := fun hi => hok (.inr (.inr hi))
  exact hq.charging (takeWakeups_change hb.unique fresh) hb lapsed.quarantine

/-- Completing one wakeup and scheduling the next. -/
theorem Fair.replace {mid : CaseStore} {next : Wakeup} (hs : Continuous s)
    (h : Fair started s.wakeups) (completes : Completes s wakeup mid)
    (schedules : Schedules mid next s') : Fair started s'.wakeups :=
  (h.mild completes.change hs.booked).mild schedules.change (completes.change.booked hs.booked)

/-- Transactions that claim nothing and refund what they give back. -/
theorem next_fair {move : CaseMove} (hs : Continuous s) (h : Fair started s.wakeups)
    (unclaiming : ∀ owner ttl batchSize token locked,
      move ≠ .claimDue owner ttl batchSize token locked)
    (refunding : ∀ owner claim, move ≠ .release owner claim false)
    (step : s.next move = some s') : Fair started s'.wakeups := by
  have hu := hs.booked.unique
  cases move with
  | tick micros =>
    cases step
    exact ⟨h.used, h.spent⟩
  | incidents rows => cases step; exact h
  | openCase incidentId authority schedule caseId wakeupId =>
    obtain ⟨incident, -, step⟩ := Option.bind_eq_some_iff.mp step
    simp only [] at step
    split at step
    · split at step
      · cases step; exact h
      · cases step
    · split at step
      · cases step
      · exact h.mild (insertWakeup_schedules rfl rfl step).change hs.booked
  | claimDue owner ttl batchSize token locked => exact (unclaiming _ _ _ _ _ rfl).elim
  | heartbeat owner claim ttl =>
    simp only [CaseStore.next, Option.ite_none_right_eq_some] at step
    obtain ⟨_, rfl, change⟩ := heartbeatWakeup_change step.2
    exact h.mild change hs.booked
  | release owner claim refundAttempt =>
    simp only [CaseStore.next, Option.ite_none_right_eq_some] at step
    obtain ⟨_, rfl, change⟩ := releaseClaimedWakeup_change step.2
    cases refundAttempt with
    | false => exact (refunding _ _ rfl).elim
    | true => exact h.change change hs.booked (fun _ hm => .inl (hm rfl))
  | defer owner claim wakeAt localNow reason wakeupId =>
    simp only [CaseStore.next, Option.ite_none_right_eq_some] at step
    obtain ⟨mid, hm, schedules⟩ := deferClaimed_steps step.2
    obtain ⟨_, -, completes⟩ := completeWakeup_completes hu hm
    exact h.replace hs completes schedules
  | acquireLease caseId owner ttl token =>
    obtain ⟨⟨_, lease⟩, hl, rfl⟩ := Option.map_eq_some_iff.mp step
    simp only [acquireCaseLease, Option.ite_none_left_eq_some] at hl
    obtain ⟨c, -, hl⟩ := Option.bind_eq_some_iff.mp hl.2
    cases hl
    exact h
  | releaseLease lease =>
    simp only [CaseStore.next, releaseCaseLease, Option.ite_none_right_eq_some] at step
    cases step.2
    exact h
  | advance owner claim lease progress wakeupId =>
    simp only [CaseStore.next, Option.ite_none_right_eq_some] at step
    obtain ⟨mid, hm, hp⟩ := Option.bind_eq_some_iff.mp step.2
    obtain ⟨_, -, completes⟩ := completeWakeup_completes hu hm
    exact h.replace hs completes (commitProgress_schedules hp)
  | advanceUnclaimed lease progress wakeupId =>
    obtain ⟨mid, hm, hp⟩ := Option.bind_eq_some_iff.mp step
    obtain ⟨_, -, -, -, completes⟩ := completeActive_completes hu hm
    exact h.replace hs completes (commitProgress_schedules hp)

/-- A tick begins only while every claim that has lapsed unreleased was one
its wakeup's handler was started under. -/
def HandlersStart (w : Coordinators) : CoordinatorMove → Prop
  | .resume .. => LapsedStarted w.started w.store.wakeups
  | _ => True

instance (w : Coordinators) (move : CoordinatorMove) : Decidable (HandlersStart w move) := by
  unfold HandlersStart LapsedStarted
  cases move <;> infer_instance

variable {owner : Nat → String} {w : Coordinators} {move : CoordinatorMove}

theorem StoreStep.fair (step : StoreStep w.store move s') (hs : Continuous w.store)
    (h : Fair w.started w.store.wakeups) (allowed : HandlersStart w move) :
    Fair w.started s'.wakeups := by
  cases step with
  | same => exact h
  | claim step => exact claimDue_fair hs h allowed step
  | mild step unclaiming refunding => exact next_fair hs h unclaiming refunding step

theorem handlersStart_fair (h : ((coordinators owner).guarded HandlersStart).Reach w) :
    Fair w.started w.store.wakeups := by
  refine h.invariant (I := fun w => Fair w.started w.store.wakeups) ?_ ?_
  · rintro _ ⟨now, incidents, rfl⟩
    exact ⟨fun _ hr => (nomatch hr), fun _ hr => (nomatch hr)⟩
  · rintro w move w' reach hw ⟨allowed, step⟩
    obtain ⟨sound, cases⟩ := coordinators_reach reach.of_guarded
    have hs := reach_continuous cases
    have stepped := next_stepped sound step
    exact (stepped.store.fair hs hw allowed).mono stepped.started

/-- While ticks begin only with lapsed claims used, a wakeup is quarantined
only once its handler was started under a whole budget of claims. -/
theorem quarantined_after_handlers (h : ((coordinators owner).guarded HandlersStart).Reach w) :
    ∀ r ∈ w.store.wakeups.rows, r.status = .quarantined →
      wakeupClaimAttemptBudget ≤ (startedClaims r.id w.started).length := by
  intro r hr hq
  have fair := handlersStart_fair h
  have hs := reach_continuous (coordinators_reach h.of_guarded).2
  have account := hs.booked.account r hr
  have hd : r.item.phase = .done .quarantined := by simp only [Wakeup.item, hq]
  have settled : outstanding (about r.id w.store.wakeups.ledger) = none := by
    rcases account.phase_cases with ⟨-, hn, -⟩ | ⟨_, hp, -⟩ | ⟨_, -, hn, -⟩
    · exact hn
    · rw [hd] at hp; cases hp
    · exact hn
  have counted : r.attempts + _ = _ := account.counted.1
  have spent := fair.spent r hr hq
  refine (fair.used r hr (by simp [hq])).spent (hs.booked.tokens r hr) settled (by omega) ?_
  intro token hu
  exact mem_startedClaims.mpr hu

section Example
open Workflow (IncidentRow)

def secondIncident : IncidentRow := { mitigatedIncident with id := "inc_2" }

def twoCases : List CoordinatorMove :=
  [.env (.incidents [mitigatedIncident, secondIncident]),
    .env (.openCase "inc_1" ⟨"coordinator", 90, 7⟩ ⟨"case:1", "START_RCA", 0, "opened"⟩ "case_1"
      "wak_1"),
    .env (.openCase "inc_2" ⟨"coordinator", 90, 7⟩ ⟨"case:1", "START_RCA", 1, "opened"⟩ "case_2"
      "wak_2"),
    .env (.tick 1)]

/-- A tick whose first step outlives the claim of the second and then fails:
the second step is never looked at under a live claim. -/
def slowTick (token : Token) : List CoordinatorMove :=
  [.resume 0 token [], .look 0, .lease 0 (100 + token), .env (.tick 121000000), .fault 0, .finish 0,
    .look 0]

def idleCoordinators : Coordinators := ⟨.empty 0 [], fun _ => .idle, []⟩

theorem slow_ticks_quarantine :
    (Machine.runFn (Coordinators.next fun _ => "a") idleCoordinators
      (twoCases ++ (List.range 5).flatMap slowTick ++ [.resume 0 5 []])).any (fun w =>
        w.store.wakeups.rows.any (fun r =>
          r.status == .quarantined && (startedClaims r.id w.started).isEmpty)) = true := by
  rfl

/-- A wakeup can be quarantined though its handler was never started. -/
theorem quarantined_unstarted :
    ¬ ∀ (owner : Nat → String) (w : Coordinators), (coordinators owner).Reach w →
      ∀ r ∈ w.store.wakeups.rows, r.status = .quarantined →
        wakeupClaimAttemptBudget ≤ (startedClaims r.id w.started).length := by
  intro hall
  obtain ⟨w, reach, hw⟩ : ∃ w, (coordinators fun _ => "a").Reach w ∧ _ :=
    Machine.exists_reach _ ⟨0, [], rfl⟩ slow_ticks_quarantine
  obtain ⟨r, hr, hr'⟩ := List.any_eq_true.mp hw
  simp only [Bool.and_eq_true, beq_iff_eq, List.isEmpty_iff] at hr'
  have hlen := hall _ w reach r hr hr'.1
  rw [hr'.2] at hlen
  exact absurd hlen (by decide)

/-- A tick whose only step is started and fails. -/
def failingTick (token : Token) : List CoordinatorMove :=
  [.resume 0 token [], .look 0, .lease 0 (100 + token), .fault 0, .finish 0, .look 0,
    .env (.tick 121000000)]

theorem failing_ticks_quarantine :
    (Machine.runFn (Machine.guardFn HandlersStart (Coordinators.next fun _ => "a"))
      idleCoordinators
      (twoCases.take 2 ++ (List.range 5).flatMap failingTick ++ [.resume 0 5 []])).any (fun w =>
        w.store.wakeups.rows.any (fun r => r.status == .quarantined)) = true := by
  rfl

theorem quarantined_after_failing_ticks :
    ∃ w, ((coordinators fun _ => "a").guarded HandlersStart).Reach w ∧
      ∃ r ∈ w.store.wakeups.rows, r.status = .quarantined ∧
        5 ≤ (startedClaims r.id w.started).length := by
  have fresh : idleCoordinators.Fresh := ⟨0, [], rfl⟩
  obtain ⟨w, reach, hw⟩ := Machine.exists_reach _ fresh failing_ticks_quarantine
  obtain ⟨r, hr, hq⟩ := List.any_eq_true.mp hw
  have guarded : ((coordinators fun _ => "a").guarded HandlersStart).Reach w := reach.of_guardFn
  exact ⟨w, guarded, r, hr, beq_iff_eq.mp hq,
    quarantined_after_handlers guarded r hr (beq_iff_eq.mp hq)⟩

end Example

end Solvan.Cases
