import Mathlib.Data.List.Dedup
import Solvan.Cases.Continuity

namespace Solvan.Cases
open Workflow (LeaseHandle)

def startRepairLeaseMs : Nat := 360000
def defaultCaseStepLeaseMs : Nat := 60000
def wakeupClaimTtlMs : Nat := 120000
def wakeupBatchSize : Nat := 10
def recheckDelay : Int := 3600000000

def stepLeaseMs (state : CaseState) : Nat :=
  if state = .repairPlanned then startRepairLeaseMs else defaultCaseStepLeaseMs

def recognized : List (CaseState × String) :=
  [(.opened, "START_RCA"), (.rootCauseAnalysis, "DEFINE_REPAIR"), (.repairPlanned, "START_REPAIR"),
    (.repairInProgress, "REPLAN_REPAIR"), (.readyForCanary, "PREPARE_CANARY")]

def blockedRechecks : List String :=
  ["RECHECK_REPAIR_POLICY", "RECHECK_WORKSPACE_PROVIDER", "REVIEW_FAILED_PATCH",
    "RECHECK_CANARY_PROVIDER"]

/-- The states and next actions a recognized step may commit. -/
def stepOutcomes : CaseState → List (CaseState × String)
  | .opened => [(.rootCauseAnalysis, "DEFINE_REPAIR")]
  | .rootCauseAnalysis => [(.repairPlanned, "START_REPAIR"), (.blocked, "RECHECK_REPAIR_POLICY")]
  | .repairPlanned => [(.repairInProgress, "CHECK_PATCH_RESULT"), (.blocked, "RECHECK_REPAIR_POLICY")]
  | .repairInProgress => [(.repairPlanned, "START_REPAIR"), (.blocked, "REVIEW_FAILED_PATCH")]
  | .readyForCanary => [(.blocked, "RECHECK_CANARY_PROVIDER")]
  | _ => []

/-- `claimed_case_state` -/
def claimedCaseState (s : CaseStore) (owner : String) (claim : ClaimedWakeup) :
    Option (CaseState × String) := do
  let c ← s.cases.find? (fun c => c.id == claim.caseId &&
    s.wakeups.rows.any (fun w => w.caseId == c.id && w.heldBy s.now owner claim))
  return (c.state, c.nextActionKind)

/-- How far one call of `_resume_due_reliability_cases` has come. -/
inductive Point where
  | idle
  | batch (claims : List ClaimedWakeup)
  | deferring (claim : ClaimedWakeup) (rest : List ClaimedWakeup)
  | releasing (claim : ClaimedWakeup) (rest : List ClaimedWakeup)
  | leasing (claim : ClaimedWakeup) (state : CaseState) (rest : List ClaimedWakeup)
  | running (claim : ClaimedWakeup) (state : CaseState) (lease : LeaseHandle)
      (rest : List ClaimedWakeup)
  | conflicted (claim : ClaimedWakeup) (lease : LeaseHandle) (rest : List ClaimedWakeup)
  | finishing (lease : LeaseHandle) (rest : List ClaimedWakeup)
deriving DecidableEq, Repr

/-- The store, where each coordinator is, and the claims under which the
handler of a wakeup's step has been started. -/
structure Coordinators where
  store : CaseStore
  points : Nat → Point
  started : List (String × Token)

inductive CoordinatorMove where
  | env (move : CaseMove)
  | resume (i : Nat) (token : Token) (locked : List String)
  | look (i : Nat)
  | defer (i : Nat) (localNow : Int) (reason wakeupId : String)
  | release (i : Nat)
  | lease (i : Nat) (token : Token)
  | commit (i : Nat) (progress : Progress) (wakeupId : String)
  | conflict (i : Nat)
  | fault (i : Nat)
  | refund (i : Nat)
  | finish (i : Nat)
  | crash (i : Nat)

/-- Transactions other parts of the service make. -/
def CaseMove.outside : CaseMove → Bool
  | .tick _ | .incidents _ | .openCase .. | .acquireLease .. | .releaseLease _
  | .advanceUnclaimed .. => true
  | _ => false

def Coordinators.goto (w : Coordinators) (i : Nat) (point : Point) : Coordinators :=
  { w with points := fun j => if j = i then point else w.points j }

/-- `_release_wakeup` with `refund=True`: that the claim was lost already is
no error. -/
def releaseWakeup (s : CaseStore) (owner : String) (claim : ClaimedWakeup) : CaseStore :=
  (releaseClaimedWakeup s owner claim true).getD s

/-- One statement or transaction of one coordinator. Where the code raises out
of the loop, the coordinator is idle again and the rest of its batch waits for
its claims to lapse. -/
def Coordinators.next (owner : Nat → String) (w : Coordinators) :
    CoordinatorMove → Option Coordinators
  | .env move =>
    if move.outside then (w.store.next move).map ({ w with store := · }) else none
  | .resume i token locked =>
    match w.points i with
    | .idle =>
      (claimDueWakeups w.store (owner i) wakeupClaimTtlMs wakeupBatchSize token locked).map
        (fun claimed => { w with store := claimed.1 }.goto i (.batch claimed.2))
    | _ => none
  | .look i =>
    match w.points i with
    | .batch [] => some (w.goto i .idle)
    | .batch (claim :: rest) =>
      match claimedCaseState w.store (owner i) claim with
      | none => some (w.goto i .idle)
      | some (state, nextAction) =>
        if state = .blocked ∧ nextAction ∈ blockedRechecks then
          some (w.goto i (.deferring claim rest))
        else if (state, nextAction) ∉ recognized then some (w.goto i (.releasing claim rest))
        else some (w.goto i (.leasing claim state rest))
    | _ => none
  | .defer i localNow reason wakeupId =>
    match w.points i with
    | .deferring claim rest =>
      let w := { w with started := (claim.wakeupId, claim.claimToken) :: w.started }
      match deferClaimedWakeup w.store (owner i) claim (localNow + recheckDelay) localNow reason
        wakeupId with
      | none => some (w.goto i .idle)
      | some store => some ({ w with store }.goto i (.batch rest))
    | _ => none
  | .release i =>
    match w.points i with
    | .releasing claim rest =>
      some ({ w with store := releaseWakeup w.store (owner i) claim }.goto i (.batch rest))
    | _ => none
  | .lease i token =>
    match w.points i with
    | .leasing claim state rest =>
      match acquireCaseLease w.store claim.caseId (owner i) (stepLeaseMs state) token with
      | none => some (w.goto i (.releasing claim rest))
      | some (store, lease) =>
        some ({ w with
          store
          started := (claim.wakeupId, claim.claimToken) :: w.started }.goto i
            (.running claim state lease rest))
    | _ => none
  | .commit i progress wakeupId =>
    match w.points i with
    | .running claim state lease rest =>
      if progress.fromState = state ∧
          (progress.toState, progress.schedule.nextActionKind) ∈ stepOutcomes state then do
        let store ← completeWakeup w.store (owner i) claim
        let store ← commitProgressTransition store lease progress wakeupId
        return { w with store }.goto i (.finishing lease rest)
      else none
    | _ => none
  | .conflict i =>
    match w.points i with
    | .running claim _ lease rest => some (w.goto i (.conflicted claim lease rest))
    | _ => none
  | .fault i =>
    match w.points i with
    | .running _ _ lease rest => some (w.goto i (.finishing lease rest))
    | _ => none
  | .refund i =>
    match w.points i with
    | .conflicted claim lease rest =>
      some ({ w with store := releaseWakeup w.store (owner i) claim }.goto i
        (.finishing lease rest))
    | _ => none
  | .finish i =>
    match w.points i with
    | .finishing lease rest =>
      match releaseCaseLease w.store lease with
      | none => some (w.goto i .idle)
      | some store => some ({ w with store }.goto i (.batch rest))
    | _ => none
  | .crash i => some (w.goto i .idle)

def Coordinators.Fresh (w : Coordinators) : Prop :=
  ∃ now incidents, w = ⟨.empty now incidents, fun _ => .idle, []⟩

def coordinators (owner : Nat → String) : Machine Coordinators CoordinatorMove :=
  .ofFn Coordinators.Fresh (Coordinators.next owner)

/-- The claims under which the handler of a wakeup's step was started. -/
def startedClaims (wakeupId : String) (started : List (String × Token)) : List Token :=
  ((started.filter (fun entry => entry.1 == wakeupId)).map Prod.snd).dedup

theorem mem_startedClaims {wakeupId : String} {started : List (String × Token)} {token : Token} :
    token ∈ startedClaims wakeupId started ↔ (wakeupId, token) ∈ started := by
  simp [startedClaims]

/-- What a coordinator holds between its statements: claims it was handed, and
the lease of the case its step is about. -/
def Point.Sound (claims : List ClaimedWakeup) : Point → Prop
  | .idle => True
  | .batch rest | .finishing _ rest => ∀ c ∈ rest, c ∈ claims
  | .deferring claim rest | .releasing claim rest | .leasing claim _ rest =>
    claim ∈ claims ∧ ∀ c ∈ rest, c ∈ claims
  | .running claim _ lease rest | .conflicted claim lease rest =>
    claim ∈ claims ∧ lease.entityId = claim.caseId ∧ ∀ c ∈ rest, c ∈ claims

variable {owner : Nat → String} {w w' : Coordinators} {move : CoordinatorMove} {i : Nat}
  {point : Point} {claims claims' : List ClaimedWakeup}

theorem Point.Sound.mono (h : point.Sound claims) (more : ∀ c ∈ claims, c ∈ claims') :
    point.Sound claims' := by
  cases point with
  | idle => trivial
  | batch rest | finishing lease rest => exact fun c hc => more c (h c hc)
  | deferring claim rest | releasing claim rest | leasing claim state rest =>
    exact ⟨more _ h.1, fun c hc => more c (h.2 c hc)⟩
  | running claim state lease rest | conflicted claim lease rest =>
    exact ⟨more _ h.1, h.2.1, fun c hc => more c (h.2.2 c hc)⟩

/-- What a move does to the store: nothing, or one transaction that refunds
what it gives back and claims only as the start of a tick. -/
inductive StoreStep (s : CaseStore) : CoordinatorMove → CaseStore → Prop where
  | same (move : CoordinatorMove) : StoreStep s move s
  | claim {i : Nat} {token : Token} {locked : List String} {owner : String} {s' : CaseStore}
      (h : s.next (.claimDue owner wakeupClaimTtlMs wakeupBatchSize token locked) = some s') :
      StoreStep s (.resume i token locked) s'
  | mild {move : CoordinatorMove} {caseMove : CaseMove} {s' : CaseStore}
      (h : s.next caseMove = some s')
      (unclaiming : ∀ owner ttl batchSize token locked,
        caseMove ≠ .claimDue owner ttl batchSize token locked)
      (refunding : ∀ owner claim, caseMove ≠ .release owner claim false) : StoreStep s move s'

/-- Claims that have been handed out stay on record. -/
theorem next_claims {s s' : CaseStore} {move : CaseMove} (h : s.next move = some s') :
    ∀ c ∈ s.claims, c ∈ s'.claims := by
  cases move with
  | tick micros => cases h; exact fun _ => id
  | incidents rows => cases h; exact fun _ => id
  | openCase incidentId authority schedule caseId wakeupId =>
    obtain ⟨incident, -, h⟩ := Option.bind_eq_some_iff.mp h
    simp only [] at h
    split at h
    · split at h
      · cases h; exact fun _ => id
      · cases h
    · split at h
      · cases h
      · rw [(insertWakeup_schedules rfl rfl h).claims]
        exact fun _ => id
  | claimDue owner ttl batchSize token locked =>
    obtain ⟨⟨_, returned⟩, hc, rfl⟩ := Option.map_eq_some_iff.mp h
    simp only [claimDueWakeups, Option.ite_none_left_eq_some] at hc
    cases hc.2
    exact fun _ => List.mem_append_right _
  | heartbeat owner claim ttl =>
    simp only [CaseStore.next, Option.ite_none_right_eq_some] at h
    obtain ⟨_, rfl, -⟩ := heartbeatWakeup_change h.2
    exact fun _ => id
  | release owner claim refundAttempt =>
    simp only [CaseStore.next, Option.ite_none_right_eq_some] at h
    obtain ⟨_, rfl, -⟩ := releaseClaimedWakeup_change h.2
    exact fun _ => id
  | defer owner claim wakeAt localNow reason wakeupId =>
    simp only [CaseStore.next, Option.ite_none_right_eq_some] at h
    obtain ⟨mid, hm, schedules⟩ := deferClaimed_steps h.2
    obtain ⟨_, rfl, -⟩ := completeWakeup_change hm
    rw [schedules.claims]
    exact fun _ => id
  | acquireLease caseId owner ttl token =>
    obtain ⟨⟨_, lease⟩, hl, rfl⟩ := Option.map_eq_some_iff.mp h
    simp only [acquireCaseLease, Option.ite_none_left_eq_some] at hl
    obtain ⟨c, -, hl⟩ := Option.bind_eq_some_iff.mp hl.2
    cases hl
    exact fun _ => id
  | releaseLease lease =>
    simp only [CaseStore.next, releaseCaseLease, Option.ite_none_right_eq_some] at h
    cases h.2
    exact fun _ => id
  | advance owner claim lease progress wakeupId =>
    simp only [CaseStore.next, Option.ite_none_right_eq_some] at h
    obtain ⟨mid, hm, hp⟩ := Option.bind_eq_some_iff.mp h.2
    obtain ⟨_, rfl, -⟩ := completeWakeup_change hm
    rw [(commitProgress_schedules hp).claims]
    exact fun _ => id
  | advanceUnclaimed lease progress wakeupId =>
    obtain ⟨mid, hm, hp⟩ := Option.bind_eq_some_iff.mp h
    obtain ⟨_, rfl, -⟩ := completeActive_change hm
    rw [(commitProgress_schedules hp).claims]
    exact fun _ => id

/-- What one move of a coordinator comes to. -/
structure Stepped (w : Coordinators) (move : CoordinatorMove) (w' : Coordinators) : Prop where
  store : StoreStep w.store move w'.store
  claims : ∀ c ∈ w.store.claims, c ∈ w'.store.claims
  points : ∀ j, (w'.points j).Sound w'.store.claims
  started : ∀ entry ∈ w.started, entry ∈ w'.started

def Coordinators.Sound (w : Coordinators) : Prop := ∀ j, (w.points j).Sound w.store.claims

theorem Stepped.of_goto {store : CaseStore} {started : List (String × Token)}
    (sound : w.Sound) (step : StoreStep w.store move store)
    (more : ∀ c ∈ w.store.claims, c ∈ store.claims) (kept : ∀ entry ∈ w.started, entry ∈ started)
    (here : point.Sound store.claims) :
    Stepped w move ({ w with store, started }.goto i point) := by
  refine ⟨step, more, ?_, kept⟩
  intro j
  simp only [Coordinators.goto]
  split
  · exact here
  · exact (sound j).mono more

theorem releaseWakeup_step (move : CoordinatorMove) (owner : String) {s : CaseStore}
    {claim : ClaimedWakeup} (hc : claim ∈ s.claims) : StoreStep s move (releaseWakeup s owner claim) ∧
      (releaseWakeup s owner claim).claims = s.claims := by
  unfold releaseWakeup
  cases h : releaseClaimedWakeup s owner claim true with
  | none => exact ⟨.same move, rfl⟩
  | some s' =>
    have hn : s.next (.release owner claim true) = some s' := by
      simp only [CaseStore.next, if_pos hc]
      exact h
    obtain ⟨_, rfl, -⟩ := releaseClaimedWakeup_change h
    exact ⟨.mild hn (by simp) (by simp), rfl⟩

theorem acquired_entity {s s' : CaseStore} {caseId owner : String} {ttl : Nat} {token : Token}
    {lease : LeaseHandle} (h : acquireCaseLease s caseId owner ttl token = some (s', lease)) :
    lease.entityId = caseId := by
  simp only [acquireCaseLease, Option.ite_none_left_eq_some] at h
  obtain ⟨c, -, h⟩ := Option.bind_eq_some_iff.mp h.2
  cases h
  rfl

theorem outside_mild {s s' : CaseStore} {outer : CaseMove} (ho : outer.outside = true)
    (h : s.next outer = some s') : StoreStep s move s' := by
  refine .mild h ?_ ?_
  · rintro _ _ _ _ _ rfl
    cases ho
  · rintro _ _ rfl
    cases ho

/-- Each move of a coordinator is at most one transaction of the case machine. -/
theorem next_stepped (sound : w.Sound) (h : w.next owner move = some w') :
    Stepped w move w' := by
  cases move with
  | env outer =>
    simp only [Coordinators.next, Option.ite_none_right_eq_some] at h
    obtain ⟨ho, h⟩ := h
    obtain ⟨store, hs, rfl⟩ := Option.map_eq_some_iff.mp h
    have more := next_claims hs
    exact ⟨outside_mild ho hs, more, fun j => (sound j).mono more, fun _ => id⟩
  | resume i token locked =>
    simp only [Coordinators.next] at h
    split at h
    · obtain ⟨⟨store, claimed⟩, hc, rfl⟩ := Option.map_eq_some_iff.mp h
      have hn : w.store.next (.claimDue (owner i) wakeupClaimTtlMs wakeupBatchSize token locked) =
          some store := Option.map_eq_some_iff.mpr ⟨_, hc, rfl⟩
      refine .of_goto sound (.claim hn) (next_claims hn) (fun _ => id) ?_
      simp only [claimDueWakeups, Option.ite_none_left_eq_some] at hc
      cases hc.2
      exact fun _ => List.mem_append_left _
    · cases h
  | look i =>
    have here := sound i
    simp only [Coordinators.next] at h
    split at h
    · cases h
      exact .of_goto sound (.same _) (fun _ => id) (fun _ => id) trivial
    · rename_i claim rest hp
      rw [hp] at here
      have both : claim ∈ w.store.claims ∧ ∀ c ∈ rest, c ∈ w.store.claims :=
        ⟨here claim List.mem_cons_self, fun c hc => here c (List.mem_cons_of_mem _ hc)⟩
      split at h
      · cases h
        exact .of_goto sound (.same _) (fun _ => id) (fun _ => id) trivial
      · split at h
        · cases h
          exact .of_goto sound (.same _) (fun _ => id) (fun _ => id) both
        · split at h
          · cases h
            exact .of_goto sound (.same _) (fun _ => id) (fun _ => id) both
          · cases h
            exact .of_goto sound (.same _) (fun _ => id) (fun _ => id) both
    · cases h
  | defer i localNow reason wakeupId =>
    have here := sound i
    simp only [Coordinators.next] at h
    split at h
    · rename_i claim rest hp
      rw [hp] at here
      split at h
      · cases h
        exact .of_goto sound (.same _) (fun _ => id) (fun _ => List.mem_cons_of_mem _) trivial
      · rename_i store hd
        cases h
        have hn : w.store.next (.defer (owner i) claim (localNow + recheckDelay) localNow reason
            wakeupId) = some store := by
          simp only [CaseStore.next, if_pos here.1]
          exact hd
        have more := next_claims hn
        exact .of_goto sound (.mild hn (by simp) (by simp)) more (fun _ => List.mem_cons_of_mem _)
          (fun c hc => more c (here.2 c hc))
    · cases h
  | release i =>
    have here := sound i
    simp only [Coordinators.next] at h
    split at h
    · rename_i claim rest hp
      rw [hp] at here
      cases h
      obtain ⟨step, same⟩ := releaseWakeup_step (.release i) (owner i) here.1
      exact .of_goto sound step (fun c hc => same ▸ hc) (fun _ => id)
        (fun c hc => same ▸ here.2 c hc)
    · cases h
  | lease i token =>
    have here := sound i
    simp only [Coordinators.next] at h
    split at h
    · rename_i claim state rest hp
      rw [hp] at here
      split at h
      · cases h
        exact .of_goto sound (.same _) (fun _ => id) (fun _ => id) here
      · rename_i store lease hl
        cases h
        have hn : w.store.next (.acquireLease claim.caseId (owner i) (stepLeaseMs state) token) =
            some store := Option.map_eq_some_iff.mpr ⟨_, hl, rfl⟩
        have more := next_claims hn
        refine .of_goto sound (.mild hn (by simp) (by simp)) more
          (fun _ => List.mem_cons_of_mem _) ?_
        exact ⟨more _ here.1, acquired_entity hl, fun c hc => more c (here.2 c hc)⟩
    · cases h
  | commit i progress wakeupId =>
    have here := sound i
    simp only [Coordinators.next] at h
    split at h
    · rename_i claim state lease rest hp
      rw [hp] at here
      rw [Option.ite_none_right_eq_some] at h
      obtain ⟨mid, hm, h⟩ := Option.bind_eq_some_iff.mp h.2
      obtain ⟨store, hs, h⟩ := Option.bind_eq_some_iff.mp h
      cases h
      have hn : w.store.next (.advance (owner i) claim lease progress wakeupId) = some store := by
        simp only [CaseStore.next, if_pos (And.intro here.1 here.2.1)]
        exact Option.bind_eq_some_iff.mpr ⟨mid, hm, hs⟩
      have more := next_claims hn
      exact .of_goto sound (.mild hn (by simp) (by simp)) more (fun _ => id)
        (fun c hc => more c (here.2.2 c hc))
    · cases h
  | conflict i =>
    have here := sound i
    simp only [Coordinators.next] at h
    split at h
    · rename_i claim state lease rest hp
      rw [hp] at here
      cases h
      exact .of_goto sound (.same _) (fun _ => id) (fun _ => id) here
    · cases h
  | fault i =>
    have here := sound i
    simp only [Coordinators.next] at h
    split at h
    · rename_i claim state lease rest hp
      rw [hp] at here
      cases h
      exact .of_goto sound (.same _) (fun _ => id) (fun _ => id) here.2.2
    · cases h
  | refund i =>
    have here := sound i
    simp only [Coordinators.next] at h
    split at h
    · rename_i claim lease rest hp
      rw [hp] at here
      cases h
      obtain ⟨step, same⟩ := releaseWakeup_step (.refund i) (owner i) here.1
      exact .of_goto sound step (fun c hc => same ▸ hc) (fun _ => id)
        (fun c hc => same ▸ here.2.2 c hc)
    · cases h
  | finish i =>
    have here := sound i
    simp only [Coordinators.next] at h
    split at h
    · rename_i lease rest hp
      rw [hp] at here
      split at h
      · cases h
        exact .of_goto sound (.same _) (fun _ => id) (fun _ => id) trivial
      · rename_i store hr
        cases h
        have hn : w.store.next (.releaseLease lease) = some store := hr
        have more := next_claims hn
        exact .of_goto sound (.mild hn (by simp) (by simp)) more (fun _ => id)
          (fun c hc => more c (here c hc))
    · cases h
  | crash i =>
    cases h
    exact .of_goto sound (.same _) (fun _ => id) (fun _ => id) trivial

theorem StoreStep.reach {s s' : CaseStore} (h : StoreStep s move s') (hs : caseMachine.Reach s) :
    caseMachine.Reach s' := by
  cases h with
  | same => exact hs
  | claim h => exact hs.step h
  | mild h unclaiming refunding => exact hs.step h

/-- Coordinators' runs are runs of the case machine. -/
theorem coordinators_reach (h : (coordinators owner).Reach w) :
    w.Sound ∧ caseMachine.Reach w.store := by
  refine h.invariant (I := fun w => w.Sound ∧ caseMachine.Reach w.store) ?_ ?_
  · rintro _ ⟨now, incidents, rfl⟩
    exact ⟨fun _ => trivial, .start ⟨now, incidents, rfl⟩⟩
  · intro w move w' _ hw step
    have stepped := next_stepped hw.1 step
    exact ⟨stepped.points, stepped.store.reach hw.2⟩

end Solvan.Cases
