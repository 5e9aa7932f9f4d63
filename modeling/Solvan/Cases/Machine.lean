import Solvan.Base.Machine
import Solvan.Cases.Store

namespace Solvan.Cases
open Claims
open Queues (Queue Change)
open Workflow (LeaseHandle IncidentRow)

/-- The transactions that touch cases and wakeups. A completed wakeup and the
progress it makes are one transaction. -/
inductive CaseMove where
  | tick (micros : Nat)
  | incidents (rows : List IncidentRow)
  | openCase (incidentId : String) (authority : CoordinatorAuthority) (schedule : CaseSchedule)
      (caseId wakeupId : String)
  | claimDue (owner : String) (claimTtlMs batchSize : Nat) (token : Token) (locked : List String)
  | heartbeat (owner : String) (claim : ClaimedWakeup) (claimTtlMs : Nat)
  | release (owner : String) (claim : ClaimedWakeup) (refundAttempt : Bool)
  | defer (owner : String) (claim : ClaimedWakeup) (wakeAt localNow : Int) (reason wakeupId : String)
  | acquireLease (caseId owner : String) (leaseTtlMs : Nat) (token : Token)
  | releaseLease (lease : LeaseHandle)
  | advance (owner : String) (claim : ClaimedWakeup) (lease : LeaseHandle) (progress : Progress)
      (wakeupId : String)
  | advanceUnclaimed (lease : LeaseHandle) (progress : Progress) (wakeupId : String)
deriving DecidableEq, Repr

/-- One committed transaction, or none where the code raises. Whoever acts on a
claim was handed it, and holds the lease of the claim's own case. -/
def CaseStore.next (s : CaseStore) : CaseMove → Option CaseStore
  | .tick micros => some { s with wakeups := { s.wakeups with now := s.now + micros } }
  | .incidents incidents => some { s with incidents }
  | .openCase incidentId authority schedule caseId wakeupId =>
    openForMitigatedIncident s incidentId authority schedule caseId wakeupId
  | .claimDue owner claimTtlMs batchSize token locked =>
    (claimDueWakeups s owner claimTtlMs batchSize token locked).map Prod.fst
  | .heartbeat owner claim claimTtlMs =>
    if claim ∈ s.claims then heartbeatWakeup s owner claim claimTtlMs else none
  | .release owner claim refundAttempt =>
    if claim ∈ s.claims then releaseClaimedWakeup s owner claim refundAttempt else none
  | .defer owner claim wakeAt localNow reason wakeupId =>
    if claim ∈ s.claims then deferClaimedWakeup s owner claim wakeAt localNow reason wakeupId
    else none
  | .acquireLease caseId owner leaseTtlMs token =>
    (acquireCaseLease s caseId owner leaseTtlMs token).map Prod.fst
  | .releaseLease lease => releaseCaseLease s lease
  | .advance owner claim lease progress wakeupId =>
    if claim ∈ s.claims ∧ lease.entityId = claim.caseId then do
      let s ← completeWakeup s owner claim
      commitProgressTransition s lease progress wakeupId
    else none
  | .advanceUnclaimed lease progress wakeupId => do
    let s ← completeActiveWakeupForTransition s lease
    commitProgressTransition s lease progress wakeupId

def CaseStore.empty (now : Int) (incidents : List IncidentRow) : CaseStore :=
  ⟨incidents, [], .empty now, []⟩

def caseMachine : Machine CaseStore CaseMove :=
  .ofFn (fun s => ∃ now incidents, s = .empty now incidents) CaseStore.next

/-- A wakeup as a claimed item. -/
def Wakeup.item (w : Wakeup) : Item String Token WakeupOutcome :=
  ⟨w.attempts,
    match w.status with
    | .pending => .free
    | .claimed claim => .held claim
    | .completed => .done .completed
    | .quarantined => .done .quarantined⟩

variable {s s' : CaseStore} {wakeups wakeups' : Queue Wakeup WakeupOutcome} {w : Wakeup}
  {now : Int} {owner : String} {claim : ClaimedWakeup}

theorem Wakeup.of_unclaimed (h : w.unclaimed now = true) :
    (w.status = .pending ∨ ∃ held, w.status = .claimed held ∧ held.expires < now) ∧
      w.item.phase.Available now := by
  unfold Wakeup.unclaimed at h
  unfold Wakeup.item
  cases hs : w.status with
  | pending => exact ⟨.inl rfl, trivial⟩
  | claimed held =>
    rw [hs] at h
    have hlapsed : held.expires < now := by simpa using h
    exact ⟨.inr ⟨held, rfl, hlapsed⟩, hlapsed⟩
  | completed => rw [hs] at h; cases h
  | quarantined => rw [hs] at h; cases h

theorem Wakeup.of_heldBy (h : w.heldBy now owner claim = true) :
    w.id = claim.wakeupId ∧
      ∃ held, w.status = .claimed held ∧ held.LiveFor now owner claim.claimToken := by
  unfold Wakeup.heldBy at h
  cases hs : w.status with
  | claimed held =>
    rw [hs] at h
    simp only [Bool.and_eq_true, beq_iff_eq, decide_eq_true_eq] at h
    exact ⟨h.1, held, rfl, h.2.1.1, h.2.1.2, h.2.2⟩
  | pending => simp [hs] at h
  | completed => simp [hs] at h
  | quarantined => simp [hs] at h

/-- Claims of wakeups, and wakeups found to have spent theirs. -/
def Charging : Event String Token WakeupOutcome → Prop
  | .claim _ => True
  | .park outcome => outcome = .quarantined
  | _ => False

/-- What a transaction that claims nothing does to a wakeup. -/
def Mild : Event String Token WakeupOutcome → Prop
  | .claim _ | .park _ => False
  | .extend .. => True
  | .finish _ _ outcome | .retire outcome => outcome = .completed
  | .giveBack _ _ refund => refund = true

/-- One change of the wakeups: what every part of a transaction comes down to. -/
abbrev WakeupChange (kinds : Event String Token WakeupOutcome → Prop) :=
  Change wakeupClaimAttemptBudget Wakeup.id Wakeup.item kinds

theorem quarantineWakeups_change :
    WakeupChange Charging wakeups (quarantineWakeups wakeups) := by
  refine .of_update (fun _ _ _ => rfl) ?_ (fun _ _ he => by cases he) (fun _ => rfl)
  intro w _ hp
  simp only [Bool.and_eq_true, decide_eq_true_eq] at hp
  exact .park _ (Wakeup.of_unclaimed hp.2).2 hp.1.2

theorem takeWakeups_change {batchSize : Nat} {locked : List String} {hold : Hold String Token}
    (hu : Table.Unique Wakeup.id wakeups.rows) (fresh : hold.token ∉ wakeups.issued) :
    WakeupChange Charging wakeups
      (takeWakeups wakeups hold (dueWakeups wakeups batchSize locked)) := by
  refine .update _ _ _ _ (fun _ _ _ => rfl) ?_ ?_ (fun _ => List.mem_cons_of_mem _)
    (fun _ => trivial)
  · intro w hw hp
    have hopen := Table.open_of_candidate hu hw (List.contains_iff_mem.mp hp)
    simp only [Bool.and_eq_true, decide_eq_true_eq] at hopen
    exact .claim _ (Wakeup.of_unclaimed hopen.2).2 hopen.1.2
  · intro w _ _ hold' he
    cases he
    exact ⟨fresh, List.mem_cons_self⟩

theorem releaseClaimedWakeup_change {refundAttempt : Bool}
    (h : releaseClaimedWakeup s owner claim refundAttempt = some s') :
    ∃ wakeups', s' = { s with wakeups := wakeups' } ∧
      WakeupChange (fun event => refundAttempt = true → Mild event) s.wakeups wakeups' := by
  obtain ⟨wakeups', hc, rfl⟩ := Option.map_eq_some_iff.mp h
  refine ⟨wakeups', rfl, .of_complete hc (fun _ _ _ => rfl) ?_ (fun _ _ he => by cases he)
    (fun _ hr => hr)⟩
  intro w _ hp
  obtain ⟨-, held, hs, live⟩ := Wakeup.of_heldBy hp
  simp only [Wakeup.item, hs]
  exact .giveBack _ live

theorem heartbeatWakeup_change {claimTtlMs : Nat}
    (h : heartbeatWakeup s owner claim claimTtlMs = some s') :
    ∃ wakeups', s' = { s with wakeups := wakeups' } ∧
      WakeupChange Mild s.wakeups wakeups' := by
  unfold heartbeatWakeup at h
  split at h
  · cases h
  · obtain ⟨wakeups', hc, rfl⟩ := Option.map_eq_some_iff.mp h
    refine ⟨wakeups', rfl, .of_complete hc (fun _ _ _ => rfl) ?_ (fun _ _ he => by cases he)
      (fun _ => trivial)⟩
    intro w _ hp
    obtain ⟨-, held, hs, live⟩ := Wakeup.of_heldBy hp
    simp only [Wakeup.item, hs]
    exact .extend _ live

theorem completeWakeup_change (h : completeWakeup s owner claim = some s') :
    ∃ wakeups', s' = { s with wakeups := wakeups' } ∧
      WakeupChange Mild s.wakeups wakeups' := by
  obtain ⟨wakeups', hc, rfl⟩ := Option.map_eq_some_iff.mp h
  refine ⟨wakeups', rfl, .of_complete hc (fun _ _ _ => rfl) ?_ (fun _ _ he => by cases he)
      (fun _ => rfl)⟩
  intro w _ hp
  simp only [Bool.and_eq_true] at hp
  obtain ⟨-, held, hs, live⟩ := Wakeup.of_heldBy hp.1
  simp only [Wakeup.item, hs]
  exact .finish _ live

theorem completeActive_change {lease : LeaseHandle}
    (h : completeActiveWakeupForTransition s lease = some s') :
    ∃ wakeups', s' = { s with wakeups := wakeups' } ∧
      WakeupChange Mild s.wakeups wakeups' := by
  simp only [completeActiveWakeupForTransition] at h
  split at h
  · cases h
  · split at h
    · obtain ⟨wakeups', hc, rfl⟩ := Option.map_eq_some_iff.mp h
      refine ⟨wakeups', rfl, .of_complete hc (fun _ _ _ => rfl) ?_ (fun _ _ he => by cases he)
      (fun _ => rfl)⟩
      intro w _ hp
      simp only [Bool.and_eq_true] at hp
      exact .retire _ (Wakeup.of_unclaimed hp.2).2
    · cases h

theorem insertWakeup_change (free : w.item = ⟨0, .free⟩) (h : s.insertWakeup w = some s') :
    WakeupChange Mild s.wakeups s'.wakeups := by
  unfold CaseStore.insertWakeup at h
  split at h
  · cases h
  · rename_i hnew
    cases h
    refine .arrive _ ?_ free
    intro r hr he
    exact hnew (List.any_eq_true.mpr ⟨r, hr, beq_iff_eq.mpr he⟩)

end Solvan.Cases
