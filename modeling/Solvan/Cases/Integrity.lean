import Solvan.Cases.Ledger

namespace Solvan.Cases
open Claims (Hold)
open Versioned
open Workflow (AggregateType IncidentRow IncidentState Lease LeaseHandle leaseFree leaseLive
  leaseNames of_leaseLive)

abbrev WorkflowAggregate := Aggregate WorkflowState String Token

/-- What the ledger is about in a row. -/
def incidentAggregate (i : IncidentRow) : WorkflowAggregate :=
  ⟨i.workflowVersion, .incident i.state, i.lease⟩

def caseAggregate (c : CaseRow) : WorkflowAggregate :=
  ⟨c.workflowVersion, .reliabilityCase c.state, c.lease⟩

def CaseStore.aggregate (s : CaseStore) : AggregateKey → Option WorkflowAggregate
  | (.incident, id) => (Table.find IncidentRow.id id s.incidents).map incidentAggregate
  | (.reliabilityCase, id) => (Table.find CaseRow.id id s.cases).map caseAggregate

def initialState : AggregateType → WorkflowState
  | .incident => .incident .detected
  | .reliabilityCase => .reliabilityCase .opened

/-- Every aggregate begins at version 1. -/
def origins (rows : AggregateKey → Option WorkflowAggregate) (k : AggregateKey) :
    Option (Nat × WorkflowState) :=
  (rows k).map (fun _ => (1, initialState k.1))

/-- The projections and the leases' history as versioned aggregates. -/
def LedgerStore.system (s : LedgerStore) : System AggregateKey WorkflowState String Token :=
  ⟨s.projections.aggregate, origins s.projections.aggregate, s.history⟩

structure Tidy (s : CaseStore) : Prop where
  incidents : Table.Unique IncidentRow.id s.incidents
  cases : Table.Unique CaseRow.id s.cases

/-- One aggregate is set, and the others are as they were. -/
structure Sets (s s' : CaseStore) (k : AggregateKey) (a' : WorkflowAggregate) : Prop where
  tidy : Tidy s'
  aggregate : s'.aggregate = Function.update s.aggregate k (some a')

variable {s s' s'' : CaseStore} {k : AggregateKey} {a a' : WorkflowAggregate} {i : IncidentRow}
  {c : CaseRow} {ledger ledger' : LedgerStore} {lease : LeaseHandle}

theorem Sets.incident {p : IncidentRow → Bool} {f : IncidentRow → IncidentRow} (tidy : Tidy s)
    (keeps : ∀ r, (f r).id = r.id) (hi : i ∈ s.incidents) (hp : p i = true)
    (only : ∀ r, p r = true → r.id = i.id) :
    Sets s { s with incidents := Table.update p f s.incidents } (.incident, i.id)
      (incidentAggregate (f i)) := by
  refine ⟨⟨tidy.incidents.update (fun r _ _ => keeps r), tidy.cases⟩, ?_⟩
  funext ⟨type, id⟩
  cases type with
  | reliabilityCase => rfl
  | incident =>
    simp only [CaseStore.aggregate, tidy.incidents.find_update keeps hi hp only,
      Function.update_apply, Prod.mk.injEq, true_and]
    split <;> rfl

theorem Sets.case {p : CaseRow → Bool} {f : CaseRow → CaseRow} (tidy : Tidy s)
    (keeps : ∀ r, (f r).id = r.id) (hc : c ∈ s.cases) (hp : p c = true)
    (only : ∀ r, p r = true → r.id = c.id) :
    Sets s { s with cases := Table.update p f s.cases } (.reliabilityCase, c.id)
      (caseAggregate (f c)) := by
  refine ⟨⟨tidy.incidents, tidy.cases.update (fun r _ _ => keeps r)⟩, ?_⟩
  funext ⟨type, id⟩
  cases type with
  | incident => rfl
  | reliabilityCase =>
    simp only [CaseStore.aggregate, tidy.cases.find_update keeps hc hp only,
      Function.update_apply, Prod.mk.injEq, true_and]
    split <;> rfl

theorem Sets.newIncident (tidy : Tidy s) (new : ∀ r ∈ s.incidents, r.id ≠ i.id) :
    Sets s { s with incidents := s.incidents ++ [i] } (.incident, i.id) (incidentAggregate i) := by
  refine ⟨⟨tidy.incidents.append new, tidy.cases⟩, ?_⟩
  funext ⟨type, id⟩
  cases type with
  | reliabilityCase => rfl
  | incident =>
    simp only [CaseStore.aggregate, Function.update_apply, Prod.mk.injEq, true_and]
    split
    · rename_i hid
      rw [hid, Table.find_append_self new]
      rfl
    · rename_i hid
      rw [Table.find_append_other (Ne.symm hid)]

theorem Sets.newCase (tidy : Tidy s) (new : ∀ r ∈ s.cases, r.id ≠ c.id) :
    Sets s { s with cases := s.cases ++ [c] } (.reliabilityCase, c.id) (caseAggregate c) := by
  refine ⟨⟨tidy.incidents, tidy.cases.append new⟩, ?_⟩
  funext ⟨type, id⟩
  cases type with
  | incident => rfl
  | reliabilityCase =>
    simp only [CaseStore.aggregate, Function.update_apply, Prod.mk.injEq, true_and]
    split
    · rename_i hid
      rw [hid, Table.find_append_self new]
      rfl
    · rename_i hid
      rw [Table.find_append_other (Ne.symm hid)]

theorem Tidy.incident_aggregate (tidy : Tidy s) (hi : i ∈ s.incidents) :
    s.aggregate (.incident, i.id) = some (incidentAggregate i) := by
  simp only [CaseStore.aggregate, tidy.incidents.find_eq hi, Option.map_some]

theorem Tidy.case_aggregate (tidy : Tidy s) (hc : c ∈ s.cases) :
    s.aggregate (.reliabilityCase, c.id) = some (caseAggregate c) := by
  simp only [CaseStore.aggregate, tidy.cases.find_eq hc, Option.map_some]

/-- A lease is set by `acquire_lease`, whoever held the aggregate before. -/
theorem acquireIncidentLease_sets {id owner : String} {ttl : Nat} {token : Token} (tidy : Tidy s)
    (h : acquireIncidentLease s id owner ttl token = some (s', lease)) :
    ∃ a, s.aggregate (.incident, id) = some a ∧
      Sets s s' (.incident, id)
        { a with lease := some ⟨owner, token, s.now + milliseconds ttl⟩ } := by
  unfold acquireIncidentLease at h
  simp only [Option.ite_none_left_eq_some, Option.bind_eq_bind, Option.bind_eq_some_iff] at h
  obtain ⟨-, i, hf, hs⟩ := h
  cases hs
  have hi := List.mem_of_find?_eq_some hf
  have hp := List.find?_some hf
  simp only [Bool.and_eq_true, beq_iff_eq] at hp
  obtain rfl := hp.1
  refine ⟨_, tidy.incident_aggregate hi, .incident tidy (by exact fun _ => rfl) hi (by simp [hp.2]) ?_⟩
  intro r hr
  simp only [Bool.and_eq_true, beq_iff_eq] at hr
  exact hr.1

theorem acquireCaseLease_sets {id owner : String} {ttl : Nat} {token : Token} (tidy : Tidy s)
    (h : acquireCaseLease s id owner ttl token = some (s', lease)) :
    ∃ a, s.aggregate (.reliabilityCase, id) = some a ∧
      Sets s s' (.reliabilityCase, id)
        { a with lease := some ⟨owner, token, s.now + milliseconds ttl⟩ } := by
  unfold acquireCaseLease at h
  simp only [Option.ite_none_left_eq_some, Option.bind_eq_bind, Option.bind_eq_some_iff] at h
  obtain ⟨-, c, hf, hs⟩ := h
  cases hs
  have hc := List.mem_of_find?_eq_some hf
  have hp := List.find?_some hf
  simp only [Bool.and_eq_true, beq_iff_eq] at hp
  obtain rfl := hp.1
  refine ⟨_, tidy.case_aggregate hc, .case tidy (by exact fun _ => rfl) hc (by simp [hp.2]) ?_⟩
  intro r hr
  simp only [Bool.and_eq_true, beq_iff_eq] at hr
  exact hr.1

theorem releaseIncidentLease_sets (tidy : Tidy s) (h : releaseIncidentLease s lease = some s') :
    ∃ a, s.aggregate (.incident, lease.entityId) = some a ∧
      Sets s s' (.incident, lease.entityId) { a with lease := none } := by
  simp only [releaseIncidentLease, Option.ite_none_right_eq_some, List.any_eq_true,
    Option.some.injEq] at h
  obtain ⟨⟨i, hi, hp⟩, rfl⟩ := h
  have hid : i.id = lease.entityId := by
    simp only [Bool.and_eq_true, beq_iff_eq] at hp
    exact hp.1
  rw [← hid]
  refine ⟨_, tidy.incident_aggregate hi, .incident tidy (by exact fun _ => rfl) hi (hid ▸ hp) ?_⟩
  intro r hr
  simp only [Bool.and_eq_true, beq_iff_eq] at hr
  exact hr.1

theorem releaseCaseLease_sets (tidy : Tidy s) (h : releaseCaseLease s lease = some s') :
    ∃ a, s.aggregate (.reliabilityCase, lease.entityId) = some a ∧
      Sets s s' (.reliabilityCase, lease.entityId) { a with lease := none } := by
  simp only [releaseCaseLease, Option.ite_none_right_eq_some, List.any_eq_true,
    Option.some.injEq] at h
  obtain ⟨⟨c, hc, hp⟩, rfl⟩ := h
  have hid : c.id = lease.entityId := by
    simp only [Bool.and_eq_true, beq_iff_eq] at hp
    exact hp.1
  rw [← hid]
  refine ⟨_, tidy.case_aggregate hc, .case tidy (by exact fun _ => rfl) hc (hid ▸ hp) ?_⟩
  intro r hr
  simp only [Bool.and_eq_true, beq_iff_eq] at hr
  exact hr.1

theorem insertWakeup_eq {w : Wakeup} (h : s.insertWakeup w = some s') :
    ∃ rows, s' = { s with wakeups := { s.wakeups with rows } } := by
  unfold CaseStore.insertWakeup at h
  rw [Option.ite_none_left_eq_some, Option.some.injEq] at h
  exact ⟨_, h.2.symm⟩

theorem Sets.insertWakeup {w : Wakeup} (h : Sets s s' k a) (hs : s'.insertWakeup w = some s'') :
    Sets s s'' k a := by
  obtain ⟨rows, rfl⟩ := insertWakeup_eq hs
  exact ⟨⟨h.tidy.incidents, h.tidy.cases⟩, h.aggregate⟩

/-- The case a live handle is good for moves on from the state it was in. -/
theorem commitProgressTransition_sets {progress : Progress} {wakeupId : String} (tidy : Tidy s)
    (hf : s.cases.find? (progressHit s.now lease progress.fromState) = some c)
    (h : commitProgressTransition s lease progress wakeupId = some s') :
    lease.aggregateType = .reliabilityCase ∧ c.id = lease.entityId ∧ c ∈ s.cases ∧
      c.workflowVersion = lease.workflowVersion ∧ c.state = progress.fromState ∧
      leaseLive s'.now lease.owner lease.token c.lease = true ∧
      Sets s s' (.reliabilityCase, lease.entityId)
        ⟨c.workflowVersion + 1, .reliabilityCase progress.toState, c.lease⟩ := by
  simp only [commitProgressTransition, Option.ite_none_left_eq_some, not_or, not_not] at h
  obtain ⟨⟨htype, -⟩, -, hs⟩ := h
  have hc := List.mem_of_find?_eq_some hf
  have hp := List.find?_some hf
  have hhit := hp
  simp only [progressHit, CaseRow.leasedTo, Bool.and_eq_true, beq_iff_eq] at hp
  obtain ⟨⟨⟨hid, hversion⟩, hlive⟩, hstate⟩ := hp
  have hnow : s'.now = s.now := by
    obtain ⟨rows, rfl⟩ := insertWakeup_eq hs
    rfl
  refine ⟨htype, hid, hc, hversion, hstate, hnow ▸ hlive, ?_⟩
  rw [← hid]
  refine Sets.insertWakeup (.case tidy (by exact fun _ => rfl) hc hhit ?_) hs
  intro r hr
  simp only [progressHit, CaseRow.leasedTo, Bool.and_eq_true, beq_iff_eq] at hr
  exact hr.1.1.1.trans hid.symm

theorem transition_sets {fromState : IncidentState} (toState : IncidentState) (tidy : Tidy s)
    (hf : s.incidents.find? (transitionHit s.now lease fromState) = some i) :
    i.id = lease.entityId ∧ i ∈ s.incidents ∧ i.workflowVersion = lease.workflowVersion ∧
      i.state = fromState ∧ leaseLive s.now lease.owner lease.token i.lease = true ∧
      Sets s
        { s with
          incidents := Table.update (transitionHit s.now lease fromState)
            (fun i => { i with state := toState, workflowVersion := i.workflowVersion + 1 })
            s.incidents }
        (.incident, lease.entityId) ⟨i.workflowVersion + 1, .incident toState, i.lease⟩ := by
  have hi := List.mem_of_find?_eq_some hf
  have hp := List.find?_some hf
  have hhit := hp
  simp only [transitionHit, Bool.and_eq_true, beq_iff_eq] at hp
  obtain ⟨⟨⟨hid, hstate⟩, hversion⟩, hlive⟩ := hp
  refine ⟨hid, hi, hversion, hstate, hlive, ?_⟩
  rw [← hid]
  refine .incident tidy (by exact fun _ => rfl) hi hhit ?_
  intro r hr
  simp only [transitionHit, Bool.and_eq_true, beq_iff_eq] at hr
  exact hr.1.1.1.trans hid.symm

/-- Columns of incidents that are no part of the ledger. -/
theorem Sets.otherColumns {p : IncidentRow → Bool} {f : IncidentRow → IncidentRow}
    (h : Sets s s' k a) (keeps : ∀ r, (f r).id = r.id)
    (same : ∀ r, incidentAggregate (f r) = incidentAggregate r) :
    Sets s { s' with incidents := Table.update p f s'.incidents } k a := by
  refine ⟨⟨h.tidy.incidents.update (fun r _ _ => keeps r), h.tidy.cases⟩, ?_⟩
  rw [← h.aggregate]
  funext ⟨type, id⟩
  cases type with
  | reliabilityCase => rfl
  | incident =>
    simp only [CaseStore.aggregate, Table.find_update keeps, Option.map_map]
    congr 1
    funext r
    simp only [Function.comp_apply]
    split
    · exact same r
    · rfl

/-- A new case, or the one the incident had. -/
theorem openForMitigatedIncident_sets {incidentId caseId wakeupId : String}
    {authority : CoordinatorAuthority} {schedule : CaseSchedule} (tidy : Tidy s)
    (h : openForMitigatedIncident s incidentId authority schedule caseId wakeupId = some s') :
    s' = s ∨ s.aggregate (.reliabilityCase, caseId) = none ∧
      Sets s s' (.reliabilityCase, caseId) ⟨1, .reliabilityCase .opened, none⟩ := by
  unfold openForMitigatedIncident at h
  rw [Option.bind_eq_bind, Option.bind_eq_some_iff] at h
  obtain ⟨i, -, h⟩ := h
  dsimp only at h
  split at h
  · rw [Option.ite_none_right_eq_some, Option.some.injEq] at h
    exact .inl h.2.symm
  · rw [Option.ite_none_left_eq_some] at h
    obtain ⟨hnew, hs⟩ := h
    refine .inr ⟨?_, ?_⟩
    · have hmiss : Table.find CaseRow.id caseId s.cases = none := by
        refine List.find?_eq_none.mpr (fun c hc hid => hnew (List.any_eq_true.mpr ⟨c, hc, hid⟩))
      simp only [CaseStore.aggregate, hmiss, Option.map_none]
    · have hfresh : ∀ c ∈ s.cases, c.id ≠ caseId := fun c hc hid =>
        hnew (List.any_eq_true.mpr ⟨c, hc, beq_iff_eq.mpr hid⟩)
      have hnew := Sets.newCase
        (c := ⟨caseId, 1, .opened, incidentId, schedule.nextActionKind, schedule.wakeAt, none, none,
          none, none⟩) tidy hfresh
      exact (hnew.otherColumns (by exact fun _ => rfl) (by exact fun _ => rfl)).insertWakeup hs

theorem origins_update {rows : AggregateKey → Option WorkflowAggregate} :
    origins (Function.update rows k (some a')) =
      Function.update (origins rows) k (some (1, initialState k.1)) := by
  funext k'
  by_cases hk : k' = k
  · subst hk
    simp only [origins, Function.update_self, Option.map_some]
  · simp only [origins, Function.update_of_ne hk]

/-- An aggregate set in the projections is one put in the system. -/
theorem Sets.step (h : Sets ledger.projections ledger'.projections k a')
    (here : ledger.projections.aggregate k = some a)
    (step : Versioned.Step ledger.system
      { ledger.system.put k a' with history := ledger'.history }) :
    Versioned.Step ledger.system ledger'.system := by
  have hsame : Function.update (origins ledger.projections.aggregate) k
      (some (1, initialState k.1)) = origins ledger.projections.aggregate := by
    refine Function.update_eq_self_iff.mpr ?_
    rw [origins, here, Option.map_some]
  have hput : ledger'.system = { ledger.system.put k a' with history := ledger'.history } := by
    simp only [LedgerStore.system, System.put, h.aggregate, origins_update, hsame]
  rw [hput]
  exact step

theorem Sets.step_new
    (h : Sets ledger.projections ledger'.projections k ⟨1, initialState k.1, none⟩)
    (new : ledger.projections.aggregate k = none) (same : ledger'.history = ledger.history) :
    Versioned.Step ledger.system ledger'.system := by
  have hput : ledger'.system = { ledger.system.put k ⟨1, initialState k.1, none⟩ with
      origin := Function.update ledger.system.origin k (some (1, initialState k.1)) } := by
    simp only [LedgerStore.system, System.put, h.aggregate, origins_update, same]
  rw [hput]
  exact .create 1 _ new

/-- The transition an event tells of. -/
def WorkflowPayload.transition :
    WorkflowPayload → Option (AggregateKey × WorkflowState × WorkflowState × Nat)
  | .incidentTransitioned id fromState toState version =>
    some ((.incident, id), .incident fromState, .incident toState, version)
  | .caseTransitioned id fromState toState version _ =>
    some ((.reliabilityCase, id), .reliabilityCase fromState, .reliabilityCase toState, version)
  | _ => none

def WorkflowEvent.key (event : WorkflowEvent) : AggregateKey :=
  (event.aggregateType, event.aggregateId)

/-- The event says what the row says. -/
structure Announces (row : StateTransitionRow) (event : WorkflowEvent) : Prop where
  key : event.key = row.key
  version : event.aggregateVersion = row.toWorkflowVersion
  topic : event.topic = "workflow-transitions"
  payload : event.payload.transition =
    some (row.key, row.fromState, row.toState, row.toWorkflowVersion)

/-- What a step adds to the transitions, the events and the history. -/
inductive Writes (s s' : LedgerStore) : Prop where
  | nothing (transitions : s'.transitions = s.transitions) (outbox : s'.outbox = s.outbox)
      (same : changes s'.history = changes s.history)
  | opening (event : WorkflowEvent) (topic : event.topic ≠ "workflow-transitions")
      (first : event.aggregateVersion = 1) (transitions : s'.transitions = s.transitions)
      (outbox : s'.outbox = s.outbox ++ [event]) (same : changes s'.history = changes s.history)
  | transition (row : StateTransitionRow) (event : WorkflowEvent) (announces : Announces row event)
      (transitions : s'.transitions = s.transitions ++ [row])
      (outbox : s'.outbox = s.outbox ++ [event])
      (same : changes s'.history = changes s.history ++ [row.entry])

/-- What a move may do: one step of the system at most, on record. -/
structure Moved (s s' : LedgerStore) : Prop where
  tidy : Tidy s'.projections
  system : s'.system = s.system ∨ Versioned.Step s.system s'.system
  writes : Writes s s'

theorem insertEvent_eq {event : WorkflowEvent} (h : ledger.insertEvent event = some ledger') :
    ledger' = { ledger with outbox := ledger.outbox ++ [event] } := by
  unfold LedgerStore.insertEvent at h
  rw [Option.ite_none_left_eq_some, Option.some.injEq] at h
  exact h.2.symm

theorem insertTransition_eq {transition : TransitionWrite WorkflowState} {toVersion : Nat}
    {id : String} (h : ledger.insertTransition lease transition toVersion id = some ledger') :
    ∃ row : StateTransitionRow, row.toTransitionWrite = transition ∧
      row.key = (lease.aggregateType, lease.entityId) ∧
      row.fromWorkflowVersion = lease.workflowVersion ∧ row.toWorkflowVersion = toVersion ∧
      ledger' = { ledger with
        transitions := ledger.transitions ++ [row]
        history :=
          .committed row.entry lease.owner lease.token ledger.now :: ledger.history } := by
  unfold LedgerStore.insertTransition at h
  split at h
  · rename_i follows
    simp only [Option.ite_none_left_eq_some, Option.some.injEq] at h
    exact ⟨_, rfl, rfl, rfl, rfl, h.2.symm⟩
  · cases h

theorem openIncident_moved {id incidentClass service snapshot outboxId : String} {budget : Nat}
    (tidy : Tidy ledger.projections)
    (h : openIncident ledger id incidentClass service snapshot budget outboxId = some ledger') :
    Moved ledger ledger' := by
  unfold openIncident at h
  rw [Option.ite_none_left_eq_some] at h
  obtain ⟨hnew, h⟩ := h
  have hfresh : ∀ i ∈ ledger.projections.incidents, i.id ≠ id := fun i hi he =>
    hnew (List.any_eq_true.mpr ⟨i, hi, beq_iff_eq.mpr he⟩)
  have hnone : ledger.projections.aggregate (.incident, id) = none := by
    have hmiss : Table.find IncidentRow.id id ledger.projections.incidents = none :=
      List.find?_eq_none.mpr (fun i hi he => hfresh i hi (beq_iff_eq.mp he))
    simp only [CaseStore.aggregate, hmiss, Option.map_none]
  have hset := Sets.newIncident
    (i := ⟨id, 1, 0, .detected, incidentClass, service, none, snapshot, 0, budget, none, none, none,
      none⟩) tidy hfresh
  have heq := insertEvent_eq h
  subst heq
  exact ⟨hset.tidy, .inr (Sets.step_new hset hnone rfl), .opening _ (by simp) rfl rfl rfl rfl⟩

theorem openCase_moved {incidentId caseId wakeupId outboxId : String}
    {authority : CoordinatorAuthority} {schedule : CaseSchedule} (tidy : Tidy ledger.projections)
    (h : openCase ledger incidentId authority schedule caseId wakeupId outboxId = some ledger') :
    Moved ledger ledger' := by
  unfold openCase at h
  rw [Option.bind_eq_bind, Option.bind_eq_some_iff] at h
  obtain ⟨projections, ho, h⟩ := h
  have hmoved : Tidy projections ∧ ∀ outbox,
      let opened : LedgerStore := { ledger with projections, outbox }
      opened.system = ledger.system ∨ Versioned.Step ledger.system opened.system := by
    rcases openForMitigatedIncident_sets tidy ho with rfl | ⟨hnone, hset⟩
    · exact ⟨tidy, fun _ => .inl rfl⟩
    · exact ⟨hset.tidy, fun outbox => .inr (Sets.step_new hset hnone rfl)⟩
  dsimp only at h
  split at h
  · cases h
    exact ⟨hmoved.1, hmoved.2 _, .nothing rfl rfl rfl⟩
  · have heq := insertEvent_eq h
    subst heq
    exact ⟨hmoved.1, hmoved.2 _, .opening _ (by simp) rfl rfl rfl rfl⟩

theorem acquireLease_moved {type : AggregateType} {id owner : String} {ttl : Nat} {token : Token}
    (tidy : Tidy ledger.projections)
    (h : acquireLease ledger type id owner ttl token = some (ledger', lease)) :
    Moved ledger ledger' := by
  have hset : ∃ projections a, ledger.projections.aggregate (type, id) = some a ∧
      Sets ledger.projections projections (type, id)
        { a with lease := some ⟨owner, token, ledger.now + milliseconds ttl⟩ } ∧
      ledger' = { ledger with
        projections
        history := .acquired (type, id) ⟨owner, token, ledger.now + milliseconds ttl⟩ ::
          ledger.history } := by
    unfold acquireLease at h
    simp only [Option.bind_eq_bind, Option.bind_eq_some_iff] at h
    obtain ⟨⟨projections, lease'⟩, ha, h⟩ := h
    cases h
    cases type with
    | incident =>
      obtain ⟨a, here, hset⟩ := acquireIncidentLease_sets tidy ha
      exact ⟨projections, a, here, hset, rfl⟩
    | reliabilityCase =>
      obtain ⟨a, here, hset⟩ := acquireCaseLease_sets tidy ha
      exact ⟨projections, a, here, hset, rfl⟩
  obtain ⟨projections, a, here, hset, rfl⟩ := hset
  exact ⟨hset.tidy, .inr (Sets.step hset here (.acquire _ here)), .nothing rfl rfl rfl⟩

theorem releaseLease_moved (tidy : Tidy ledger.projections)
    (h : releaseLease ledger lease = some ledger') : Moved ledger ledger' := by
  have hset : ∃ projections a,
      ledger.projections.aggregate (lease.aggregateType, lease.entityId) = some a ∧
      Sets ledger.projections projections (lease.aggregateType, lease.entityId)
        { a with lease := none } ∧
      ledger' = { ledger with
        projections
        history := .released (lease.aggregateType, lease.entityId) :: ledger.history } := by
    unfold releaseLease at h
    simp only [Option.bind_eq_bind, Option.bind_eq_some_iff] at h
    obtain ⟨projections, hr, h⟩ := h
    cases h
    cases htype : lease.aggregateType with
    | incident =>
      rw [htype] at hr
      obtain ⟨a, here, hset⟩ := releaseIncidentLease_sets tidy hr
      exact ⟨projections, a, here, hset, rfl⟩
    | reliabilityCase =>
      rw [htype] at hr
      obtain ⟨a, here, hset⟩ := releaseCaseLease_sets tidy hr
      exact ⟨projections, a, here, hset, rfl⟩
  obtain ⟨projections, a, here, hset, rfl⟩ := hset
  exact ⟨hset.tidy, .inr (Sets.step hset here (.release here)), .nothing rfl rfl rfl⟩

/-- A projection moved on by the holder of its lease, with the row and event. -/
theorem Moved.of_commit {projections : CaseStore} {row : StateTransitionRow} {event : WorkflowEvent}
    {moment : Int}
    (here : ledger.projections.aggregate row.key = some a)
    (state : a.state = row.fromState) (version : a.version = row.fromWorkflowVersion)
    (live : leaseLive moment lease.owner lease.token a.lease = true)
    (hset : Sets ledger.projections projections row.key ⟨a.version + 1, row.toState, a.lease⟩)
    (announces : Announces row event) :
    Moved ledger { ledger with
      projections
      transitions := ledger.transitions ++ [row]
      outbox := ledger.outbox ++ [event]
      history := .committed row.entry lease.owner lease.token moment :: ledger.history } := by
  obtain ⟨held, hheld, hlive⟩ := of_leaseLive live
  have hentry : row.entry = ⟨row.key, a.state, row.toState, a.version, a.version + 1⟩ := by
    rw [StateTransitionRow.entry, row.follows, state, version]
  refine ⟨hset.tidy, .inr (Sets.step hset here ?_), .transition row event announces rfl rfl rfl⟩
  rw [hentry]
  exact .commit row.toState here hheld hlive

theorem commitTransition_moved {transition : TransitionWrite IncidentState}
    {transitionId outboxId : String} (tidy : Tidy ledger.projections)
    (h : commitTransition ledger lease transition transitionId outboxId = some ledger') :
    Moved ledger ledger' := by
  unfold commitTransition at h
  rw [Option.ite_none_left_eq_some] at h
  obtain ⟨htype, h⟩ := h
  simp only [Option.bind_eq_bind, Option.bind_eq_some_iff] at h
  obtain ⟨i, hf, mid, ht, he⟩ := h
  obtain ⟨hid, hi, hversion, hstate, hlive, hset⟩ := transition_sets transition.toState tidy hf
  have htype : lease.aggregateType = .incident := by
    cases hl : lease.aggregateType with
    | incident => rfl
    | reliabilityCase => exact absurd hl htype
  obtain ⟨row, hwrite, hkey, hfrom, hto, rfl⟩ := insertTransition_eq ht
  have heq := insertEvent_eq he
  subst heq
  have hrowFrom : row.fromState = .incident transition.fromState := congrArg (·.fromState) hwrite
  have hrowTo : row.toState = .incident transition.toState := congrArg (·.toState) hwrite
  rw [htype, ← hid] at hkey
  refine Moved.of_commit (a := incidentAggregate i) ?_ ?_ ?_ hlive ?_ ?_
  · rw [hkey]
    exact tidy.incident_aggregate hi
  · rw [hrowFrom, ← hstate]
    rfl
  · exact hversion.trans hfrom.symm
  · rw [hkey, hrowTo, hid]
    exact hset
  · refine ⟨?_, hto.symm, rfl, ?_⟩
    · rw [hkey, WorkflowEvent.key, htype, hid]
    · rw [hkey, hrowFrom, hrowTo, hto, hid]
      rfl

theorem commitCaseTransition_moved {transition : TransitionWrite CaseState} {next : Continuation}
    {wakeupId transitionId outboxId : String} (tidy : Tidy ledger.projections)
    (h : commitCaseTransition ledger lease transition next wakeupId transitionId outboxId =
      some ledger') :
    Moved ledger ledger' := by
  unfold commitCaseTransition at h
  simp only [Option.bind_eq_bind, Option.bind_eq_some_iff] at h
  obtain ⟨c, hf, projections, hp, mid, ht, he⟩ := h
  have hf : ledger.projections.cases.find?
      (progressHit ledger.projections.now lease (next.progress transition).fromState) = some c := hf
  obtain ⟨htype, hid, hc, hversion, hstate, hlive, hset⟩ := commitProgressTransition_sets tidy hf hp
  obtain ⟨row, hwrite, hkey, hfrom, hto, rfl⟩ := insertTransition_eq ht
  have heq := insertEvent_eq he
  subst heq
  have hrowFrom : row.fromState = .reliabilityCase transition.fromState :=
    congrArg (·.fromState) hwrite
  have hrowTo : row.toState = .reliabilityCase transition.toState := congrArg (·.toState) hwrite
  rw [htype, ← hid] at hkey
  refine Moved.of_commit (a := caseAggregate c) ?_ ?_ ?_ hlive ?_ ?_
  · rw [hkey]
    exact tidy.case_aggregate hc
  · rw [hrowFrom]
    exact congrArg WorkflowState.reliabilityCase hstate
  · exact hversion.trans hfrom.symm
  · rw [hkey, hrowTo, hid]
    exact hset
  · refine ⟨?_, hto.symm, rfl, ?_⟩
    · rw [hkey, WorkflowEvent.key, hid]
    · rw [hkey, hrowFrom, hrowTo, hto, hid]
      rfl

theorem next_moved {move : LedgerMove} (tidy : Tidy ledger.projections)
    (h : ledger.next move = some ledger') : Moved ledger ledger' := by
  cases move with
  | «begin» now =>
    cases h
    exact ⟨⟨tidy.incidents, tidy.cases⟩, .inl rfl, .nothing rfl rfl rfl⟩
  | wakeups rows =>
    cases h
    exact ⟨⟨tidy.incidents, tidy.cases⟩, .inl rfl, .nothing rfl rfl rfl⟩
  | openIncident _ _ _ _ _ _ => exact openIncident_moved tidy h
  | openCase _ _ _ _ _ _ => exact openCase_moved tidy h
  | acquireLease _ _ _ _ _ =>
    obtain ⟨⟨_, lease⟩, ha, rfl⟩ := Option.map_eq_some_iff.mp h
    exact acquireLease_moved tidy ha
  | releaseLease _ => exact releaseLease_moved tidy h
  | commitTransition _ _ _ _ => exact commitTransition_moved tidy h
  | commitProgressTransition _ _ _ _ _ _ => exact commitCaseTransition_moved tidy h

def ledgerMachine : Machine LedgerStore LedgerMove :=
  .ofFn (fun s => ∃ now, s = .empty now) LedgerStore.next

/-- The rows, the events and the history tell of the same transitions. -/
structure Kept (s : LedgerStore) : Prop where
  tidy : Tidy s.projections
  sound : Versioned.Sound s.system
  recorded : s.transitions.map StateTransitionRow.entry = changes s.history
  announced : List.Forall₂ Announces s.transitions
    (s.outbox.filter (fun event => event.topic = "workflow-transitions"))
  first : ∀ event ∈ s.outbox, event.topic ≠ "workflow-transitions" → event.aggregateVersion = 1

theorem Moved.kept (h : Moved ledger ledger') (kept : Kept ledger) : Kept ledger' := by
  have hsound : Versioned.Sound ledger'.system := by
    rcases h.system with he | step
    · exact he ▸ kept.sound
    · exact step.sound kept.sound
  cases h.writes with
  | nothing transitions outbox same =>
    refine ⟨h.tidy, hsound, ?_, ?_, ?_⟩
    · rw [transitions, same]
      exact kept.recorded
    · rw [transitions, outbox]
      exact kept.announced
    · rw [outbox]
      exact kept.first
  | opening event topic first transitions outbox same =>
    refine ⟨h.tidy, hsound, ?_, ?_, ?_⟩
    · rw [transitions, same]
      exact kept.recorded
    · rw [transitions, outbox, List.filter_append]
      simpa [topic] using kept.announced
    · rw [outbox]
      intro e he hne
      rcases List.mem_append.mp he with he | he
      · exact kept.first e he hne
      · rw [List.mem_singleton] at he
        exact he ▸ first
  | transition row event announces transitions outbox same =>
    refine ⟨h.tidy, hsound, ?_, ?_, ?_⟩
    · rw [transitions, same, List.map_append, kept.recorded]
      rfl
    · rw [transitions, outbox, List.filter_append]
      have hlast : [event].filter (fun e => e.topic = "workflow-transitions") = [event] := by
        simp [announces.topic]
      rw [hlast]
      exact List.rel_append kept.announced (.cons announces .nil)
    · rw [outbox]
      intro e he hne
      rcases List.mem_append.mp he with he | he
      · exact kept.first e he hne
      · rw [List.mem_singleton] at he
        subst he
        exact absurd announces.topic hne

theorem reach_kept (h : ledgerMachine.Reach ledger) : Kept ledger := by
  refine h.invariant (I := Kept) ?_ (fun s move s' _ kept step => (next_moved kept.tidy step).kept kept)
  rintro s ⟨now, rfl⟩
  refine ⟨⟨.nil, .nil⟩, Versioned.sound_of_reach (.start ⟨?_, ?_, rfl⟩), rfl, .nil, ?_⟩
  · rintro ⟨type, id⟩
    cases type <;> rfl
  · rintro ⟨type, id⟩
    cases type <;> rfl
  · intro event he
    cases he

def LedgerStore.transitionsOf (s : LedgerStore) (k : AggregateKey) : List StateTransitionRow :=
  s.transitions.filter (fun row => row.key = k)

/-- The events about the version a row leads to. -/
def LedgerStore.eventsOf (s : LedgerStore) (row : StateTransitionRow) : List WorkflowEvent :=
  s.outbox.filter (fun event => event.key = row.key ∧ event.aggregateVersion = row.toWorkflowVersion)

theorem Kept.transitionsOf (kept : Kept ledger) :
    (ledger.transitionsOf k).map StateTransitionRow.entry = Versioned.ledger k ledger.history := by
  unfold LedgerStore.transitionsOf Versioned.ledger
  rw [← kept.recorded, List.filter_map]
  rfl

theorem Kept.runs (kept : Kept ledger) (here : ledger.projections.aggregate k = some a) :
    Runs 1 (initialState k.1) ((ledger.transitionsOf k).map StateTransitionRow.entry) a.version
      a.state := by
  obtain ⟨v, st, horigin, runs⟩ := kept.sound.runs here
  have hfirst : ledger.system.origin k = some (1, initialState k.1) := by
    simp only [LedgerStore.system, origins, here, Option.map_some]
  rw [hfirst, Option.some.injEq, Prod.mk.injEq] at horigin
  obtain ⟨rfl, rfl⟩ := horigin
  rw [kept.transitionsOf]
  exact runs

/-- Rows that lead to different versions have one event each. -/
theorem announced_once {rows : List StateTransitionRow} {events : List WorkflowEvent}
    {row : StateTransitionRow} (h : List.Forall₂ Announces rows events)
    (nodup : (rows.map (fun r => (r.key, r.toWorkflowVersion))).Nodup) (hr : row ∈ rows) :
    ∃ event, Announces row event ∧
      events.filter (fun e => e.key = row.key ∧ e.aggregateVersion = row.toWorkflowVersion) =
        [event] := by
  have miss : ∀ {rows events}, List.Forall₂ Announces rows events →
      (row.key, row.toWorkflowVersion) ∉ rows.map (fun r => (r.key, r.toWorkflowVersion)) →
      events.filter (fun e => e.key = row.key ∧ e.aggregateVersion = row.toWorkflowVersion) = [] := by
    intro rows events h
    induction h with
    | nil => exact fun _ => rfl
    | @cons r e rows events announces _ ih =>
      intro hm
      rw [List.map_cons, List.mem_cons, not_or, Prod.mk.injEq] at hm
      rw [List.filter_cons, announces.key, announces.version, if_neg, ih hm.2]
      intro hsame
      have hsame := of_decide_eq_true hsame
      exact hm.1 ⟨hsame.1.symm, hsame.2.symm⟩
  induction h with
  | nil => cases hr
  | @cons r e rows events announces rest ih =>
    rw [List.map_cons, List.nodup_cons] at nodup
    rcases List.mem_cons.mp hr with rfl | hr
    · refine ⟨e, announces, ?_⟩
      rw [List.filter_cons, if_pos (by simp [announces.key, announces.version]),
        miss rest nodup.1]
    · obtain ⟨event, hevent, heq⟩ := ih nodup.2 hr
      refine ⟨event, hevent, ?_⟩
      rw [List.filter_cons, if_neg, heq]
      have hin := List.mem_map_of_mem (f := fun r : StateTransitionRow => (r.key, r.toWorkflowVersion)) hr
      intro hsame
      simp only [announces.key, announces.version, decide_eq_true_eq] at hsame
      exact nodup.1 (by rw [hsame.1, hsame.2]; exact hin)

theorem Kept.event (kept : Kept ledger) {row : StateTransitionRow} (hr : row ∈ ledger.transitions) :
    ∃ event, Announces row event ∧ ledger.eventsOf row = [event] := by
  have hnodup : (ledger.transitions.map (fun r => (r.key, r.toWorkflowVersion))).Nodup := by
    have hversions := kept.sound.nodup_versions
    have hrecorded : changes ledger.system.history = _ := kept.recorded.symm
    rw [hrecorded, List.map_map] at hversions
    exact hversions
  obtain ⟨event, announces, heq⟩ := announced_once kept.announced hnodup hr
  refine ⟨event, announces, ?_⟩
  rw [List.filter_filter] at heq
  refine Eq.trans (List.filter_congr ?_) heq
  intro e he
  -- An event at a later version than the first is one of a transition.
  obtain ⟨a, v, st, -, horigin, hlater⟩ := kept.sound.later
    (kept.recorded ▸ List.mem_map_of_mem hr : row.entry ∈ changes ledger.history)
  have hv : 1 < row.toWorkflowVersion := by
    have hone : v = 1 := by
      simp only [LedgerStore.system, origins, Option.map_eq_some_iff, Prod.mk.injEq] at horigin
      obtain ⟨-, -, hone, -⟩ := horigin
      exact hone.symm
    exact hone ▸ hlater
  by_cases htopic : e.topic = "workflow-transitions"
  · simp [htopic]
  · have hfirst := kept.first e he htopic
    have hne : ¬ e.aggregateVersion = row.toWorkflowVersion := by omega
    simp [htopic, hne]

/-- Transition ledger integrity. -/
theorem transition_ledger_integrity (h : ledgerMachine.Reach ledger) :
    (∀ k a, ledger.projections.aggregate k = some a →
      (ledger.transitionsOf k).map (·.toWorkflowVersion) =
          List.range' 2 (ledger.transitionsOf k).length ∧
        (ledger.transitionsOf k).IsChain (fun r r' => r'.fromState = r.toState) ∧
        (∀ r ∈ (ledger.transitionsOf k).head?,
          r.fromState = initialState k.1 ∧ r.fromWorkflowVersion = 1) ∧
        ((ledger.transitionsOf k).getLast?.map (fun r => (r.toWorkflowVersion, r.toState))).getD
          (1, initialState k.1) = (a.version, a.state)) ∧
    ∀ row ∈ ledger.transitions,
      (∃ a, ledger.projections.aggregate row.key = some a) ∧
        (∃ event, Announces row event ∧ ledger.eventsOf row = [event]) ∧
        CommittedByHolder ledger.history row.entry := by
  have kept := reach_kept h
  refine ⟨fun k a here => ?_, fun row hr => ?_⟩
  · have runs := kept.runs here
    refine ⟨?_, ?_, ?_, ?_⟩
    · have hversions := runs.versions
      rw [List.map_map, List.length_map] at hversions
      exact hversions
    · have hchain := (List.isChain_map _).mp runs.chain
      exact hchain.imp (fun _ _ hr => hr.1)
    · intro r hr
      refine runs.first r.entry ?_
      rw [List.head?_map]
      exact Option.mem_map_of_mem _ hr
    · have hlast := runs.last
      rw [List.getLast?_map, Option.map_map] at hlast
      exact hlast
  · have hentry : row.entry ∈ changes ledger.history :=
      kept.recorded ▸ List.mem_map_of_mem hr
    obtain ⟨a, v, st, here, -⟩ := kept.sound.later hentry
    exact ⟨⟨a, here⟩, kept.event hr, kept.sound.fenced.committedByHolder hentry⟩

section Example

def triage : TransitionWrite IncidentState :=
  ⟨.detected, .triaging, "TRIAGE_STARTED", "COORDINATOR", "a", "triage", "opened", [], none, none⟩

def investigation : TransitionWrite IncidentState :=
  ⟨.triaging, .investigating, "INVESTIGATION_STARTED", "COORDINATOR", "b", "evidence", "triaged", [],
    none, none⟩

/-- One coordinator makes a transition, its lease runs out, and another goes on. -/
def takenOver : List LedgerMove :=
  [.openIncident "inc_1" "db_pool_exhaustion" "payments" "graph_1" 2 "evt_1",
    .acquireLease .incident "inc_1" "a" 60000 1,
    .commitTransition ⟨.incident, "inc_1", "a", 1, 1⟩ triage "trn_1" "evt_2",
    .begin 60000001, .acquireLease .incident "inc_1" "b" 60000 2,
    .commitTransition ⟨.incident, "inc_1", "b", 2, 2⟩ investigation "trn_2" "evt_3"]

theorem transition_ledger_integrity_takenOver :
    ∃ s, ledgerMachine.Reach s ∧ s.transitions.map (·.toWorkflowVersion) = [2, 3] ∧
      ∀ row ∈ s.transitions, CommittedByHolder s.history row.entry := by
  have hrun : ((Machine.runFn LedgerStore.next (LedgerStore.empty 0) takenOver).any
      (fun s => s.transitions.map (·.toWorkflowVersion) == [2, 3])) = true := by
    decide +kernel
  obtain ⟨s, reach, hs⟩ := (Machine.exists_reach takenOver ⟨0, rfl⟩ hrun :
    ∃ s, ledgerMachine.Reach s ∧ _)
  have hversions : s.transitions.map (·.toWorkflowVersion) = [2, 3] := beq_iff_eq.mp hs
  exact ⟨s, reach, hversions, fun row hr => ((transition_ledger_integrity reach).2 row hr).2.2⟩

end Example

end Solvan.Cases
