import Solvan.Domain.ActionPolicy
import Solvan.Mitigation.Guards

namespace Solvan.Mitigation
open Domain (ok_bind ok_of_bind)
open Workflow

variable {s s' : Session} {lease : LeaseHandle} {write : TransitionWrite} {version : Nat}
  {db : Database} {i : IncidentRow} {sha256 : ByteArray → String}

theorem require_ok {ok : Bool} {error : PersistenceError} :
    require ok error = .ok () ↔ ok = true := by
  cases ok <;> simp [require]

/-- The incident a lease holds. -/
def Holds (db : Database) (lease : LeaseHandle) (i : IncidentRow) : Prop :=
  i ∈ db.incidents ∧ IncidentRow.leasedTo db.now lease i = true

theorem Holds.id_eq (h : Holds db lease i) : i.id = lease.entityId := by
  have hl := h.2
  simp only [IncidentRow.leasedTo, Bool.and_eq_true, beq_iff_eq] at hl
  exact hl.1.1

theorem Holds.version_eq (h : Holds db lease i) : i.workflowVersion = lease.workflowVersion := by
  have hl := h.2
  simp only [IncidentRow.leasedTo, Bool.and_eq_true, beq_iff_eq] at hl
  exact hl.1.2

theorem Holds.unique {j : IncidentRow} (h : Holds db lease i) (h' : Holds db lease j) : i = j :=
  db.incidentKeys.eq_of_key h.1 h'.1 (h.id_eq.trans h'.id_eq.symm)

/-- When `commit_transition` goes through. -/
structure Committable (s : Session) (lease : LeaseHandle) (write : TransitionWrite)
    (i : IncidentRow) : Prop where
  incident : lease.aggregateType = .incident
  holds : Holds s.db lease i
  state : i.state = write.fromState
  newKey : ∀ t ∈ s.db.transitions, t.entityId = lease.entityId →
    t.transitionKey ≠ write.transitionKey

/-- `commit_transition` does one thing, or nothing. -/
theorem commitTransition_iff :
    commitTransition s lease write = .ok (s', version) ↔
      (∃ i, Committable s lease write i) ∧
        s' = committed s lease write (lease.workflowVersion + 1) ∧
          version = lease.workflowVersion + 1 := by
  unfold commitTransition
  constructor
  · intro h
    split at h
    · cases h
    · rename_i hagg
      split at h
      · cases h
      · rename_i i hfind
        split at h
        · cases h
        · rename_i hnew
          have hhit := List.find?_some hfind
          simp only [transitionHit, Bool.and_eq_true, beq_iff_eq] at hhit
          have holds : Holds s.db lease i := ⟨List.mem_of_find?_eq_some hfind, hhit.1⟩
          have hinc : lease.aggregateType = .incident := by
            cases ha : lease.aggregateType with
            | incident => rfl
            | reliabilityCase => exact absurd ha hagg
          refine ⟨⟨i, hinc, holds, hhit.2, ?_⟩, ?_⟩
          · intro t ht he hk
            exact hnew (List.any_eq_true.mpr ⟨t, ht, by simp [he, hk]⟩)
          · cases h
            rw [holds.version_eq]
            exact ⟨rfl, rfl⟩
  · rintro ⟨⟨i, hinc, holds, hstate, hnew⟩, rfl, rfl⟩
    have hagg : lease.aggregateType ≠ .reliabilityCase := by rw [hinc]; simp
    have hnone : s.db.transitions.any
        (fun t => t.entityId == lease.entityId && t.transitionKey == write.transitionKey) =
          false := by
      rw [List.any_eq_false]
      intro t ht
      simp only [Bool.and_eq_true, beq_iff_eq, not_and]
      exact hnew t ht
    rw [if_neg hagg]
    split
    · rename_i hfind
      have := List.find?_eq_none.mp hfind i holds.1
      simp [transitionHit, holds.2, hstate] at this
    · rename_i j hfind
      have hhit := List.find?_some hfind
      simp only [transitionHit, Bool.and_eq_true, beq_iff_eq] at hhit
      have hj : Holds s.db lease j := ⟨List.mem_of_find?_eq_some hfind, hhit.1⟩
      rw [hnone, if_neg (by simp), hj.version_eq]

/-- After a commit the lease handle at the next version holds the moved row. -/
theorem Committable.holds_next (h : Committable s lease write i) :
    Holds (committed s lease write (lease.workflowVersion + 1)).db
      { lease with workflowVersion := lease.workflowVersion + 1 }
      (IncidentRow.moved i write.toState) := by
  have hl := h.holds.2
  refine ⟨Table.mem_update_of_hit h.holds.1 (by simp [transitionHit, hl, h.state]), ?_⟩
  simp only [IncidentRow.leasedTo, Bool.and_eq_true, beq_iff_eq] at hl ⊢
  exact ⟨⟨hl.1.1, congrArg (· + 1) hl.1.2⟩, hl.2⟩

/-- A transaction in good order: what it wrote conforms, and its lease still
holds the row. -/
structure Sound (sha256 : ByteArray → String) (s : Session) (lease : LeaseHandle)
    (i : IncidentRow) : Prop where
  conforms : ∀ c ∈ s.commits, c.Conforms sha256
  holds : Holds s.db lease i

/-- A commit along an edge whose guard holds. -/
theorem Sound.commit {subject : String} (h : Sound sha256 s lease i) (edge : IncidentEdge)
    (hedge : edge ∈ incidentTransitions) (hsource : edge.source = write.fromState)
    (htarget : edge.target = write.toState)
    (hkey : write.transitionKey = edge.event.name ++ ":" ++ subject)
    (hguard : GuardHolds sha256 ⟨s.db, lease, write⟩ i edge.guard)
    (hc : commitTransition s lease write = .ok (s', version)) :
    version = lease.workflowVersion + 1 ∧
      s' = committed s lease write (lease.workflowVersion + 1) ∧
      Sound sha256 s' { lease with workflowVersion := version }
        (IncidentRow.moved i write.toState) := by
  obtain ⟨⟨j, hj⟩, rfl, rfl⟩ := commitTransition_iff.mp hc
  have hji : j = i := hj.holds.unique h.holds
  subst hji
  refine ⟨rfl, rfl, ?_, hj.holds_next⟩
  intro c hc
  rcases List.mem_append.mp hc with hc | hc
  · exact h.conforms c hc
  · have hc := List.mem_singleton.mp hc
    subst hc
    exact ⟨j, hj.holds.1, hj.holds.id_eq, hj.state, edge, hedge, hsource, htarget,
      ⟨subject, hkey⟩, hguard⟩

/-- The row `_locked_incident` returns is the one the lease holds. -/
theorem lockedIncident_holds {service : ServiceRow}
    (h : lockedIncident db lease = some (i, service)) : Holds db lease i := by
  unfold lockedIncident at h
  obtain ⟨j, hj, h⟩ := Option.bind_eq_some_iff.mp h
  obtain ⟨_, _, h⟩ := Option.bind_eq_some_iff.mp h
  cases h
  exact ⟨List.mem_of_find?_eq_some hj, List.find?_some hj⟩

/-- The policy tables, which a plan reads and never writes. -/
structure SamePolicy (db db' : Database) : Prop where
  now : db'.now = db.now
  confirmationRules : db'.confirmationRules = db.confirmationRules
  agentRuns : db'.agentRuns = db.agentRuns
  evidence : db'.evidence = db.evidence
  standingPreauthorizations : db'.standingPreauthorizations = db.standingPreauthorizations

theorem SamePolicy.matchingEvidence {db' : Database} (h : SamePolicy db db') (incidentId : String)
    (requirements : List ObservationRequirement) :
    matchingEvidence db' incidentId requirements = matchingEvidence db incidentId requirements := by
  simp only [Mitigation.matchingEvidence, h.now, h.evidence, h.agentRuns]

theorem insertAction_iff {action : String → ActionRow} {displayId : String} :
    insertAction s action = .ok (s', displayId) ↔
      displayId = displayText s.db.nextActionDisplay ∧ s' = s.withAction (action displayId) ∧
        ∀ a ∈ s.db.actions, a.idempotencyKey ≠ (action displayId).idempotencyKey := by
  constructor
  · intro h
    obtain ⟨_, hnew, h⟩ := ok_of_bind h
    cases h
    exact ⟨rfl, rfl, by simpa using require_ok.mp hnew⟩
  · rintro ⟨rfl, rfl, hnew⟩
    exact ok_bind (require_ok.mpr (by simpa using hnew)) _

def IncidentRow.withCause (i : IncidentRow) (hypothesisId : String) : IncidentRow :=
  { i with
    suspectedRootCauseId := some hypothesisId
    confirmedRootCauseId := some hypothesisId }

theorem insertConfirmedHypothesis_ok {row : HypothesisRow} (h : Sound sha256 s lease i)
    (hi : insertConfirmedHypothesis s lease row = .ok s') :
    s'.db.hypotheses = s.db.hypotheses ++ [row] ∧ SamePolicy s.db s'.db ∧
      Sound sha256 s' lease (IncidentRow.withCause i row.id) := by
  obtain ⟨_, _, hi⟩ := ok_of_bind hi
  obtain ⟨_, _, hi⟩ := ok_of_bind hi
  cases hi
  refine ⟨rfl, ⟨rfl, rfl, rfl, rfl, rfl⟩, h.conforms, ?_, h.holds.2⟩
  have hl := h.holds.2
  simp only [IncidentRow.leasedTo, Bool.and_eq_true] at hl
  obtain ⟨held, hlease, hlive⟩ := of_leaseLive hl.2
  refine Table.mem_update_of_hit (f := fun i => IncidentRow.withCause i row.id) h.holds.1 ?_
  simp [h.holds.id_eq, hlease, leaseNames, hlive.1, hlive.2.1]

/-- Evidence that confirms its cause by a rule. -/
structure Confirms (db : Database) (incident : IncidentRow) (rule : ConfirmationRuleRow)
    (spec : ConfirmationSpec) (evidenceRefs : List String) : Prop where
  onRecord : rule ∈ db.confirmationRules
  incidentClass : rule.incidentClass = incident.incidentClass
  approved : rule.status = .approved
  parsed : parseConfirmationSpec rule.requiredObservations = .ok spec
  matched : matchingEvidence db incident.id spec.allRequired = some evidenceRefs

theorem exactlyOne_mem {α : Type} {message : String} {rows : List α} {row : α}
    (h : exactlyOne message rows = .ok row) : row ∈ rows := by
  unfold exactlyOne at h
  split at h
  · cases h
    exact List.mem_singleton_self _
  · cases h

theorem singleConfirmationRule_ok {incidentClass : String} {rule : ConfirmationRuleRow}
    (h : singleConfirmationRule db incidentClass = .ok rule) :
    rule ∈ db.confirmationRules ∧ rule.incidentClass = incidentClass ∧ rule.status = .approved := by
  have hm := List.mem_filter.mp (exactlyOne_mem h)
  simpa using hm

variable {actorId : String} {rule : ConfirmationRuleRow} {spec : ConfirmationSpec}
  {evidenceRefs : List String} {lease' : LeaseHandle} {scope : Scope} {service : ServiceRow}
  {new : NewIdentifiers} {m : RecycleMaterial}

/-- The handle for the version a commit moved its incident to. -/
def LeaseHandle.next (lease : LeaseHandle) : LeaseHandle :=
  { lease with workflowVersion := lease.workflowVersion + 1 }

/-- The incident once its cause is confirmed. -/
def IncidentRow.diagnosed (i : IncidentRow) (hypothesisId : String) : IncidentRow :=
  IncidentRow.withCause (IncidentRow.moved i .diagnosing) hypothesisId

theorem confirmCause_ok {hypothesisId : String} (h : Sound sha256 s lease i)
    (hrule : Confirms s.db i rule spec evidenceRefs)
    (hc : confirmCause s lease actorId hypothesisId rule spec evidenceRefs = .ok (s', lease')) :
    lease' = LeaseHandle.next lease ∧ SamePolicy s.db s'.db ∧
      Sound sha256 s' lease' (IncidentRow.diagnosed i hypothesisId) ∧
      ∃ cause ∈ s'.db.hypotheses,
        ConfirmedCause s'.db (IncidentRow.diagnosed i hypothesisId) cause := by
  obtain ⟨⟨s₁, version⟩, hcommit, hc⟩ := ok_of_bind hc
  obtain ⟨s₂, hinsert, hc⟩ := ok_of_bind hc
  cases hc
  obtain ⟨rfl, rfl, hsound⟩ := h.commit
    ⟨.investigating, .diagnosisStarted, .diagnosing, .always⟩
    (by simp [incidentTransitions]) rfl rfl rfl trivial hcommit
  have hmoved : Sound sha256 _ (LeaseHandle.next lease) (IncidentRow.moved i .diagnosing) := hsound
  obtain ⟨hhyp, hsame, hsound⟩ := insertConfirmedHypothesis_ok hmoved hinsert
  have hsame : SamePolicy s.db s'.db :=
    ⟨hsame.now, hsame.confirmationRules, hsame.agentRuns, hsame.evidence,
      hsame.standingPreauthorizations⟩
  refine ⟨rfl, hsame, hsound, _, hhyp ▸ List.mem_append_right _ (List.mem_singleton_self _), ?_⟩
  exact
    { owned := h.holds.id_eq.symm
      linked := rfl
      confirmed := rfl
      supported := ⟨rule, hsame.confirmationRules ▸ hrule.onRecord, rfl, rfl, hrule.approved,
        hrule.incidentClass, spec, hrule.parsed,
        (hsame.matchingEvidence _ _).trans hrule.matched⟩ }

theorem Sound.withAction (h : Sound sha256 s lease i) (row : ActionRow) :
    Sound sha256 (s.withAction row) lease i :=
  ⟨h.conforms, h.holds⟩

theorem Session.mem_withAction (s : Session) (row : ActionRow) :
    row ∈ (s.withAction row).db.actions :=
  List.mem_append_right _ (List.mem_singleton_self row)

theorem Sound.insertPolicyDecision (h : Sound sha256 s lease i) (row : PolicyDecisionRow) :
    Sound sha256 (Mitigation.insertPolicyDecision s row) lease i :=
  ⟨h.conforms, h.holds⟩

/-- An action may be selected once a cause is confirmed. -/
theorem selectRecycle_ok {incident : IncidentRow} (h : Sound sha256 s lease i)
    (hcause : ∃ cause ∈ s.db.hypotheses, ConfirmedCause s.db i cause)
    (hc : selectRecycle sha256 s scope lease actorId new incident service evidenceRefs m =
      .ok (s', lease')) :
    lease' = LeaseHandle.next lease ∧ SamePolicy s.db s'.db ∧
      Sound sha256 s' lease' (IncidentRow.moved i .mitigationProposed) := by
  obtain ⟨cause, hmem, hcause⟩ := hcause
  obtain ⟨⟨s₁, version⟩, hcommit, hc⟩ := ok_of_bind hc
  cases hc
  obtain ⟨rfl, rfl, hsound⟩ := (h.insertPolicyDecision _).commit
    ⟨.diagnosing, .mitigationSelected, .mitigationProposed,
      .confirmedOrPolicySupportedHypothesis⟩
    (by simp [incidentTransitions]) rfl rfl rfl
    ⟨cause, hmem, hcause.owned, hcause.linked, hcause.confirmed, hcause.supported⟩ hcommit
  exact ⟨rfl, ⟨rfl, rfl, rfl, rfl, rfl⟩, hsound⟩

/-- A live authority whose terms an incident meets. -/
structure Authorizes (db : Database) (incident : IncidentRow) (m : RecycleMaterial) : Prop where
  onRecord : m.authority ∈ db.standingPreauthorizations
  covers : m.authority.covers db.now incident = true
  attempts : incident.actionAttemptCount < m.authority.maximumAttempts
  cooldown : cooldownActive db.now incident = false
  payload : m.authority.payloadConstraints = .obj m.payload

theorem recycleMaterial_ok {incident : IncidentRow}
    (h : recycleMaterial db scope incident service = .ok m) : Authorizes db incident m := by
  obtain ⟨authority, hauthority, h⟩ := ok_of_bind h
  obtain ⟨profile, _, h⟩ := ok_of_bind h
  obtain ⟨found, hfound, hauthority⟩ := ok_of_bind hauthority
  obtain ⟨_, hattempts, hauthority⟩ := ok_of_bind hauthority
  obtain ⟨_, hcooldown, hauthority⟩ := ok_of_bind hauthority
  cases hauthority
  have hm := List.mem_filter.mp (exactlyOne_mem hfound)
  split at h
  · rename_i payload hpayload
    obtain ⟨target, _, h⟩ := ok_of_bind h
    cases h
    exact
      { onRecord := hm.1
        covers := hm.2
        attempts := by simpa using require_ok.mp hattempts
        cooldown := by simpa using require_ok.mp hcooldown
        payload := hpayload }
  · cases h

/-- The action a recycle plan creates matches its authority exactly. -/
theorem Authorizes.match {incident : IncidentRow} (h : Authorizes db i m)
    (expectedEffect : Domain.ExpectedEffect) (displayId : String) :
    StandingMatch db.now i
      (recycleAction sha256 db scope lease actorId new incident service m expectedEffect displayId)
      m.authority := by
  have hc := h.covers
  simp only [StandingPreauthorizationRow.covers, Bool.and_eq_true, beq_iff_eq,
    decide_eq_true_eq] at hc
  obtain ⟨⟨⟨⟨⟨⟨⟨⟨htype, hservice⟩, hclass⟩, hstatus⟩, hfrom⟩, huntil⟩, hrisk⟩, _⟩, _⟩ := hc
  exact
    { named := rfl
      approved := hstatus
      actionType := htype.symm
      risk := by rw [hrisk]; exact le_refl _
      service := hservice.symm
      incidentClass := hclass.symm
      payload := h.payload.symm
      attempts := h.attempts
      cooldown := h.cooldown
      live := ⟨hfrom, huntil⟩ }

theorem authorizeRecycle_ok {incident : IncidentRow} {result : MitigationPlanResult}
    (h : Sound sha256 s lease i) (hauth : Authorizes s.db i m)
    (hc : authorizeRecycle sha256 s scope lease actorId new incident service evidenceRefs m =
      .ok (s', result)) :
    Sound sha256 s' (LeaseHandle.next lease) (IncidentRow.moved i .mitigating) ∧
      ∃ action ∈ s'.db.actions, action.id = result.actionId ∧
        action.incidentId = lease.entityId ∧ action.workflowVersion = lease.workflowVersion + 1 := by
  obtain ⟨effect, _, hc⟩ := ok_of_bind hc
  obtain ⟨⟨s₁, displayId⟩, hinsert, hc⟩ := ok_of_bind hc
  obtain ⟨⟨s₂, version⟩, hcommit, hc⟩ := ok_of_bind hc
  obtain ⟨_, _, hc⟩ := ok_of_bind hc
  cases hc
  obtain ⟨_, rfl, _⟩ := insertAction_iff.mp hinsert
  have hmem := s.mem_withAction
    (recycleAction sha256 s.db scope lease actorId new incident service m effect displayId)
  obtain ⟨rfl, rfl, hsound⟩ := (h.withAction _).commit
    ⟨.mitigationProposed, .preauthorized, .mitigating,
      .exactStandingPreauthorizationMatches⟩
    (by simp [incidentTransitions]) rfl rfl rfl
    ⟨_, hmem, rfl, h.holds.id_eq.symm, m.authority, hauth.onRecord,
      hauth.match effect displayId⟩ hcommit
  exact ⟨hsound, _, hmem, rfl, rfl, rfl⟩

/-- Every transition of the pool recycle plan conforms, and its action is bound
to the version the plan ends at. -/
theorem planPreauthorizedPoolRecycle_refines :
    Refines sha256 (Option.map MitigationPlanResult.actionId)
      (planPreauthorizedPoolRecycle sha256 scope lease actorId new db) := by
  intro s result h
  obtain ⟨_, _, h⟩ := ok_of_bind h
  split at h
  · cases h
  · rename_i incident service hlocked
    have hholds := lockedIncident_holds hlocked
    split at h
    · cases h
      exact ⟨fun c hc => (nomatch hc), fun id hid => (nomatch hid)⟩
    · obtain ⟨rule, hrule, h⟩ := ok_of_bind h
      obtain ⟨spec, hspec, h⟩ := ok_of_bind h
      split at h
      · cases h
        exact ⟨fun c hc => (nomatch hc), fun id hid => (nomatch hid)⟩
      · rename_i evidenceRefs hmatched
        obtain ⟨⟨s₁, lease₁⟩, hconfirm, h⟩ := ok_of_bind h
        obtain ⟨m, hm, h⟩ := ok_of_bind h
        obtain ⟨⟨s₂, lease₂⟩, hselect, h⟩ := ok_of_bind h
        obtain ⟨⟨s₃, planned⟩, hauthorize, h⟩ := ok_of_bind h
        cases h
        obtain ⟨hrecord, hclass, happroved⟩ := singleConfirmationRule_ok hrule
        have hstart : Sound sha256 ⟨db, []⟩ lease incident :=
          ⟨fun c hc => (nomatch hc), hholds⟩
        obtain ⟨rfl, _, hsound₁, hcause⟩ := confirmCause_ok hstart
          ⟨hrecord, hclass, happroved, hspec, hholds.id_eq ▸ hmatched⟩ hconfirm
        have hauth := recycleMaterial_ok hm
        obtain ⟨rfl, hsame, hsound₂⟩ := selectRecycle_ok hsound₁ hcause hselect
        have hauth₂ : Authorizes s₂.db (IncidentRow.moved
            (IncidentRow.diagnosed incident new.hypothesis) .mitigationProposed) m :=
          ⟨hsame.standingPreauthorizations ▸ hauth.onRecord, hsame.now ▸ hauth.covers,
            hauth.attempts, hsame.now ▸ hauth.cooldown, hauth.payload⟩
        obtain ⟨hsound₃, action, hmem, hid, howner, hversion⟩ :=
          authorizeRecycle_ok hsound₂ hauth₂ hauthorize
        refine ⟨hsound₃.conforms, fun id hresult => ⟨action, hmem, ?_, ?_⟩⟩
        · cases hresult
          exact hid
        · exact ⟨_, hsound₃.holds.1, hsound₃.holds.id_eq.trans howner.symm,
            .inl ⟨rfl, hsound₃.holds.version_eq.trans hversion.symm⟩⟩

end Solvan.Mitigation
