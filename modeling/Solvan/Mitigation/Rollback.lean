import Solvan.Mitigation.Refinement

namespace Solvan.Mitigation
open Domain (ok_bind ok_of_bind freezeJson freezeJson_eq_ok deriveExpectedEffect effectDescriptor
  trafficRollbackDescriptor requireKeys Mapping ExpectedEffect)
open Workflow

variable {sha256 : ByteArray → String} {db : Database} {lease : LeaseHandle}
  {failedActionId verificationId actorId : String} {new : NewIdentifiers} {m : RollbackMaterial}
  {s s' : Session} {lease' : LeaseHandle} {i : IncidentRow}

/-- What a rollback is planned on, as the plan's checks have it. -/
structure RollbackGrounds (db : Database) (lease : LeaseHandle)
    (failedActionId verificationId : String) (m : RollbackMaterial) : Prop where
  incident : lease.aggregateType = .incident
  locked : lockedIncident db lease = some (m.incident, m.service)
  verifying : m.incident.state = .verifyingMitigation
  failedRecycle : failedRecycleExists db lease.entityId failedActionId verificationId = true
  budget : m.incident.actionAttemptCount < m.incident.actionBudget
  deployment : approvedDeploymentPolicy db m.incident m.service = .ok m.deployment
  profile : verificationProfile db m.incident = .ok m.profile
  target : targetEpoch db m.deployment.targetKey = .ok m.target
  baseline : m.target.lastObservedVersion = m.deployment.activeRevision

theorem rollbackMaterial_iff :
    rollbackMaterial db lease failedActionId verificationId = .ok m ↔
      RollbackGrounds db lease failedActionId verificationId m := by
  unfold rollbackMaterial
  constructor
  · intro h
    obtain ⟨_, hincident, h⟩ := ok_of_bind h
    split at h
    · cases h
    · rename_i incident service hlocked
      obtain ⟨_, hverifying, h⟩ := ok_of_bind h
      obtain ⟨_, hfailed, h⟩ := ok_of_bind h
      obtain ⟨_, hbudget, h⟩ := ok_of_bind h
      obtain ⟨deployment, hdeployment, h⟩ := ok_of_bind h
      obtain ⟨profile, hprofile, h⟩ := ok_of_bind h
      obtain ⟨target, htarget, h⟩ := ok_of_bind h
      obtain ⟨_, hbaseline, h⟩ := ok_of_bind h
      cases h
      exact
        { incident := by simpa using require_ok.mp hincident
          locked := hlocked
          verifying := by simpa using require_ok.mp hverifying
          failedRecycle := require_ok.mp hfailed
          budget := by simpa using require_ok.mp hbudget
          deployment := hdeployment
          profile := hprofile
          target := htarget
          baseline := by simpa using require_ok.mp hbaseline }
  · intro h
    refine (ok_bind (require_ok.mpr (by simp [h.incident])) _).trans ?_
    simp only [h.locked]
    refine (ok_bind (require_ok.mpr (by simp [h.verifying])) _).trans ?_
    refine (ok_bind (require_ok.mpr h.failedRecycle) _).trans ?_
    refine (ok_bind (require_ok.mpr (by simp [h.budget])) _).trans ?_
    refine (ok_bind h.deployment _).trans ?_
    refine (ok_bind h.profile _).trans ?_
    refine (ok_bind h.target _).trans ?_
    exact ok_bind (require_ok.mpr (by simp [h.baseline])) _

/-- A rollback's payload, frozen. -/
theorem freeze_rollbackPayload : freezeJson m.payload =
    .ok [("known_good_revision", .str m.deployment.knownGoodRevision), ("percent", .int 100),
      ("service_name", .str m.service.platformResource)] := by
  apply freezeJson_eq_ok
  simp [RollbackMaterial.payload, Json.sorted, Json.sortedFields, Json.sortedField,
    List.orderedInsert]

theorem freezeJson_ok (value : Mapping) :
    freezeJson value = .ok ((Json.sortedFields value).insertionSort (fun f g => f.1 ≤ g.1)) :=
  freezeJson_eq_ok (by rw [Json.sorted])

/-- The effect of a rollback can be derived when there is a service to name. -/
theorem rollbackEffect_iff (sha256 : ByteArray → String) (hrevision : m.deployment.knownGoodRevision ≠ "")
    (targetKey targetVersion : String) :
    (∃ effect, expectedEffectOf sha256 .cloudRunTrafficRollback targetKey targetVersion m.payload =
      .ok effect) ↔ m.service.platformResource ≠ "" := by
  unfold expectedEffectOf
  simp only [ok_bind freeze_rollbackPayload]
  simp only [deriveExpectedEffect, effectDescriptor, trafficRollbackDescriptor]
  by_cases hname : m.service.platformResource = ""
  · simp [hname, requireKeys, List.lookup_cons, Bind.bind, Except.bind, Except.mapError, throw,
      throwThe, MonadExceptOf.throw]
  · simp [hname, hrevision, requireKeys, List.lookup_cons, Bind.bind, Except.bind, Except.mapError,
      freezeJson_ok]
    exact ⟨_, rfl⟩

theorem nonemptyString_ne {attributes : Mapping} {key value : String}
    (h : nonemptyString attributes key = some value) : value ≠ "" := by
  unfold nonemptyString at h
  split at h
  · split at h
    · cases h
    · rename_i hne
      cases h
      exact hne
  · cases h

/-- An approved policy names a revision to go back to. -/
theorem knownGoodRevision_ne {service : ServiceRow} {deployment : DeploymentPolicy}
    (h : approvedDeploymentPolicy db i service = .ok deployment) :
    deployment.knownGoodRevision ≠ "" := by
  simp only [approvedDeploymentPolicy] at h
  split at h
  · split at h
    · cases h
    · split at h
      · rename_i hknown htarget
        split at h
        · cases h
        · cases h
          exact nonemptyString_ne ‹nonemptyString _ "known_good_revision" = some _›
      · cases h
  · cases h

/-- No transition of an incident has this key yet. -/
def KeyUnused (db : Database) (entityId transitionKey : String) : Prop :=
  ∀ t ∈ db.transitions, t.entityId = entityId → t.transitionKey ≠ transitionKey

/-- When a rollback plan goes through. -/
structure RollbackReady (sha256 : ByteArray → String) (db : Database) (lease : LeaseHandle)
    (failedActionId verificationId : String) (new : NewIdentifiers) (m : RollbackMaterial) : Prop
    extends RollbackGrounds db lease failedActionId verificationId m where
  resource : m.service.platformResource ≠ ""
  proposable : KeyUnused db lease.entityId ("VERIFICATION_FAILED_RETRYABLE:" ++ verificationId)
  approvable : KeyUnused db lease.entityId ("APPROVAL_REQUIRED:" ++ new.action)
  newAction : ∀ a ∈ db.actions, a.idempotencyKey ≠ rollbackKey sha256 lease verificationId m

/-- A proposal does not take the key of the approval it leads to. -/
theorem proposal_key_ne (verificationId actionId : String) :
    "VERIFICATION_FAILED_RETRYABLE:" ++ verificationId ≠ "APPROVAL_REQUIRED:" ++ actionId := by
  intro h
  have := congrArg String.toList h
  simp at this

section
variable (sha256 : ByteArray → String) (db : Database) (lease : LeaseHandle)
  (failedActionId verificationId actorId : String) (new : NewIdentifiers) (m : RollbackMaterial)

/-- The transaction when its policy decision is in. -/
def decided : Session :=
  insertPolicyDecision ⟨db, []⟩ (rollbackDecision sha256 failedActionId verificationId new m)

/-- The transaction when the rollback is proposed. -/
def proposed : Session :=
  committed (decided sha256 db failedActionId verificationId new m) lease
    (rollbackProposal failedActionId verificationId actorId new) (lease.workflowVersion + 1)

/-- The action as the plan inserts it. -/
def proposedAction (effect : ExpectedEffect) : ActionRow :=
  rollbackAction sha256 db (LeaseHandle.next lease) verificationId actorId new m effect
    (displayText db.nextActionDisplay)

/-- The transaction when the action is in. -/
def actionInserted (effect : ExpectedEffect) : Session :=
  (proposed sha256 db lease failedActionId verificationId actorId new m).withAction
    (proposedAction sha256 db lease verificationId actorId new m effect)

/-- The transaction when the action waits for its approval. -/
def awaiting (effect : ExpectedEffect) : Session :=
  committed (actionInserted sha256 db lease failedActionId verificationId actorId new m effect)
    (LeaseHandle.next lease) (approvalRequest actorId new) (lease.workflowVersion + 2)

end

/-- A proposal can be committed on its grounds. -/
theorem RollbackGrounds.committable (sha256 : ByteArray → String) (actorId : String)
    (new : NewIdentifiers) (h : RollbackGrounds db lease failedActionId verificationId m)
    (hnew : KeyUnused db lease.entityId ("VERIFICATION_FAILED_RETRYABLE:" ++ verificationId)) :
    Committable (decided sha256 db failedActionId verificationId new m) lease
      (rollbackProposal failedActionId verificationId actorId new) m.incident where
  incident := h.incident
  holds := lockedIncident_holds h.locked
  state := h.verifying
  newKey := hnew

/-- A proposed rollback can be sent for approval. -/
theorem RollbackReady.committable (actorId : String) (effect : ExpectedEffect)
    (h : RollbackReady sha256 db lease failedActionId verificationId new m) :
    Committable (actionInserted sha256 db lease failedActionId verificationId actorId new m effect)
      (LeaseHandle.next lease) (approvalRequest actorId new)
      (IncidentRow.moved m.incident .mitigationProposed) where
  incident := h.incident
  holds := (h.toRollbackGrounds.committable sha256 actorId new h.proposable).holds_next
  state := rfl
  newKey := by
    intro t ht he
    rcases List.mem_append.mp ht with ht | ht
    · exact h.approvable t ht he
    · rw [List.mem_singleton.mp ht]
      exact proposal_key_ne verificationId new.action

/-- A rollback plan goes through exactly when it is ready, and then does this. -/
theorem planApprovalBoundRollback_iff {result : RollbackProposalResult} :
    planApprovalBoundRollback sha256 lease failedActionId verificationId actorId new db =
        .ok (s, result) ↔
      ∃ m effect, RollbackReady sha256 db lease failedActionId verificationId new m ∧
        expectedEffectOf sha256 .cloudRunTrafficRollback m.deployment.targetKey
          m.target.lastObservedVersion m.payload = .ok effect ∧
        s = awaiting sha256 db lease failedActionId verificationId actorId new m effect ∧
        result = ⟨lease.entityId, failedActionId, new.action, displayText db.nextActionDisplay,
          lease.workflowVersion + 2, m.incident.evidenceVersion⟩ := by
  constructor
  · intro h
    obtain ⟨m, hm, h⟩ := ok_of_bind h
    obtain ⟨⟨s₁, lease₁⟩, hpropose, h⟩ := ok_of_bind h
    obtain ⟨⟨s₁, version₁⟩, hcommit₁, hpropose⟩ := ok_of_bind hpropose
    obtain ⟨⟨i, hi⟩, rfl, rfl⟩ := commitTransition_iff.mp hcommit₁
    cases hpropose
    obtain ⟨effect, heffect, h⟩ := ok_of_bind h
    obtain ⟨⟨s₂, displayId⟩, hinsert, h⟩ := ok_of_bind h
    obtain ⟨rfl, rfl, hunused⟩ := insertAction_iff.mp hinsert
    obtain ⟨⟨s₃, version₃⟩, hcommit₃, h⟩ := ok_of_bind h
    obtain ⟨⟨j, hj⟩, rfl, rfl⟩ := commitTransition_iff.mp hcommit₃
    obtain ⟨_, _, h⟩ := ok_of_bind h
    cases h
    have grounds := rollbackMaterial_iff.mp hm
    refine ⟨m, effect, ⟨grounds, ?_, hi.newKey, ?_, hunused⟩, heffect, rfl, rfl⟩
    · exact (rollbackEffect_iff _ (knownGoodRevision_ne grounds.deployment) _ _).mp ⟨effect, heffect⟩
    · exact fun t ht => hj.newKey t (List.mem_append_left _ ht)
  · rintro ⟨m, effect, ready, heffect, rfl, rfl⟩
    have hcommit₁ := commitTransition_iff.mpr ⟨⟨_, ready.toRollbackGrounds.committable
      sha256 actorId new ready.proposable⟩, rfl, rfl⟩
    have hcommit₃ := commitTransition_iff.mpr ⟨⟨_, ready.committable actorId effect⟩,
      rfl, rfl⟩
    refine (ok_bind (rollbackMaterial_iff.mpr ready.toRollbackGrounds) _).trans ?_
    have hpropose : proposeRollback sha256 db lease failedActionId verificationId actorId new m =
        .ok (proposed sha256 db lease failedActionId verificationId actorId new m,
          LeaseHandle.next lease) := ok_bind hcommit₁ _
    refine (ok_bind hpropose _).trans ?_
    refine (ok_bind heffect _).trans ?_
    refine (ok_bind (insertAction_iff.mpr ⟨rfl, rfl, ready.newAction⟩) _).trans ?_
    refine (ok_bind hcommit₃ _).trans ?_
    exact ok_bind (require_ok.mpr (by simp [LeaseHandle.next])) _

/-- The action waits for its approval under a policy that asks for one. -/
theorem RollbackReady.approvable_action {effect : ExpectedEffect}
    (h : RollbackReady sha256 db lease failedActionId verificationId new m)
    (heffect : expectedEffectOf sha256 .cloudRunTrafficRollback m.deployment.targetKey
      m.target.lastObservedVersion m.payload = .ok effect) :
    ApprovableAction sha256
      (actionInserted sha256 db lease failedActionId verificationId actorId new m effect).db
      (IncidentRow.moved m.incident .mitigationProposed)
      (proposedAction sha256 db lease verificationId actorId new m effect) where
  owned := (lockedIncident_holds h.locked).id_eq.symm
  waiting := ⟨rfl, rfl⟩
  effect := heffect
  unexpired := by
    have : (0 : Int) < minutes 15 := by decide
    show db.now < db.now + minutes 15
    omega
  policy := ⟨rollbackDecision sha256 failedActionId verificationId new m,
    List.mem_append_right _ (List.mem_singleton_self _), rfl, rfl⟩

/-- Granting a waiting action's approval moves its incident to the version the
action is bound to. -/
theorem foundOnceApproved {action : ActionRow} {incident : IncidentRow}
    (hmem : incident ∈ db.incidents) (howner : incident.id = action.incidentId)
    (hstate : incident.state = .awaitingApproval)
    (hversion : action.workflowVersion = incident.workflowVersion + 1) :
    FoundAtExecution db action := by
  refine ⟨incident, hmem, howner, .inr ⟨hstate, ?_⟩⟩
  rintro later lease write granted version ⟨i, hi, hid, hsame⟩ hlease _ _ hcommit
  obtain ⟨⟨j, hj⟩, rfl, rfl⟩ := commitTransition_iff.mp hcommit
  have hij : i = j :=
    later.db.incidentKeys.eq_of_key hi hj.holds.1 (hid.trans (hlease.symm.trans hj.holds.id_eq.symm))
  rw [hversion, ← hsame, hij, hj.holds.version_eq]

theorem RollbackReady.conforms {effect : ExpectedEffect} (actorId : String)
    (h : RollbackReady sha256 db lease failedActionId verificationId new m)
    (hcooldown : cooldownActive db.now m.incident = false)
    (heffect : expectedEffectOf sha256 .cloudRunTrafficRollback m.deployment.targetKey
      m.target.lastObservedVersion m.payload = .ok effect) :
    Sound sha256 (awaiting sha256 db lease failedActionId verificationId actorId new m effect)
      { LeaseHandle.next lease with workflowVersion := lease.workflowVersion + 2 }
      (IncidentRow.moved (IncidentRow.moved m.incident .mitigationProposed) .awaitingApproval) := by
  have hstart : Sound sha256 (decided sha256 db failedActionId verificationId new m) lease
      m.incident := ⟨fun c hc => (nomatch hc), lockedIncident_holds h.locked⟩
  have hcommit₁ := commitTransition_iff.mpr ⟨⟨_, h.toRollbackGrounds.committable
    sha256 actorId new h.proposable⟩, rfl, rfl⟩
  have hcommit₂ := commitTransition_iff.mpr ⟨⟨_, h.committable actorId effect⟩,
    rfl, rfl⟩
  obtain ⟨_, _, hproposed⟩ := hstart.commit
    ⟨.verifyingMitigation, .verificationFailedRetryable, .mitigationProposed,
      .actionBudgetRemainingAndCooldownSatisfied⟩
    (by simp [incidentTransitions]) rfl rfl rfl ⟨h.budget, hcooldown⟩ hcommit₁
  have hinserted := hproposed.withAction
    (proposedAction sha256 db lease verificationId actorId new m effect)
  obtain ⟨_, _, hawaiting⟩ := hinserted.commit
    ⟨.mitigationProposed, .approvalRequired, .awaitingApproval,
      .validActionAndPolicyRequiresApproval⟩
    (by simp [incidentTransitions]) rfl rfl rfl
    ⟨_, Session.mem_withAction _ _, rfl, h.approvable_action heffect⟩ hcommit₂
  exact hawaiting

theorem planApprovalBoundRollback_refines
    (h : ¬∃ m, RollbackReady sha256 db lease failedActionId verificationId new m ∧
      cooldownActive db.now m.incident = true) :
    Refines sha256 (fun r => some (RollbackProposalResult.actionId r))
      (planApprovalBoundRollback sha256 lease failedActionId verificationId actorId new db) := by
  intro s result hplan
  obtain ⟨m, effect, ready, heffect, rfl, rfl⟩ := planApprovalBoundRollback_iff.mp hplan
  have hcooldown : cooldownActive db.now m.incident = false := by
    simpa using fun hactive => h ⟨m, ready, hactive⟩
  have hsound := ready.conforms actorId hcooldown heffect
  refine ⟨hsound.conforms, fun id hid => ?_⟩
  cases hid
  refine ⟨proposedAction sha256 db lease verificationId actorId new m effect,
    Session.mem_withAction _ _, rfl, ?_⟩
  refine foundOnceApproved hsound.holds.1 hsound.holds.id_eq rfl ?_
  rw [hsound.holds.version_eq]
  rfl

/-- The one edge out of verification that leads back to a proposal. -/
theorem retry_edge : ∀ edge ∈ incidentTransitions, edge.source = .verifyingMitigation →
    edge.target = .mitigationProposed →
    edge.guard = .actionBudgetRemainingAndCooldownSatisfied := by
  decide

/-- A rollback planned before the cooldown has passed breaks the guard of the
edge it takes. -/
theorem RollbackReady.not_refines
    (h : RollbackReady sha256 db lease failedActionId verificationId new m)
    (hcooldown : cooldownActive db.now m.incident = true) :
    ¬Refines sha256 (fun r => some (RollbackProposalResult.actionId r))
      (planApprovalBoundRollback sha256 lease failedActionId verificationId actorId new db) := by
  intro hrefines
  obtain ⟨effect, heffect⟩ :=
    (rollbackEffect_iff sha256 (knownGoodRevision_ne h.deployment) _ _).mpr h.resource
  have hplan : planApprovalBoundRollback sha256 lease failedActionId verificationId actorId new db =
      .ok (awaiting sha256 db lease failedActionId verificationId actorId new m effect, _) :=
    planApprovalBoundRollback_iff.mpr ⟨m, effect, h, heffect, rfl, rfl⟩
  obtain ⟨incident, hmem, hid, _, edge, hedge, hsource, htarget, _, hguard⟩ :=
    (hrefines _ _ hplan).1 ⟨_, lease, rollbackProposal failedActionId verificationId actorId new⟩
      (List.mem_append_left _ (List.mem_append_right _ (List.mem_singleton_self _)))
  rw [retry_edge edge hedge hsource htarget] at hguard
  have hholds := lockedIncident_holds h.locked
  have hsame : incident = m.incident :=
    db.incidentKeys.eq_of_key hmem hholds.1 (hid.trans hholds.id_eq.symm)
  have hpassed : cooldownActive db.now m.incident = false := hsame ▸ hguard.2
  rw [hcooldown] at hpassed
  cases hpassed

/-- The planners refine the incident machine except where a rollback can be
planned while its incident's cooldown lasts. -/
theorem planners_refine_iff :
    ((∀ scope lease actorId new,
        Refines sha256 (Option.map MitigationPlanResult.actionId)
          (planPreauthorizedPoolRecycle sha256 scope lease actorId new db)) ∧
      Refines sha256 (fun r => some (RollbackProposalResult.actionId r))
        (planApprovalBoundRollback sha256 lease failedActionId verificationId actorId new db)) ↔
      ¬∃ m, RollbackReady sha256 db lease failedActionId verificationId new m ∧
        cooldownActive db.now m.incident = true := by
  constructor
  · rintro ⟨_, hrefines⟩ ⟨m, ready, hcooldown⟩
    exact ready.not_refines hcooldown hrefines
  · intro h
    exact ⟨fun _ _ _ _ => planPreauthorizedPoolRecycle_refines,
      planApprovalBoundRollback_refines h⟩

/-! A pool recycle that did not help, settled a minute ago with a cooldown of
ten minutes. -/

def coolingIncident : IncidentRow where
  id := "inc_1"
  workflowVersion := 6
  evidenceVersion := 3
  state := .verifyingMitigation
  incidentClass := "DB_CONNECTION_EXHAUSTION"
  primaryServiceId := "svc_payments"
  reliabilityCaseId := none
  productionGraphSnapshotId := "pgs_1"
  actionAttemptCount := 1
  actionBudget := 2
  cooldownUntil := some (minutes 10)
  suspectedRootCauseId := some "hyp_1"
  confirmedRootCauseId := some "hyp_1"
  lease := some ⟨"coordinator", 1, minutes 2⟩

def recycledAction : ActionRow where
  id := "act_1"
  displayId := "ACT-0001"
  incidentId := "inc_1"
  workflowVersion := 5
  evidenceVersion := 3
  actionType := .paymentsPoolRecycle
  normalizedSignature := "sha256:signature"
  targetKey := "org/prj/env/payments-admin/payments-api/connection-pool"
  expectedTargetVersion := "generation-7"
  expectedTargetEpoch := 1
  payload := [("admin_operation", .str "RECYCLE_DB_POOL"), ("drain_timeout_ms", .int 5000)]
  payloadDigest := "sha256:payload"
  expectedEffect := ⟨[], "sha256:effect"⟩
  riskClass := .medium
  reversible := false
  rollbackPlan := []
  verificationProfileId := "vpf_1"
  verificationProfileVersion := 1
  policyDecisionId := "pol_1"
  proposerPrincipal := "coordinator"
  standingPreauthorization := some ("spa_1", 1)
  requiresApproval := false
  status := .succeeded
  idempotencyKey := "pool-recycle:inc_1:sha256:signature"
  expiresAt := minutes 4

def rollbackPolicy : Mapping :=
  [("service_id", .str "svc_payments"), ("active_revision", .str "payments-api-00042"),
    ("known_good_revision", .str "payments-api-00041"), ("target_key", .str "run/payments-api")]

def coolingDatabase : Database where
  now := minutes 1
  incidents := [coolingIncident]
  incidentKeys := by simp [Table.Unique]
  services := [⟨"svc_payments", "payments-api", "payments-api"⟩]
  investigationPlans := []
  confirmationRules := []
  agentRuns := []
  evidence := []
  hypotheses := []
  standingPreauthorizations := []
  verificationProfiles := [⟨"vpf_1", 1, .approved⟩]
  profileBindings := [⟨"pgs_1", "svc_payments", "DB_CONNECTION_EXHAUSTION", "vpf_1", 1, 0, none⟩]
  targetEpochs := [⟨"run/payments-api", 1, "payments-api-00042"⟩]
  graphSnapshots := [⟨"pgs_1", .approved, none⟩]
  graphNodes := [⟨"pgs_1", .deployment, some "payments-api", .obj rollbackPolicy⟩]
  verificationRuns := [⟨"ver_1", some "act_1", .failed⟩]
  policyDecisions := []
  actions := [recycledAction]
  transitions := []
  nextActionDisplay := 2

def coolingLease : LeaseHandle := ⟨.incident, "inc_1", "coordinator", 1, 6⟩

def coolingMaterial : RollbackMaterial where
  incident := coolingIncident
  service := ⟨"svc_payments", "payments-api", "payments-api"⟩
  deployment := ⟨"payments-api-00042", "payments-api-00041", "run/payments-api"⟩
  profile := ⟨"vpf_1", 1, .approved⟩
  target := ⟨"run/payments-api", 1, "payments-api-00042"⟩

theorem coolingRollback_ready (sha256 : ByteArray → String) :
    RollbackReady sha256 coolingDatabase coolingLease "act_1" "ver_1" ⟨"hyp_2", "pol_2", "act_2"⟩
      coolingMaterial where
  incident := rfl
  locked := rfl
  verifying := rfl
  failedRecycle := by decide
  budget := by decide
  deployment := by rfl
  profile := by rfl
  target := by rfl
  baseline := rfl
  resource := by decide
  proposable := fun t ht => (nomatch ht)
  approvable := fun t ht => (nomatch ht)
  newAction := by
    intro a ha h
    rw [List.mem_singleton.mp ha] at h
    have := congrArg String.toList h
    simp [recycledAction, rollbackKey] at this

theorem rollback_during_cooldown :
    cooldownActive coolingDatabase.now coolingIncident = true ∧
      ¬Refines (fun _ => "00") (fun r => some (RollbackProposalResult.actionId r))
        (planApprovalBoundRollback (fun _ => "00") coolingLease "act_1" "ver_1" "coordinator"
          ⟨"hyp_2", "pol_2", "act_2"⟩ coolingDatabase) :=
  ⟨rfl, (coolingRollback_ready _).not_refines rfl⟩

end Solvan.Mitigation
