import Mathlib
import Solvan.Domain.ActionPolicy

namespace Solvan.Domain

variable {sha256 : ByteArray → String}

/-- Agreement on everything an approval is about. Payloads, effects and plans
agree as objects, expiries as moments. -/
structure SameBinding (a b : ActionMaterial) : Prop where
  actionId : a.actionId = b.actionId
  scope : a.scope = b.scope
  ownerEntityId : a.ownerEntityId = b.ownerEntityId
  workflowVersion : a.workflowVersion = b.workflowVersion
  evidenceVersion : a.evidenceVersion = b.evidenceVersion
  actionType : a.actionType = b.actionType
  targetKey : a.targetKey = b.targetKey
  expectedTargetVersion : a.expectedTargetVersion = b.expectedTargetVersion
  expectedTargetEpoch : a.expectedTargetEpoch = b.expectedTargetEpoch
  payload : Json.Same (.obj a.payload) (.obj b.payload)
  expectedEffect : Json.Same (.obj a.expectedEffect) (.obj b.expectedEffect)
  expectedEffectHash : a.expectedEffectHash = b.expectedEffectHash
  riskClass : a.riskClass = b.riskClass
  reversible : a.reversible = b.reversible
  rollbackPlan : Json.Same (.obj a.rollbackPlan) (.obj b.rollbackPlan)
  policyVersion : a.policyVersion = b.policyVersion
  verificationProfileId : a.verificationProfileId = b.verificationProfileId
  verificationProfileVersion : a.verificationProfileVersion = b.verificationProfileVersion
  expiresAt : a.expiresAt.instant = b.expiresAt.instant

/-- Every live version, epoch and reservation is the one the material names. -/
structure ExecutionAuthoritySnapshot.AgreesWith (execution : ExecutionAuthoritySnapshot)
    (material : ActionMaterial) : Prop where
  unexpired : execution.now.instant < material.expiresAt.instant
  workflowVersion : execution.workflowVersion = material.workflowVersion
  evidenceVersion : execution.evidenceVersion = material.evidenceVersion
  targetVersion : execution.targetVersion = material.expectedTargetVersion
  targetEpoch : execution.targetEpoch = material.expectedTargetEpoch + 1
  reservationExpectedTargetEpoch :
    execution.reservationExpectedTargetEpoch = material.expectedTargetEpoch
  reservationEpoch : execution.reservationEpoch = material.expectedTargetEpoch + 1
  policyVersion : execution.policyVersion = material.policyVersion
  reservationActionId : execution.reservationActionId = material.actionId

theorem ActionType.value_inj {a b : ActionType} (h : a.value = b.value) : a = b := by
  cases a <;> cases b <;> first | rfl | (exact absurd h (by decide))

theorem RiskClass.value_inj {a b : RiskClass} (h : a.value = b.value) : a = b := by
  cases a <;> cases b <;> first | rfl | (exact absurd h (by decide))

/-- With an injective hash only one value has a canonical hash. -/
theorem same_of_hash (inj : Function.Injective sha256) {a b : Json}
    (h : "sha256:" ++ sha256 (canonicalJson a) = "sha256:" ++ sha256 (canonicalJson b)) :
    Json.Same a b := by
  have hbytes := inj ((String.append_right_inj _).mp h)
  simp only [canonicalJson, String.toUTF8_eq_toByteArray, String.toByteArray_inj] at hbytes
  exact Json.dumps_eq_iff.mp hbytes

/-- The constructor lets an effect through only if it is the one its hash names. -/
theorem ActionMaterial.effect_of_valid {m : ActionMaterial} (h : m.postInit sha256 = .ok ()) :
    ∃ descriptor : Mapping, Json.Same (.obj m.expectedEffect) (.obj descriptor) ∧
      m.expectedEffectHash = canonicalJsonHash sha256 (.obj descriptor) := by
  obtain ⟨-, -, h⟩ := ok_of_bind h
  obtain ⟨expected, hderive, h⟩ := ok_of_bind h
  unfold deriveExpectedEffect at hderive
  obtain ⟨descriptor, -, hderive⟩ := ok_of_bind hderive
  obtain ⟨frozen, -, hderive⟩ := ok_of_bind hderive
  have heffect := (Except.ok.inj hderive).symm
  subst heffect
  have hchecks := firstFailure_ok.mp h
  simp only [List.mem_cons, List.not_mem_nil, or_false, forall_eq_or_imp, forall_eq, beq_iff_eq]
    at hchecks
  exact ⟨frozen, Json.dumps_eq_iff.mp hchecks.1, hchecks.2⟩

theorem approvalDigest_ok {m : ActionMaterial} {digest : String}
    (h : m.approvalDigest sha256 = .ok digest) :
    ∃ expiresAt, m.expiresAt.utcText = some expiresAt ∧
      digest = "sha256:" ++ sha256 (canonicalJson (.obj (m.digestFields expiresAt))) := by
  unfold ActionMaterial.approvalDigest at h
  cases ht : m.expiresAt.utcText with
  | none => rw [ht] at h; cases h
  | some expiresAt => rw [ht] at h; exact ⟨expiresAt, rfl, (Except.ok.inj h).symm⟩

/-- Equal digests leave nothing to differ in. -/
theorem approvalDigest_inj (inj : Function.Injective sha256)
    {a b : AuthorizedActionMaterial sha256} {digest : String}
    (ha : a.approvalDigest sha256 = .ok digest) (hb : b.approvalDigest sha256 = .ok digest) :
    SameBinding a.toActionMaterial b.toActionMaterial := by
  obtain ⟨aExpires, hat, had⟩ := approvalDigest_ok ha
  obtain ⟨bExpires, hbt, hbd⟩ := approvalDigest_ok hb
  have hsame := same_of_hash inj (had.symm.trans hbd)
  have hvalues := hsame.values rfl (by simp [ActionMaterial.digestFields])
  simp only [ActionMaterial.digestFields, List.map_cons, List.map_nil, Json.sortedField,
    Json.sorted, List.cons.injEq, Prod.mk.injEq, true_and, and_true, Json.str.injEq,
    Json.int.injEq, Json.bool.injEq] at hvalues
  obtain ⟨hid, htype, henv, hev, hepoch, hversion, heffect, hexpires, horg, howner, hpayload,
    hpolicy, hproject, hrev, hrisk, hplan, htarget, hprofile, hprofileVersion, hworkflow⟩ := hvalues
  obtain ⟨aEffect, haSame, haHash⟩ := ActionMaterial.effect_of_valid a.valid
  obtain ⟨bEffect, hbSame, hbHash⟩ := ActionMaterial.effect_of_valid b.valid
  have heffects := same_of_hash inj (haHash.symm.trans (heffect.trans hbHash))
  have hscope : a.scope = b.scope := by
    cases hs : a.scope
    cases ht : b.scope
    rw [hs, ht] at henv horg hproject
    simp only at henv horg hproject
    rw [henv, horg, hproject]
  exact ⟨hid, hscope, howner, hworkflow, hev, ActionType.value_inj htype, htarget, hversion,
    hepoch, hpayload, haSame.trans (heffects.trans hbSame.symm), heffect,
    RiskClass.value_inj hrisk, hrev, hplan, hpolicy, hprofile, hprofileVersion,
    Datetime.utcText_inj hat (hexpires ▸ hbt)⟩

theorem validateExecutionAuthority_ok {material : ActionMaterial}
    {execution : ExecutionAuthoritySnapshot}
    (h : validateExecutionAuthority material execution = .ok ()) :
    execution.AgreesWith material := by
  have hchecks := firstFailure_ok.mp h
  simp only [List.mem_cons, List.not_mem_nil, or_false, forall_eq_or_imp, forall_eq, beq_iff_eq,
    decide_eq_true_eq] at hchecks
  obtain ⟨hexpiry, hworkflow, hevidence, hversion, hexpected, hreservation, htarget, hpolicy,
    haction⟩ := hchecks
  exact ⟨hexpiry, hworkflow, hevidence, hversion, htarget.trans hreservation, hexpected,
    hreservation, hpolicy, haction⟩

theorem validateExactApproval_ok {material : ActionMaterial} {approval : ApprovalRecord}
    {execution : ExecutionAuthoritySnapshot}
    (h : validateExactApproval sha256 material approval execution = .ok ()) :
    material.approvalDigest sha256 = .ok approval.actionDigest ∧
      execution.AgreesWith material := by
  obtain ⟨digest, hdigest, h⟩ := ok_of_bind h
  obtain ⟨_, hchecks, h⟩ := ok_of_bind h
  have hmatch : approval.actionDigest = digest := by
    have hall := firstFailure_ok.mp hchecks
    simp only [List.mem_cons, List.not_mem_nil, or_false, forall_eq_or_imp, beq_iff_eq] at hall
    exact hall.2.2.1
  exact ⟨hmatch ▸ hdigest, validateExecutionAuthority_ok h⟩

/-- Agreeing with material is agreeing with whatever it is bound to. -/
theorem SameBinding.agreesWith {a b : ActionMaterial} (h : SameBinding a b)
    {execution : ExecutionAuthoritySnapshot} (agrees : execution.AgreesWith b) :
    execution.AgreesWith a where
  unexpired := h.expiresAt ▸ agrees.unexpired
  workflowVersion := h.workflowVersion ▸ agrees.workflowVersion
  evidenceVersion := h.evidenceVersion ▸ agrees.evidenceVersion
  targetVersion := h.expectedTargetVersion ▸ agrees.targetVersion
  targetEpoch := h.expectedTargetEpoch ▸ agrees.targetEpoch
  reservationExpectedTargetEpoch :=
    h.expectedTargetEpoch ▸ agrees.reservationExpectedTargetEpoch
  reservationEpoch := h.expectedTargetEpoch ▸ agrees.reservationEpoch
  policyVersion := h.policyVersion ▸ agrees.policyVersion
  reservationActionId := h.actionId ▸ agrees.reservationActionId

/-- A digest stands for one material. So an approval of that digest lets no
other material through, and lets it through only while everything live is still
as it was approved. -/
theorem approval_binds_exact_material (sha256 : ByteArray → String)
    (inj : Function.Injective sha256) (approved material : AuthorizedActionMaterial sha256) :
    (∀ digest, approved.approvalDigest sha256 = .ok digest →
      material.approvalDigest sha256 = .ok digest →
        SameBinding approved.toActionMaterial material.toActionMaterial) ∧
    ∀ approval execution, approved.approvalDigest sha256 = .ok approval.actionDigest →
      validateExactApproval sha256 material.toActionMaterial approval execution = .ok () →
        SameBinding approved.toActionMaterial material.toActionMaterial ∧
          execution.AgreesWith approved.toActionMaterial := by
  refine ⟨fun digest => approvalDigest_inj inj, ?_⟩
  intro approval execution recorded accepted
  obtain ⟨hdigest, agrees⟩ := validateExactApproval_ok accepted
  have hsame := approvalDigest_inj inj recorded hdigest
  exact ⟨hsame, hsame.agreesWith agrees⟩

section Example

def recyclePayload : Mapping :=
  [("admin_operation", .str "RECYCLE_DB_POOL"), ("drain_timeout_ms", .int 30000)]

def recycleEffect : Mapping :=
  [("action_type", .str "PAYMENTS_POOL_RECYCLE"), ("from_pool_generation", .str "7"),
    ("operation", .obj recyclePayload), ("profile", .str "payments-pool-recycle.v1"),
    ("schema_version", .int 1), ("target_key", .str "payments/pool")]

/-- Noon of the 29th of February 2024, two hours ahead of UTC. -/
def recycleExpiry : Datetime := ⟨63844804800000000, some 7200000000, by decide⟩

def recycleMaterial : ActionMaterial where
  actionId := "act_1"
  scope := ⟨"org_1", "prj_1", "env_1"⟩
  ownerEntityId := "inc_1"
  workflowVersion := 3
  evidenceVersion := 2
  actionType := .paymentsPoolRecycle
  targetKey := "payments/pool"
  expectedTargetVersion := "7"
  expectedTargetEpoch := 4
  payload := recyclePayload
  expectedEffect := recycleEffect
  expectedEffectHash := "sha256:1b875aabc67fa2d58542877cfc7a4ee9719e4736bd3a7ccc3859b7cadc70767d"
  riskClass := .low
  reversible := true
  rollbackPlan := []
  policyVersion := "v1"
  verificationProfileId := "vp_1"
  verificationProfileVersion := 1
  expiresAt := recycleExpiry

def recycleDigestBytes : ByteArray :=
  canonicalJson (.obj (recycleMaterial.digestFields "2024-02-29T10:00:00.000000Z"))

def recycleEffectHash : String :=
  "1b875aabc67fa2d58542877cfc7a4ee9719e4736bd3a7ccc3859b7cadc70767d"

def recycleDigestHash : String :=
  "e0773c5fbe22fc05b056b194de96754abb5e6ebf50a43c9f7ec313447f71db38"

def markedBytes (bytes : ByteArray) : String :=
  String.ofList ('-' :: bytes.data.toList.map Char.ofUInt8)

/-- SHA-256 on the two texts that are hashed here, and some other injective map
elsewhere. -/
def recycleSha256 (bytes : ByteArray) : String :=
  if bytes = canonicalJson (.obj recycleEffect) then recycleEffectHash
  else if bytes = recycleDigestBytes then recycleDigestHash
  else markedBytes bytes

theorem markedBytes_injective : Function.Injective markedBytes := by
  intro a b h
  have hbyte : Function.Injective Char.ofUInt8 :=
    Function.LeftInverse.injective (g := Char.toUInt8) (fun byte => by
      simp [Char.toUInt8, Char.ofUInt8])
  have hlist := (List.cons.inj (String.ofList_injective h)).2
  exact ByteArray.ext (Array.toList_inj.mp (List.map_injective_iff.mpr hbyte hlist))

theorem markedBytes_ne {known : String} (h : known.toList.head? ≠ some '-') (bytes : ByteArray) :
    markedBytes bytes ≠ known := by
  rintro rfl
  simp [markedBytes] at h

theorem recycleSha256_cases (bytes : ByteArray) :
    (bytes = canonicalJson (.obj recycleEffect) ∧ recycleSha256 bytes = recycleEffectHash) ∨
    (bytes = recycleDigestBytes ∧ recycleSha256 bytes = recycleDigestHash) ∨
    recycleSha256 bytes = markedBytes bytes := by
  unfold recycleSha256
  by_cases he : bytes = canonicalJson (.obj recycleEffect)
  · exact .inl ⟨he, by simp [he]⟩
  · by_cases hd : bytes = recycleDigestBytes
    · exact .inr (.inl ⟨hd, by rw [if_neg he, if_pos hd]⟩)
    · exact .inr (.inr (by rw [if_neg he, if_neg hd]))

theorem recycleSha256_injective : Function.Injective recycleSha256 := by
  have heffect : ∀ bytes, markedBytes bytes ≠ recycleEffectHash := markedBytes_ne (by decide)
  have hdigest : ∀ bytes, markedBytes bytes ≠ recycleDigestHash := markedBytes_ne (by decide)
  have hknown : recycleEffectHash ≠ recycleDigestHash := by
    simp [recycleEffectHash, recycleDigestHash]
  intro a b h
  rcases recycleSha256_cases a with ⟨ha, hsa⟩ | ⟨ha, hsa⟩ | hsa
  · rcases recycleSha256_cases b with ⟨hb, hsb⟩ | ⟨hb, hsb⟩ | hsb <;> rw [hsa, hsb] at h
    · exact ha.trans hb.symm
    · exact absurd h hknown
    · exact absurd h.symm (heffect b)
  · rcases recycleSha256_cases b with ⟨hb, hsb⟩ | ⟨hb, hsb⟩ | hsb <;> rw [hsa, hsb] at h
    · exact absurd h.symm hknown
    · exact ha.trans hb.symm
    · exact absurd h.symm (hdigest b)
  · rcases recycleSha256_cases b with ⟨hb, hsb⟩ | ⟨hb, hsb⟩ | hsb <;> rw [hsa, hsb] at h
    · exact absurd h (heffect a)
    · exact absurd h (hdigest a)
    · exact markedBytes_injective h

theorem recycleEffect_hash :
    canonicalJsonHash recycleSha256 (.obj recycleEffect) = recycleMaterial.expectedEffectHash := by
  simp only [canonicalJsonHash, recycleSha256, ↓reduceIte]
  rfl

theorem recycleEffect_derived : deriveExpectedEffect recycleSha256 .paymentsPoolRecycle
    "payments/pool" "7" recyclePayload =
      .ok ⟨recycleEffect, recycleMaterial.expectedEffectHash⟩ := by
  have hdescriptor : effectDescriptor .paymentsPoolRecycle "payments/pool" "7" recyclePayload =
      .ok recycleEffect := rfl
  have hfrozen : freezeJson recycleEffect = .ok recycleEffect := freezeJson_eq_ok rfl
  rw [← recycleEffect_hash]
  exact (ok_bind hdescriptor _).trans (ok_bind hfrozen _)

theorem recycleMaterial_valid : recycleMaterial.postInit recycleSha256 = .ok () := by
  refine (ok_bind (a := ()) ?_ _).trans ((ok_bind recycleEffect_derived _).trans ?_)
  · rw [firstFailure_ok]
    simp [recycleMaterial, Datetime.aware, recycleExpiry]
  · rw [firstFailure_ok]
    simp [recycleMaterial]

theorem recycleMaterial_digest : recycleMaterial.approvalDigest recycleSha256 =
    .ok ("sha256:" ++ recycleDigestHash) := by
  have htext : recycleMaterial.expiresAt.utcText = some "2024-02-29T10:00:00.000000Z" := by decide
  have hne : recycleDigestBytes ≠ canonicalJson (.obj recycleEffect) := by
    intro h
    simp only [recycleDigestBytes, canonicalJson, String.toUTF8_eq_toByteArray,
      String.toByteArray_inj, Json.dumps_eq_iff] at h
    exact absurd h.length_eq (by simp [ActionMaterial.digestFields, recycleEffect])
  have hhash : recycleSha256 recycleDigestBytes = recycleDigestHash := by
    rw [recycleSha256, if_neg hne, if_pos rfl]
  rw [ActionMaterial.approvalDigest, htext, ← hhash]
  rfl

def recycled : AuthorizedActionMaterial recycleSha256 := ⟨recycleMaterial, recycleMaterial_valid⟩

def recycleApproval : ApprovalRecord where
  actionId := "act_1"
  actionDigest := "sha256:" ++ recycleDigestHash
  targetKey := "payments/pool"
  expectedTargetVersion := "7"
  expectedTargetEpoch := 4
  evidenceVersion := 2
  policyVersion := "v1"
  approverPrincipal := "alice"
  decision := .approve
  decidedAt := ⟨63844797000000000, some 0, by decide⟩
  expiresAt := ⟨63844797600000000, some 0, by decide⟩
  aware := by decide
  later := by decide

def recycleExecution : ExecutionAuthoritySnapshot where
  now := ⟨63844797300000000, some 0, by decide⟩
  workflowVersion := 3
  evidenceVersion := 2
  targetVersion := "7"
  targetEpoch := 5
  reservationExpectedTargetEpoch := 4
  reservationEpoch := 5
  policyVersion := "v1"
  approverRoleActive := true
  reservationActionId := "act_1"
  aware := by decide

theorem recycleApproval_accepted : validateExactApproval recycleSha256 recycleMaterial
    recycleApproval recycleExecution = .ok () := by
  have hlive : validateExecutionAuthority recycleMaterial recycleExecution = .ok () := by decide
  rw [validateExactApproval, recycleMaterial_digest]
  simp [bind, Except.bind, firstFailure, recycleApproval, recycleMaterial, recycleExecution,
    Datetime.instant]
  exact hlive

theorem approval_binds_recycle :
    SameBinding recycleMaterial recycleMaterial ∧ recycleExecution.AgreesWith recycleMaterial :=
  (approval_binds_exact_material recycleSha256 recycleSha256_injective recycled recycled).2
    recycleApproval recycleExecution recycleMaterial_digest recycleApproval_accepted

end Example

end Solvan.Domain
