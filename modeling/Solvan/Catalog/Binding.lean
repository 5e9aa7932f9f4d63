import Mathlib.Data.Finset.Insert
import Solvan.Catalog.Tools

/-! The tool catalog: which probe a tool is bound over, and whether that depends on the order
in which probes and connections are listed. -/
namespace Solvan.Catalog

open Checks

variable {catalog : ToolCatalog} {profile : ToolProfileRevision} {context : ProfileResolutionContext}
  {probes probes' : List CapabilityProbe} {epochs : List (String × Int)} {revisionRef : String}
  {revision : ToolRevision} {requirement : ToolConnectionRequirement} {probe other : CapabilityProbe}
  {bound : List Bound} {canonicalSha256 : Json → String} {resolved : ResolvedToolSet}

/-- A probe shows that a tool may be used over one of the connections of the run. -/
structure Eligible (context : ProfileResolutionContext) (revisionRef : String) (revision : ToolRevision)
    (requirement : ToolConnectionRequirement) (probe : CapabilityProbe) : Prop where
  tool : probe.toolRevision = revisionRef
  agent : probe.agentKey = context.agentKey
  connection : (probe.connectionId, probe.connectionEpoch) ∈ context.connectionEpochs
  passed : probe.passed = true
  fresh : context.now < probe.expiresAt
  identity : probe.identityRef = context.identityRef
  provider : probe.connectionProvider ∈ revision.requiredConnectionProviders
  required : requirement.provider = some probe.connectionProvider
  capability : ∃ key ∈ requirement.capabilityKey, key ∈ probe.capabilities
  capabilities : ∀ capability ∈ revision.requiredCapabilities, capability ∈ probe.capabilities

/-- Two probes are kept under one key. -/
def SameKey (probe other : CapabilityProbe) : Prop :=
  other.connectionId = probe.connectionId ∧ other.toolRevision = probe.toolRevision ∧
    other.agentKey = probe.agentKey

theorem registered_mem {connectionId agentKey : String}
    (h : registered probes connectionId revisionRef agentKey = some probe) :
    probe ∈ probes ∧ probe.connectionId = connectionId ∧ probe.toolRevision = revisionRef ∧
      probe.agentKey = agentKey := by
  have hmem := List.mem_reverse.mp (List.mem_of_find?_eq_some h)
  have hkey := List.find?_some h
  simp only [Bool.and_eq_true, beq_iff_eq] at hkey
  exact ⟨hmem, hkey.1.1, hkey.1.2, hkey.2⟩

/-- Of the probes with its key there is one that is registered. -/
theorem registered_of_mem (h : probe ∈ probes) :
    ∃ other ∈ probes, SameKey probe other ∧
      registered probes probe.connectionId probe.toolRevision probe.agentKey = some other := by
  cases hfind : registered probes probe.connectionId probe.toolRevision probe.agentKey with
  | none =>
    have hnone := List.find?_eq_none.mp hfind probe (List.mem_reverse.mpr h)
    simp at hnone
  | some other =>
    obtain ⟨hmem, hkey⟩ := registered_mem hfind
    exact ⟨other, hmem, hkey, rfl⟩

/-- The probe that is listed last is the one that is registered. -/
theorem registered_last (probes : List CapabilityProbe) (probe : CapabilityProbe) :
    registered (probes ++ [probe]) probe.connectionId probe.toolRevision probe.agentKey = some probe := by
  unfold registered
  rw [List.reverse_append, List.reverse_singleton, List.singleton_append, List.find?_cons_of_pos]
  simp

theorem screen_eligible {connection : String × Int} (hmem : connection ∈ context.connectionEpochs) :
    screen probes context revisionRef revision requirement connection = .eligible probe ↔
      registered probes connection.1 revisionRef context.agentKey = some probe ∧
        probe.connectionEpoch = connection.2 ∧
        Eligible context revisionRef revision requirement probe := by
  unfold screen
  cases hregistered : registered probes connection.1 revisionRef context.agentKey with
  | none => simp
  | some found =>
    obtain ⟨-, hconnection, htool, hagent⟩ := registered_mem hregistered
    simp only [Option.some.injEq]
    constructor
    · intro h
      split at h
      · cases h
      · rename_i hstale
        split at h
        · cases h
        · rename_i hepoch
          split at h
          · cases h
          · rename_i hidentity
            split at h
            · cases h
            · rename_i hprovider
              split at h
              · cases h
              · rename_i hrequired
                split at h
                · cases h
                · rename_i hcapability
                  split at h
                  · cases h
                  · rename_i hcapabilities
                    cases h
                    rw [not_or, Bool.not_eq_false, not_le] at hstale
                    have hepoch := not_not.mp hepoch
                    refine ⟨rfl, hepoch, htool, hagent, ?_, hstale.1, hstale.2, not_not.mp hidentity,
                      not_not.mp hprovider, not_not.mp hrequired, not_not.mp hcapability,
                      not_not.mp hcapabilities⟩
                    rw [hconnection, hepoch]
                    exact hmem
    · rintro ⟨rfl, hepoch, h⟩
      rw [if_neg (by rw [not_or, Bool.not_eq_false, not_le]; exact ⟨h.passed, h.fresh⟩),
        if_neg (not_not.mpr hepoch), if_neg (not_not.mpr h.identity), if_neg (not_not.mpr h.provider),
        if_neg (not_not.mpr h.required), if_neg (not_not.mpr h.capability),
        if_neg (not_not.mpr h.capabilities)]

/-- The probes that the loop takes for eligible. -/
def eligibleProbes (probes : List CapabilityProbe) (context : ProfileResolutionContext)
    (revisionRef : String) (revision : ToolRevision) (requirement : ToolConnectionRequirement) :
    List CapabilityProbe :=
  (context.connectionEpochs.map (screen probes context revisionRef revision requirement)).filterMap
    Finding.probe?

theorem probe?_eq {finding : Finding} : finding.probe? = some probe ↔ finding = .eligible probe := by
  cases finding <;> simp [Finding.probe?]

theorem mem_eligibleProbes :
    probe ∈ eligibleProbes probes context revisionRef revision requirement ↔
      registered probes probe.connectionId revisionRef context.agentKey = some probe ∧
        Eligible context revisionRef revision requirement probe := by
  unfold eligibleProbes
  rw [List.filterMap_map, List.mem_filterMap]
  constructor
  · rintro ⟨connection, hmem, h⟩
    obtain ⟨hregistered, -, eligible⟩ := (screen_eligible hmem).mp (probe?_eq.mp h)
    obtain ⟨-, hconnection, -⟩ := registered_mem hregistered
    rw [← hconnection] at hregistered
    exact ⟨hregistered, eligible⟩
  · rintro ⟨hregistered, eligible⟩
    exact ⟨_, eligible.connection,
      probe?_eq.mpr ((screen_eligible eligible.connection).mpr ⟨hregistered, rfl, eligible⟩)⟩

/-- A probe that is eligible is the only one, and nothing else is kept under its key. -/
def Alone (probes : List CapabilityProbe) (context : ProfileResolutionContext) (revisionRef : String)
    (revision : ToolRevision) (requirement : ToolConnectionRequirement) : Prop :=
  ∀ probe ∈ probes, Eligible context revisionRef revision requirement probe → ∀ other ∈ probes,
    Eligible context revisionRef revision requirement other ∨ SameKey probe other → other = probe

/-- Where the eligible probe is alone, the loop finds it, in whatever order it looks. -/
theorem Alone.eligibleProbes (alone : Alone probes context revisionRef revision requirement)
    (hmem : probe ∈ probes) (eligible : Eligible context revisionRef revision requirement probe)
    (hprobes : probes'.Perm probes) :
    probe ∈ eligibleProbes probes' context revisionRef revision requirement ∧
      ∀ other ∈ Catalog.eligibleProbes probes' context revisionRef revision requirement,
        other = probe := by
  refine ⟨mem_eligibleProbes.mpr ⟨?_, eligible⟩, fun other hother => ?_⟩
  · obtain ⟨found, hfound, samekey, hregistered⟩ := registered_of_mem (hprobes.mem_iff.mpr hmem)
    rw [alone probe hmem eligible found (hprobes.mem_iff.mp hfound) (.inr samekey), eligible.tool,
      eligible.agent] at hregistered
    exact hregistered
  · obtain ⟨hregistered, hother⟩ := mem_eligibleProbes.mp hother
    exact alone probe hmem eligible other (hprobes.mem_iff.mp (registered_mem hregistered).1) (.inl hother)

theorem Eligible.reordered (h : Eligible context revisionRef revision requirement probe)
    (hperm : epochs.Perm context.connectionEpochs) :
    Eligible (context.reordered epochs hperm) revisionRef revision requirement probe :=
  ⟨h.tool, h.agent, hperm.mem_iff.mpr h.connection, h.passed, h.fresh, h.identity, h.provider,
    h.required, h.capability, h.capabilities⟩

theorem Eligible.of_reordered {hperm : epochs.Perm context.connectionEpochs}
    (h : Eligible (context.reordered epochs hperm) revisionRef revision requirement probe) :
    Eligible context revisionRef revision requirement probe :=
  ⟨h.tool, h.agent, hperm.mem_iff.mp h.connection, h.passed, h.fresh, h.identity, h.provider,
    h.required, h.capability, h.capabilities⟩

theorem Alone.reordered (h : Alone probes context revisionRef revision requirement)
    (hperm : epochs.Perm context.connectionEpochs) :
    Alone probes (context.reordered epochs hperm) revisionRef revision requirement :=
  fun probe hmem eligible other hother hboth => h probe hmem eligible.of_reordered other hother
    (hboth.imp_left Eligible.of_reordered)

/-- What a tool is bound over, where it is bound. -/
theorem bindSource_ok {findings : List Finding} {tool : Bound} :
    bindSource context revisionRef revision requirement findings = .ok tool ↔
      ∃ probe project, (findings.filterMap Finding.probe?).getLast? = some probe ∧
        context.targetExternalProjectId = some project ∧
        tool.revisionRef = revisionRef ∧
        tool.binding = {
          bindingKind := .policySourceConnection
          tool := ⟨revision.toolKey, revision.version⟩
          provider := requirement.provider
          capabilityKey := requirement.capabilityKey
          externalProjectSelector := requirement.externalProjectSelector
          connectionId := some probe.connectionId
          connectionEpoch := some probe.connectionEpoch
          capabilityReceiptId := some probe.receiptRef
          capabilityReceiptHash := some probe.receiptHash
          externalProjectId := some project } ∧
        tool.binding.validateShape = .ok () ∧
        tool.proven = ((findings.filterMap Finding.probe?).map CapabilityProbe.connectionId).toFinset := by
  obtain ⟨toolRef, binding, proven⟩ := tool
  unfold bindSource
  simp only
  cases hlast : (findings.filterMap Finding.probe?).getLast? with
  | none => simp
  | some probe =>
    cases hproject : context.targetExternalProjectId with
    | none => simp
    | some project =>
      simp only [bind_ok, Option.some.injEq, exists_eq_left', exists_and_left]
      constructor
      · rintro ⟨_, hshape, h⟩
        cases h
        exact ⟨rfl, rfl, hshape, rfl⟩
      · rintro ⟨rfl, rfl, hshape, rfl⟩
        exact ⟨(), hshape, rfl⟩

theorem bindTool_source {member : String × ToolConnectionRequirement} {tool : Bound}
    (hkind : member.2.bindingKind = .policySourceConnection) :
    catalog.bindTool context member = .ok tool ↔ ∃ revision, catalog.tool member.1 = some revision ∧
      firstFailure (revisionChecks context member.1 revision) = .ok () ∧
      context.connectionEpochs.isEmpty = false ∧
      bindSource context member.1 revision member.2
        (context.connectionEpochs.map (screen catalog.probes context member.1 revision member.2)) =
          .ok tool := by
  unfold ToolCatalog.bindTool
  cases catalog.tool member.1 with
  | none => simp
  | some revision =>
    simp only [bind_ok, hkind, Option.some.injEq, exists_eq_left']
    constructor
    · rintro ⟨_, hchecks, h⟩
      split at h
      · cases h
      · rename_i hconnections
        exact ⟨hchecks, Bool.eq_false_iff.mpr hconnections, h⟩
    · rintro ⟨hchecks, hconnections, h⟩
      refine ⟨(), hchecks, ?_⟩
      rw [if_neg (Bool.eq_false_iff.mp hconnections)]
      exact h

/-- A tool that reads a source is bound over an eligible probe. -/
theorem bindTool_eligible {member : String × ToolConnectionRequirement} {tool : Bound}
    (hkind : member.2.bindingKind = .policySourceConnection)
    (h : catalog.bindTool context member = .ok tool) :
    ∃ revision, catalog.tool member.1 = some revision ∧
      ∃ probe, probe ∈ eligibleProbes catalog.probes context member.1 revision member.2 := by
  obtain ⟨revision, htool, -, -, hbind⟩ := (bindTool_source hkind).mp h
  obtain ⟨probe, _, hlast, -⟩ := bindSource_ok.mp hbind
  exact ⟨revision, htool, probe, List.mem_of_getLast? hlast⟩

theorem single_list {found : List CapabilityProbe} (hmem : probe ∈ found)
    (hall : ∀ other ∈ found, other = probe) :
    found.getLast? = some probe ∧
      (found.map CapabilityProbe.connectionId).toFinset = {probe.connectionId} := by
  constructor
  · cases hlast : found.getLast? with
    | none =>
      rw [List.getLast?_eq_none_iff.mp hlast] at hmem
      cases hmem
    | some last => rw [hall last (List.mem_of_getLast? hlast)]
  · ext connectionId
    rw [List.mem_toFinset, List.mem_map, Finset.mem_singleton]
    constructor
    · rintro ⟨other, hother, rfl⟩
      rw [hall other hother]
    · rintro rfl
      exact ⟨probe, hmem, rfl⟩

/-- Where the eligible probe is alone, a tool is bound in the same way in every order. -/
theorem bindTool_reordered {member : String × ToolConnectionRequirement} {tool : Bound}
    (alone : member.2.bindingKind = .policySourceConnection → ∀ revision,
      catalog.tool member.1 = some revision → Alone catalog.probes context member.1 revision member.2)
    (hprobes : probes'.Perm catalog.probes) (hepochs : epochs.Perm context.connectionEpochs)
    (h : catalog.bindTool context member = .ok tool) :
    (catalog.reprobed probes').bindTool (context.reordered epochs hepochs) member = .ok tool := by
  cases hkind : member.2.bindingKind with
  | computeOnly =>
    have hsame : (catalog.reprobed probes').bindTool (context.reordered epochs hepochs) member =
        catalog.bindTool context member := by
      unfold ToolCatalog.bindTool
      simp only [hkind]
      rfl
    rw [hsame, h]
  | policySourceConnection =>
    obtain ⟨revision, htool, hchecks, hconnections, hbind⟩ := (bindTool_source hkind).mp h
    obtain ⟨probe, project, hlast, hproject, href, hbinding, hshape, hproven⟩ := bindSource_ok.mp hbind
    have alone := alone hkind revision htool
    obtain ⟨hregistered, eligible⟩ := mem_eligibleProbes.mp (List.mem_of_getLast? hlast)
    have hmem := (registered_mem hregistered).1
    obtain ⟨hbefore, honly⟩ := alone.eligibleProbes hmem eligible (List.Perm.refl _)
    obtain ⟨hafter, honly'⟩ := (alone.reordered hepochs).eligibleProbes hmem (eligible.reordered hepochs) hprobes
    refine (bindTool_source hkind).mpr ⟨revision, htool, hchecks, ?_, bindSource_ok.mpr
      ⟨probe, project, (single_list hafter honly').1, hproject, href, hbinding, hshape, ?_⟩⟩
    · rw [← hconnections]
      exact hepochs.isEmpty_eq
    · rw [hproven]
      exact (single_list hbefore honly).2.trans (single_list hafter honly').2.symm

theorem bindTools_ok :
    catalog.bindTools profile context = .ok bound ↔
      firstFailure (catalog.profileChecks profile context) = .ok () ∧
      List.Forall₂ (fun member tool => catalog.bindTool context member = .ok tool) profile.members bound ∧
      firstFailure (connectionChecks profile context bound) = .ok () := by
  unfold ToolCatalog.bindTools
  simp only [bind_ok, mapM_ok]
  constructor
  · rintro ⟨_, hprofile, tools, htools, _, hconnections, h⟩
    cases h
    exact ⟨hprofile, htools, hconnections⟩
  · rintro ⟨hprofile, htools, hconnections⟩
    exact ⟨(), hprofile, bound, htools, (), hconnections, rfl⟩

/-- Every tool that reads a source has one eligible probe, and nothing else under its key. -/
def AllAlone (catalog : ToolCatalog) (profile : ToolProfileRevision) (context : ProfileResolutionContext) :
    Prop :=
  ∀ member ∈ profile.members, member.2.bindingKind = .policySourceConnection → ∀ revision,
    catalog.tool member.1 = some revision → Alone catalog.probes context member.1 revision member.2

theorem bindTools_reordered (alone : AllAlone catalog profile context)
    (hprobes : probes'.Perm catalog.probes) (hepochs : epochs.Perm context.connectionEpochs)
    (h : catalog.bindTools profile context = .ok bound) :
    (catalog.reprobed probes').bindTools profile (context.reordered epochs hepochs) = .ok bound := by
  obtain ⟨hprofile, htools, hconnections⟩ := bindTools_ok.mp h
  refine bindTools_ok.mpr ⟨hprofile, ?_, ?_⟩
  · have hmembers := (List.forall₂_and_left (p := (· ∈ profile.members)) _ _).mpr ⟨fun _ h => h, htools⟩
    exact hmembers.imp (fun member tool h =>
      bindTool_reordered (alone member h.1) hprobes hepochs h.2)
  · have hsame : connectionChecks profile (context.reordered epochs hepochs) bound =
        connectionChecks profile context bound := by
      have hempty : epochs.isEmpty = context.connectionEpochs.isEmpty := hepochs.isEmpty_eq
      have hkeys : (epochs.map Prod.fst).toFinset = (context.connectionEpochs.map Prod.fst).toFinset :=
        List.toFinset_eq_of_perm _ _ (hepochs.map Prod.fst)
      unfold connectionChecks ProfileResolutionContext.reordered
      simp only [hempty, hkeys]
    rw [hsame, hconnections]

theorem resolve_ok :
    catalog.resolve canonicalSha256 profile context = .ok resolved ↔ ∃ bound,
      catalog.bindTools profile context = .ok bound ∧
      firstFailure (effectiveToolSet profile context bound).checks = .ok () ∧
      resolved = {
        profileKey := profile.profileKey
        profileVersion := profile.version
        profileMaterialHash := profile.profileMaterialHash
        orderedToolRevisions := bound.map Bound.revisionRef
        effectiveToolSetHash := canonicalSha256 (effectiveToolSet profile context bound).canonicalDict
        connectionEpochs := context.connectionEpochs } := by
  unfold ToolCatalog.resolve
  simp only [bind_ok]
  constructor
  · rintro ⟨bound, hbound, _, hchecks, h⟩
    cases h
    exact ⟨bound, hbound, hchecks, rfl⟩
  · rintro ⟨bound, hbound, hchecks, rfl⟩
    exact ⟨bound, hbound, (), hchecks, rfl⟩

/-- What a run is given is settled by what the catalog and the context say, not by how
they list it. -/
structure Unambiguous (canonicalSha256 : Json → String) (catalog : ToolCatalog)
    (profile : ToolProfileRevision) (context : ProfileResolutionContext) (resolved : ResolvedToolSet) :
    Prop where
  single : ∀ member ∈ profile.members, member.2.bindingKind = .policySourceConnection → ∃ revision,
    catalog.tool member.1 = some revision ∧ ∃! probe,
      probe ∈ catalog.probes ∧ Eligible context member.1 revision member.2 probe
  steady : ∃ bound, catalog.bindTools profile context = .ok bound ∧
    ∀ probes' epochs, probes'.Perm catalog.probes → ∀ hepochs : epochs.Perm context.connectionEpochs,
      (catalog.reprobed probes').bindTools profile (context.reordered epochs hepochs) = .ok bound ∧
      ∃ resolved', (catalog.reprobed probes').resolve canonicalSha256 profile
          (context.reordered epochs hepochs) = .ok resolved' ∧
        resolved'.effectiveToolSetHash = resolved.effectiveToolSetHash

/-- What is bound for a member of the profile. -/
theorem bindTools_member {member : String × ToolConnectionRequirement}
    (h : catalog.bindTools profile context = .ok bound) (hmember : member ∈ profile.members) :
    ∃ tool, catalog.bindTool context member = .ok tool := by
  have htools := (bindTools_ok.mp h).2.1
  generalize profile.members = members at htools hmember
  clear h
  induction htools with
  | nil => cases hmember
  | cons hfirst _ ih =>
    rcases List.mem_cons.mp hmember with rfl | hrest
    · exact ⟨_, hfirst⟩
    · exact ih hrest

/-- What is resolved is settled exactly where the eligible probe of every tool that reads a
source is alone. -/
theorem resolve_unambiguous_iff (h : catalog.resolve canonicalSha256 profile context = .ok resolved) :
    Unambiguous canonicalSha256 catalog profile context resolved ↔ AllAlone catalog profile context := by
  obtain ⟨bound, hbound, hchecks, hresolved⟩ := resolve_ok.mp h
  constructor
  · rintro ⟨single, bound', -, steady⟩ member hmember hkind revision htool probe hmem eligible other
      hother hboth
    obtain ⟨revision', htool', chosen, -, honly⟩ := single member hmember hkind
    obtain rfl := Option.some.inj (htool.symm.trans htool')
    by_contra hne
    have hineligible : ¬Eligible context member.1 revision member.2 other := fun heligible =>
      hne ((honly other ⟨hother, heligible⟩).trans (honly probe ⟨hmem, eligible⟩).symm)
    have hkey := hboth.resolve_left hineligible
    -- With the other probe listed last, nothing is found for the tool.
    obtain ⟨hagain, -⟩ := steady (catalog.probes.erase other ++ [other]) context.connectionEpochs
      ((List.perm_append_singleton other _).trans (List.perm_cons_erase hother).symm) (List.Perm.refl _)
    obtain ⟨tool, htool''⟩ := bindTools_member hagain hmember
    obtain ⟨revision', hrevision, found, hfound⟩ := bindTool_eligible hkind htool''
    obtain rfl := Option.some.inj (htool.symm.trans hrevision)
    obtain ⟨hregistered, hfound⟩ := mem_eligibleProbes.mp hfound
    have hfoundMem : found ∈ catalog.probes :=
      ((List.perm_append_singleton other _).trans (List.perm_cons_erase hother).symm).mem_iff.mp
        (registered_mem hregistered).1
    have hsame : found = probe :=
      (honly found ⟨hfoundMem, hfound.of_reordered⟩).trans (honly probe ⟨hmem, eligible⟩).symm
    rw [hsame, ← hkey.1, ← eligible.tool, ← hkey.2.1] at hregistered
    have hagent : (context.reordered context.connectionEpochs (List.Perm.refl _)).agentKey = other.agentKey :=
      eligible.agent.symm.trans hkey.2.2.symm
    rw [hagent] at hregistered
    exact hne (Option.some.inj ((registered_last _ other).symm.trans hregistered))
  · intro alone
    refine ⟨fun member hmember hkind => ?_, bound, hbound, fun probes' epochs hprobes hepochs => ?_⟩
    · obtain ⟨tool, htool⟩ := bindTools_member hbound hmember
      obtain ⟨revision, hrevision, probe, hprobe⟩ := bindTool_eligible hkind htool
      obtain ⟨hregistered, eligible⟩ := mem_eligibleProbes.mp hprobe
      have hmem := (registered_mem hregistered).1
      exact ⟨revision, hrevision, probe, ⟨hmem, eligible⟩, fun other hother =>
        alone member hmember hkind revision hrevision probe hmem eligible other hother.1 (.inl hother.2)⟩
    · have hagain := bindTools_reordered alone hprobes hepochs hbound
      refine ⟨hagain, _, resolve_ok.mpr ⟨bound, hagain, hchecks, rfl⟩, ?_⟩
      rw [hresolved]
      rfl

def metricsTool : ToolRevision where
  toolKey := "metrics"
  version := "1"
  permissionClass := .read
  allowedRequesterKeys := ["evidence-agent"]
  requiredCapabilities := ["METRIC_READ"]
  requiredConnectionProviders := ["CLOUD_MONITORING"]
  supportedDataClasses := ["INTERNAL"]
  runtimeRegions := ["europe-west1"]
  gatewayDestination := "monitoring"
  lifecycle := .approved

def metricsProfile : ToolProfileRevision where
  profileKey := "evidence"
  version := "1"
  allowedAgentKey := "evidence-agent"
  toolRevisions := ["metrics@1"]
  toolConnectionRequirements := [{
    bindingKind := .policySourceConnection
    provider := some "CLOUD_MONITORING"
    capabilityKey := some "METRIC_READ"
    externalProjectSelector := some "TARGET_RESOURCE_PROJECT" }]
  dataClassificationCeiling := "INTERNAL"
  runtimeRegion := "europe-west1"
  lifecycle := .approved
  profileMaterialHash := "sha256:profile"
  unrepeated := by decide
  matched := by decide
  ceilingKnown := by decide

/-- A probe of the tool over one connection. -/
def metricsProbe (connectionId : String) : CapabilityProbe where
  connectionId := connectionId
  toolRevision := "metrics@1"
  agentKey := "evidence-agent"
  connectionProvider := "CLOUD_MONITORING"
  capabilities := ["METRIC_READ"]
  connectionEpoch := 7
  identityRef := "identity"
  passed := true
  expiresAt := 100
  receiptRef := "receipt"
  receiptHash := "sha256:receipt"

def metricsCatalog (connections : List String) : ToolCatalog where
  principals := [⟨"evidence-agent", true⟩]
  tools := [metricsTool]
  probes := connections.map metricsProbe
  keysUnique := by decide

def metricsContext (connections : List String) (h : connections.Nodup) : ProfileResolutionContext where
  agentKey := "evidence-agent"
  agentRevision := "evidence-agent@1"
  scope := [("organization_id", "org"), ("project_id", "project"), ("environment_id", "env")]
  identityRef := "identity"
  identityVerified := true
  runtimeRegion := "europe-west1"
  dataClassification := "INTERNAL"
  connectionEpochs := connections.map (fun connection => (connection, 7))
  registeredGatewayDestinations := ["monitoring"]
  targetExternalProjectId := some "project"
  policyHeadActivationId := none
  policyHeadEpoch := 0
  placementEpoch := 1
  acceptedStepBudgetHash := "sha256:budget"
  now := 50
  oneEpoch := by simpa [Function.comp_def] using h

/-- What is resolved over connections that were all probed. -/
def metricsResolved (connections : List String) : ResolvedToolSet where
  profileKey := "evidence"
  profileVersion := "1"
  profileMaterialHash := "sha256:profile"
  orderedToolRevisions := ["metrics@1"]
  effectiveToolSetHash := "sha256:set"
  connectionEpochs := connections.map (fun connection => (connection, 7))

theorem one_connection_unambiguous :
    Unambiguous (fun _ => "sha256:set") (metricsCatalog ["first"]) metricsProfile
      (metricsContext ["first"] (by decide)) (metricsResolved ["first"]) := by
  refine (resolve_unambiguous_iff rfl).mpr (fun member _ _ revision _ probe hprobe _ other hother _ => ?_)
  rw [List.mem_singleton.mp hprobe, List.mem_singleton.mp hother]

/-- Of two connections that were both probed, the one that is listed last is bound. -/
theorem two_connections_ambiguous :
    ¬∀ (canonicalSha256 : Json → String) (catalog : ToolCatalog) (profile : ToolProfileRevision)
        (context : ProfileResolutionContext) (resolved : ResolvedToolSet),
      catalog.resolve canonicalSha256 profile context = .ok resolved →
        Unambiguous canonicalSha256 catalog profile context resolved := by
  intro h
  have hambiguous := h (fun _ => "sha256:set") (metricsCatalog ["first", "second"]) metricsProfile
    (metricsContext ["first", "second"] (by decide)) (metricsResolved ["first", "second"]) rfl
  obtain ⟨revision, hrevision, chosen, -, honly⟩ := hambiguous.single _ List.mem_cons_self rfl
  obtain rfl : metricsTool = revision := Option.some.inj hrevision
  have heligible : ∀ connection ∈ ["first", "second"], metricsProbe connection = chosen := by
    intro connection hconnection
    refine honly _ ⟨List.mem_map_of_mem hconnection, rfl, rfl, List.mem_map_of_mem hconnection, rfl,
      (show (50 : Int) < 100 by decide), rfl, List.mem_cons_self, rfl, ⟨_, rfl, List.mem_cons_self⟩, fun capability h => h⟩
  have hsame := (heligible "first" (by decide)).trans (heligible "second" (by decide)).symm
  exact absurd (congrArg CapabilityProbe.connectionId hsame) (by decide)

end Solvan.Catalog
