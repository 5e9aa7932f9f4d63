import Mathlib.Data.Finset.Dedup
import Mathlib.Data.Finset.Empty
import Mathlib.Data.Finset.Lattice.Basic
import Solvan.Base.Checks
import Solvan.Base.Json.Text

/-! The tool catalog: which tools a run is given, and over which connections. -/
namespace Solvan.Catalog

open Checks

inductive CatalogLifecycle where
  | draft | approved | deprecated | retired
deriving DecidableEq, Repr

inductive PermissionClass where
  | read | compute | propose | mutate
deriving DecidableEq, Repr

inductive CapabilityLayer where
  | profileMembership | requesterDeclaration | revisionLifecycle | classificationAndRegion
  | gatewayRoute | connectionBinding | capabilityProbe
deriving DecidableEq, Repr

inductive ToolConnectionBindingKind where
  | computeOnly | policySourceConnection
deriving DecidableEq, Repr

def ToolConnectionBindingKind.text : ToolConnectionBindingKind → String
  | .computeOnly => "COMPUTE_ONLY"
  | .policySourceConnection => "POLICY_SOURCE_CONNECTION"

structure ToolCatalogError where
  message : String
  layer : Option CapabilityLayer := none
  runScoped : Bool := false
deriving DecidableEq, Repr

inductive Refusal where
  | catalog (error : ToolCatalogError)
  | effectiveToolSet (message : String)
deriving DecidableEq, Repr

/-- A refusal by one layer. -/
def refusal (layer : CapabilityLayer) (message : String) : Refusal := .catalog ⟨message, some layer, false⟩

/-- A refusal that belongs to one run. -/
def runRefusal (message : String) : Refusal := .catalog ⟨message, none, true⟩

/-- `DATA_CLASSIFICATION_RANKS` -/
def classificationRank : String → Option Nat
  | "PUBLIC" => some 0
  | "INTERNAL" => some 1
  | "CONFIDENTIAL" => some 2
  | "RESTRICTED" => some 3
  | _ => none

structure CatalogPrincipal where
  principalKey : String
  modelBacked : Bool
deriving DecidableEq

structure ToolRevision where
  toolKey : String
  version : String
  permissionClass : PermissionClass
  allowedRequesterKeys : List String
  requiredCapabilities : List String
  requiredConnectionProviders : List String
  supportedDataClasses : List String
  runtimeRegions : List String
  gatewayDestination : String
  lifecycle : CatalogLifecycle
deriving DecidableEq

def ToolRevision.revisionRef (revision : ToolRevision) : String := revision.toolKey ++ "@" ++ revision.version

structure ToolConnectionRequirement where
  bindingKind : ToolConnectionBindingKind
  provider : Option String := none
  capabilityKey : Option String := none
  externalProjectSelector : Option String := none
deriving DecidableEq

structure ToolProfileRevision where
  profileKey : String
  version : String
  allowedAgentKey : String
  toolRevisions : List String
  toolConnectionRequirements : List ToolConnectionRequirement
  dataClassificationCeiling : String
  runtimeRegion : String
  lifecycle : CatalogLifecycle
  profileMaterialHash : String
  unrepeated : toolRevisions.Nodup
  matched : toolRevisions.length = toolConnectionRequirements.length
  ceilingKnown : (classificationRank dataClassificationCeiling).isSome = true

structure CapabilityProbe where
  connectionId : String
  toolRevision : String
  agentKey : String
  connectionProvider : String
  capabilities : List String
  connectionEpoch : Int
  identityRef : String
  passed : Bool
  expiresAt : Int
  receiptRef : String
  receiptHash : String
deriving DecidableEq

structure ProfileResolutionContext where
  agentKey : String
  agentRevision : String
  scope : List (String × String)
  identityRef : String
  identityVerified : Bool
  runtimeRegion : String
  dataClassification : String
  connectionEpochs : List (String × Int)
  registeredGatewayDestinations : List String
  targetExternalProjectId : Option String
  policyHeadActivationId : Option String
  policyHeadEpoch : Nat
  placementEpoch : Nat
  acceptedStepBudgetHash : String
  now : Int
  /-- A dict has one epoch for a connection. -/
  oneEpoch : (connectionEpochs.map Prod.fst).Nodup

/-- The same context with its connections given in another order. -/
def ProfileResolutionContext.reordered (context : ProfileResolutionContext)
    (epochs : List (String × Int)) (h : epochs.Perm context.connectionEpochs) :
    ProfileResolutionContext :=
  { context with
    connectionEpochs := epochs
    oneEpoch := (h.map Prod.fst).nodup_iff.mpr context.oneEpoch }

structure ToolRevisionRef where
  toolKey : String
  version : String
deriving DecidableEq

structure EffectiveToolBinding where
  bindingKind : ToolConnectionBindingKind
  tool : ToolRevisionRef
  provider : Option String := none
  capabilityKey : Option String := none
  externalProjectSelector : Option String := none
  connectionId : Option String := none
  connectionEpoch : Option Int := none
  capabilityReceiptId : Option String := none
  capabilityReceiptHash : Option String := none
  externalProjectId : Option String := none
deriving DecidableEq

structure EffectiveToolSet where
  profileMaterialHash : String
  acceptedTools : List ToolRevisionRef
  agentKey : String
  agentRevision : String
  scope : List (String × String)
  connectionBindings : List EffectiveToolBinding
  runtimeRegion : String
  acceptedDataClassification : String
  classificationCeiling : String
  policyHeadActivationId : Option String
  policyHeadEpoch : Nat
  placementEpoch : Nat
  acceptedStepBudgetHash : String
deriving DecidableEq

structure ResolvedToolSet where
  profileKey : String
  profileVersion : String
  profileMaterialHash : String
  orderedToolRevisions : List String
  effectiveToolSetHash : String
  connectionEpochs : List (String × Int)
deriving DecidableEq

/-- `EffectiveToolBindingV1.validate_shape` -/
def EffectiveToolBinding.validateShape (binding : EffectiveToolBinding) : Except Refusal Unit :=
  let given := [binding.provider.isSome, binding.capabilityKey.isSome,
    binding.externalProjectSelector.isSome, binding.connectionId.isSome,
    binding.connectionEpoch.isSome, binding.capabilityReceiptId.isSome,
    binding.capabilityReceiptHash.isSome, binding.externalProjectId.isSome]
  match binding.bindingKind with
  | .computeOnly =>
    if given.any id then
      .error (.effectiveToolSet "compute-only effective bindings cannot name a connection")
    else .ok ()
  | .policySourceConnection =>
    if given.all id then .ok ()
    else .error (.effectiveToolSet "policy-source effective bindings require every exact fence")

/-- What the declarations of the fields ask for, and `validate_exact_order_and_fences` -/
def EffectiveToolSet.checks (effective : EffectiveToolSet) : List (Bool × Refusal) :=
  [(effective.agentRevision != "", .effectiveToolSet "agent_revision"),
    (effective.runtimeRegion != "", .effectiveToolSet "runtime_region"),
    (decide ((effective.scope.map Prod.fst).toFinset =
        ["organization_id", "project_id", "environment_id"].toFinset),
      .effectiveToolSet "effective Tool-set scope must be the exact scope triple"),
    (effective.scope.all (fun entry => entry.2 != ""),
      .effectiveToolSet "effective Tool-set scope values must not be empty"),
    (effective.acceptedTools.length == effective.connectionBindings.length,
      .effectiveToolSet "each accepted Tool requires exactly one effective binding"),
    (effective.connectionBindings.map EffectiveToolBinding.tool == effective.acceptedTools,
      .effectiveToolSet "effective Tool bindings must preserve accepted Tool order"),
    (effective.policyHeadActivationId.isNone == (effective.policyHeadEpoch == 0),
      .effectiveToolSet "policy-head ID and epoch must be absent or present together"),
    ((classificationRank effective.acceptedDataClassification).isSome &&
        (classificationRank effective.classificationCeiling).isSome,
      .effectiveToolSet "effective Tool-set classification is unknown"),
    (decide ((classificationRank effective.acceptedDataClassification).getD 0 ≤
        (classificationRank effective.classificationCeiling).getD 0),
      .effectiveToolSet "accepted run classification exceeds the effective Tool-set ceiling")]

/-- A text under its name, where there is one. -/
def optional (name : String) (value : Option String) : List (String × Json) :=
  (value.map (fun text => (name, Json.str text))).toList

/-- `model_dump(mode="json", exclude_none=True)` -/
def EffectiveToolBinding.dump (binding : EffectiveToolBinding) : Json :=
  .obj ([("binding_kind", .str binding.bindingKind.text),
      ("tool", .obj [("tool_key", .str binding.tool.toolKey), ("version", .str binding.tool.version)])] ++
    optional "provider" binding.provider ++ optional "capability_key" binding.capabilityKey ++
    optional "external_project_selector" binding.externalProjectSelector ++
    optional "connection_id" binding.connectionId ++
    (binding.connectionEpoch.map (fun epoch => ("connection_epoch", Json.int epoch))).toList ++
    optional "capability_receipt_id" binding.capabilityReceiptId ++
    optional "capability_receipt_hash" binding.capabilityReceiptHash ++
    optional "external_project_id" binding.externalProjectId)

def EffectiveToolSet.canonicalDict (effective : EffectiveToolSet) : Json :=
  .obj [("schema_version", .int 1),
    ("profile_material_hash", .str effective.profileMaterialHash),
    ("accepted_tools", .arr (effective.acceptedTools.map (fun tool =>
      .obj [("tool_key", .str tool.toolKey), ("version", .str tool.version)]))),
    ("agent_key", .str effective.agentKey),
    ("agent_revision", .str effective.agentRevision),
    ("scope", .obj (effective.scope.map (fun entry => (entry.1, .str entry.2)))),
    ("connection_bindings", .arr (effective.connectionBindings.map EffectiveToolBinding.dump)),
    ("runtime_region", .str effective.runtimeRegion),
    ("accepted_data_classification", .str effective.acceptedDataClassification),
    ("classification_ceiling", .str effective.classificationCeiling),
    ("policy_head_activation_id", (effective.policyHeadActivationId.map Json.str).getD .null),
    ("policy_head_epoch", .int effective.policyHeadEpoch),
    ("placement_epoch", .int effective.placementEpoch),
    ("accepted_step_budget_hash", .str effective.acceptedStepBudgetHash)]

structure ToolCatalog where
  principals : List CatalogPrincipal
  tools : List ToolRevision
  probes : List CapabilityProbe
  keysUnique : (principals.map CatalogPrincipal.principalKey).Nodup ∧
    (tools.map ToolRevision.revisionRef).Nodup

/-- The same catalog with its probes given in another order. -/
def ToolCatalog.reprobed (catalog : ToolCatalog) (probes : List CapabilityProbe) : ToolCatalog :=
  { catalog with probes := probes }

def ToolCatalog.principal (catalog : ToolCatalog) (agentKey : String) : Option CatalogPrincipal :=
  catalog.principals.find? (fun principal => principal.principalKey == agentKey)

def ToolCatalog.tool (catalog : ToolCatalog) (revisionRef : String) : Option ToolRevision :=
  catalog.tools.find? (fun revision => revision.revisionRef == revisionRef)

/-- `self._probes.get(...)`: of the probes with one key, the last. -/
def registered (probes : List CapabilityProbe) (connectionId revisionRef agentKey : String) :
    Option CapabilityProbe :=
  probes.reverse.find? (fun probe =>
    probe.connectionId == connectionId && probe.toolRevision == revisionRef && probe.agentKey == agentKey)

/-- What is asked before any tool is looked at. -/
def ToolCatalog.profileChecks (catalog : ToolCatalog) (profile : ToolProfileRevision)
    (context : ProfileResolutionContext) : List (Bool × Refusal) :=
  [(profile.lifecycle == .approved,
      refusal .profileMembership "only an approved profile may enter a new run"),
    ((catalog.principal context.agentKey).any CatalogPrincipal.modelBacked,
      refusal .requesterDeclaration "the requested Agent is not an approved model-backed principal"),
    (context.agentKey == profile.allowedAgentKey,
      refusal .profileMembership "the profile is bound to a different Agent"),
    (context.identityVerified && context.identityRef != "",
      runRefusal "verified Agent Identity is required"),
    ([context.runtimeRegion, "POLICY_BOUND"].contains profile.runtimeRegion,
      refusal .classificationAndRegion "the profile runtime region does not match the run"),
    ((classificationRank context.dataClassification).isSome,
      runRefusal "the run data classification is unknown"),
    (decide ((classificationRank context.dataClassification).getD 0 ≤
        (classificationRank profile.dataClassificationCeiling).getD 0),
      refusal .classificationAndRegion "run classification exceeds the Tool profile ceiling")]

/-- What is asked of a tool, whatever it reads. -/
def revisionChecks (context : ProfileResolutionContext) (revisionRef : String) (revision : ToolRevision) :
    List (Bool × Refusal) :=
  [(revision.lifecycle == .approved,
      refusal .revisionLifecycle ("Tool revision " ++ revisionRef ++ " is unavailable for new work")),
    (revision.allowedRequesterKeys.contains context.agentKey,
      refusal .requesterDeclaration ("Tool revision " ++ revisionRef ++ " does not allow this Agent")),
    (revision.permissionClass != .mutate,
      refusal .revisionLifecycle "a model-backed Agent profile cannot contain MUTATE"),
    (revision.supportedDataClasses.contains context.dataClassification,
      refusal .classificationAndRegion
        ("Tool revision " ++ revisionRef ++ " does not support the run classification")),
    (revision.runtimeRegions.contains context.runtimeRegion,
      refusal .classificationAndRegion
        ("Tool revision " ++ revisionRef ++ " is unavailable in this region")),
    (context.registeredGatewayDestinations.contains revision.gatewayDestination,
      refusal .gatewayRoute ("Tool revision " ++ revisionRef ++ " has no registered Gateway route"))]

/-- What the loop over the connections makes of one of them. -/
inductive Finding where
  | unobserved | stale | wrongEpoch | wrongIdentity | incompatibleProvider | missingCapability
  | eligible (probe : CapabilityProbe)
deriving DecidableEq

/-- One turn of the loop over the connections. -/
def screen (probes : List CapabilityProbe) (context : ProfileResolutionContext) (revisionRef : String)
    (revision : ToolRevision) (requirement : ToolConnectionRequirement) (connection : String × Int) :
    Finding :=
  match registered probes connection.1 revisionRef context.agentKey with
  | none => .unobserved
  | some probe =>
    if probe.passed = false ∨ probe.expiresAt ≤ context.now then .stale
    else if probe.connectionEpoch ≠ connection.2 then .wrongEpoch
    else if probe.identityRef ≠ context.identityRef then .wrongIdentity
    else if probe.connectionProvider ∉ revision.requiredConnectionProviders then .incompatibleProvider
    else if requirement.provider ≠ some probe.connectionProvider then .incompatibleProvider
    else if ¬(∃ key ∈ requirement.capabilityKey, key ∈ probe.capabilities) then .missingCapability
    else if ¬(∀ capability ∈ revision.requiredCapabilities, capability ∈ probe.capabilities) then
      .missingCapability
    else .eligible probe

def Finding.probe? : Finding → Option CapabilityProbe
  | .eligible probe => some probe
  | _ => none

/-- Why no connection is eligible. -/
def unproven (revisionRef : String) (findings : List Finding) : Refusal :=
  refusal .capabilityProbe ("Tool revision " ++ revisionRef ++
    if findings.contains .wrongIdentity then " was probed under another identity"
    else if findings.contains .wrongEpoch then " has a stale connection epoch"
    else if findings.contains .stale then " capability proof is stale or failed"
    else if findings.contains .incompatibleProvider then " has an incompatible connection provider"
    else if findings.contains .missingCapability then " is missing a required capability"
    else if findings.any (· != .unobserved) then " has no eligible exact capability proof"
    else " has no current exact capability proof")

/-- A tool that is accepted: how it is bound, and the connections that it proves. -/
structure Bound where
  revisionRef : String
  binding : EffectiveToolBinding
  proven : Finset String
deriving DecidableEq

/-- A policy-source tool, bound over the probe that was looked at last of those that are eligible. -/
def bindSource (context : ProfileResolutionContext) (revisionRef : String) (revision : ToolRevision)
    (requirement : ToolConnectionRequirement) (findings : List Finding) : Except Refusal Bound :=
  let eligible := findings.filterMap Finding.probe?
  match eligible.getLast? with
  | none => .error (unproven revisionRef findings)
  | some probe =>
    match context.targetExternalProjectId with
    | none => .error (runRefusal "a policy-source Tool requires an exact target project")
    | some project => do
      let binding : EffectiveToolBinding := {
        bindingKind := .policySourceConnection
        tool := ⟨revision.toolKey, revision.version⟩
        provider := requirement.provider
        capabilityKey := requirement.capabilityKey
        externalProjectSelector := requirement.externalProjectSelector
        connectionId := some probe.connectionId
        connectionEpoch := some probe.connectionEpoch
        capabilityReceiptId := some probe.receiptRef
        capabilityReceiptHash := some probe.receiptHash
        externalProjectId := some project }
      binding.validateShape
      return ⟨revisionRef, binding, (eligible.map CapabilityProbe.connectionId).toFinset⟩

/-- One turn of the loop over the tools of the profile. -/
def ToolCatalog.bindTool (catalog : ToolCatalog) (context : ProfileResolutionContext)
    (member : String × ToolConnectionRequirement) : Except Refusal Bound :=
  match catalog.tool member.1 with
  | none =>
    .error (refusal .revisionLifecycle ("Tool revision " ++ member.1 ++ " is unavailable for new work"))
  | some revision => do
    firstFailure (revisionChecks context member.1 revision)
    match member.2.bindingKind with
    | .computeOnly =>
      return ⟨member.1, { bindingKind := .computeOnly, tool := ⟨revision.toolKey, revision.version⟩ }, ∅⟩
    | .policySourceConnection =>
      if context.connectionEpochs.isEmpty then
        .error (refusal .connectionBinding "a policy-source Tool requires an exact connection")
      else
        bindSource context member.1 revision member.2
          (context.connectionEpochs.map (screen catalog.probes context member.1 revision member.2))

/-- The tools of a profile, each with its requirement. -/
def ToolProfileRevision.members (profile : ToolProfileRevision) : List (String × ToolConnectionRequirement) :=
  profile.toolRevisions.zip profile.toolConnectionRequirements

/-- What is asked of the connections once every tool is bound. -/
def connectionChecks (profile : ToolProfileRevision) (context : ProfileResolutionContext)
    (bound : List Bound) : List (Bool × Refusal) :=
  [(!profile.toolConnectionRequirements.isEmpty || context.connectionEpochs.isEmpty,
      refusal .connectionBinding "a tool-less profile cannot bind external connections"),
    (profile.toolConnectionRequirements.isEmpty ||
        profile.toolConnectionRequirements.any (fun requirement =>
          requirement.bindingKind == .policySourceConnection) ||
        context.connectionEpochs.isEmpty,
      refusal .connectionBinding "a compute-only profile cannot bind external connections"),
    (decide (bound.foldr (fun tool proven => tool.proven ∪ proven) ∅ =
        (context.connectionEpochs.map Prod.fst).toFinset),
      refusal .connectionBinding "one or more profile connections prove no frozen Tool")]

/-- The tools as they are bound. -/
def ToolCatalog.bindTools (catalog : ToolCatalog) (profile : ToolProfileRevision)
    (context : ProfileResolutionContext) : Except Refusal (List Bound) := do
  firstFailure (catalog.profileChecks profile context)
  let bound ← profile.members.mapM (catalog.bindTool context)
  firstFailure (connectionChecks profile context bound)
  return bound

def effectiveToolSet (profile : ToolProfileRevision) (context : ProfileResolutionContext)
    (bound : List Bound) : EffectiveToolSet where
  profileMaterialHash := profile.profileMaterialHash
  acceptedTools := bound.map (fun tool => tool.binding.tool)
  agentKey := context.agentKey
  agentRevision := context.agentRevision
  scope := context.scope
  connectionBindings := bound.map Bound.binding
  runtimeRegion := context.runtimeRegion
  acceptedDataClassification := context.dataClassification
  classificationCeiling := profile.dataClassificationCeiling
  policyHeadActivationId := context.policyHeadActivationId
  policyHeadEpoch := context.policyHeadEpoch
  placementEpoch := context.placementEpoch
  acceptedStepBudgetHash := context.acceptedStepBudgetHash

/-- `ToolCatalog.resolve` -/
def ToolCatalog.resolve (canonicalSha256 : Json → String) (catalog : ToolCatalog)
    (profile : ToolProfileRevision) (context : ProfileResolutionContext) :
    Except Refusal ResolvedToolSet := do
  let bound ← catalog.bindTools profile context
  let effective := effectiveToolSet profile context bound
  firstFailure effective.checks
  return {
    profileKey := profile.profileKey
    profileVersion := profile.version
    profileMaterialHash := profile.profileMaterialHash
    orderedToolRevisions := bound.map Bound.revisionRef
    effectiveToolSetHash := canonicalSha256 effective.canonicalDict
    connectionEpochs := context.connectionEpochs }

end Solvan.Catalog
