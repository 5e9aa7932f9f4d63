import Solvan.Base.Json.Canonical
import Solvan.Context.Manifest

/-! The manifest that a turn is prepared with, and the checks that are made of it when the turn
is claimed. -/
namespace Solvan.Context

open Checks

/-- What the manifest rests on, and the digest of the templates of this service. -/
structure ManifestLibrary where
  /-- `canonical_hash` -/
  canonicalHash : Json → String
  /-- `rfc8785.dumps` -/
  rfc8785 : Json → List UInt8
  /-- `hashlib.sha256(…).hexdigest()` -/
  sha256 : List UInt8 → String
  /-- `json.dumps(…, sort_keys=True, separators=(",", ":"), ensure_ascii=False)` -/
  dumps : Json → String
  isoformat : Datetime → String
  /-- `_VALIDATOR.validate`, which raises where this is false -/
  schema : Json → Bool
  /-- `_file_hash(ROOT / "config" / "liaison-claim-templates.yaml")` -/
  templateRegistryDigest : String

structure LocalBindings where
  compilerDigest : String
  tokenizerDigest : String
  templateRegistryDigest : String
  toolRegistryDigest : String
  stablePrefixDigest : String

def liaisonToolIds : List String :=
  ["resolve_anchor", "read_projection", "list_prior_incidents", "search_records", "catch_up",
    "recall_conversation", "recall_memory", "ask_principal", "steer_draft"]

def stablePrefix : Json := .obj [("revision", .str "solvan-liaison-query-planner-v1")]

variable (lib : ManifestLibrary)

def localContextBindings : LocalBindings where
  compilerDigest := lib.canonicalHash
    (.obj [("revision", .str "liaison-context-v2-current-user-upper-bound-v1")])
  tokenizerDigest := lib.canonicalHash (.obj [("revision", .str "utf8-byte-upper-bound-v1")])
  templateRegistryDigest := lib.templateRegistryDigest
  toolRegistryDigest := lib.canonicalHash (.obj [("tool_ids", .arr (liaisonToolIds.map .str))])
  stablePrefixDigest := lib.canonicalHash stablePrefix

structure WorkingContext where
  compilerVersion : String
  compilerBindingEpoch : Nat
  compilerDigest : String
  tokenizerDigest : String
  modelResource : String
  templateRegistryDigest : String
  toolRegistryDigest : String
  readGrantDigest : String
  stablePrefixDigest : String
  variableSuffixDigest : String
  contextDigest : String
  compiledAt : Datetime
  expiresAt : Datetime
  tokenBudget : TokenBudget
  items : List Item
  omittedCounts : OmittedCounts

structure TurnManifest where
  threadId : String
  liaisonMessageId : String
  userMessageId : String
  readerPrincipal : String
  scope : Scope
  cellId : String
  placementEpoch : Nat
  purpose : String
  classificationCeiling : String
  region : String
  anchorKind : String
  anchorRef : String
  conversationIntent : String
  authorityRoute : String
  resolvedReferences : List Json
  sourceVersions : List (List (String × String))
  scopeSequenceHighWater : Nat
  workingContext : WorkingContext

def scopeJson (scope : Scope) : Json :=
  .obj [("organization_id", .str scope.organizationId), ("project_id", .str scope.projectId),
    ("environment_id", .str scope.environmentId)]

def TokenBudget.json (budget : TokenBudget) : Json :=
  .obj [("model_input_limit", .int budget.modelInputLimit),
    ("stable_prefix_tokens", .int budget.stablePrefixTokens),
    ("reserved_output_tokens", .int budget.reservedOutputTokens),
    ("safety_margin_tokens", .int budget.safetyMarginTokens),
    ("dynamic_context_ceiling", .int budget.dynamicContextCeiling),
    ("actual_context_tokens", .int budget.actualContextTokens)]

def OmittedCounts.json (counts : OmittedCounts) : Json :=
  .obj [("expired_or_purged", .int counts.expiredOrPurged), ("superseded", .int counts.superseded),
    ("budget", .int counts.budget), ("context_reduced_by_policy", .bool counts.contextReducedByPolicy)]

def WorkingContext.json (context : WorkingContext) : Json :=
  .obj [("compiler_version", .str context.compilerVersion),
    ("compiler_binding_epoch", .int context.compilerBindingEpoch),
    ("compiler_digest", .str context.compilerDigest),
    ("tokenizer_digest", .str context.tokenizerDigest),
    ("model_resource", .str context.modelResource),
    ("template_registry_digest", .str context.templateRegistryDigest),
    ("tool_registry_digest", .str context.toolRegistryDigest),
    ("read_grant_digest", .str context.readGrantDigest),
    ("stable_prefix_digest", .str context.stablePrefixDigest),
    ("variable_suffix_digest", .str context.variableSuffixDigest),
    ("context_digest", .str context.contextDigest),
    ("compiled_at", .str (lib.isoformat context.compiledAt)),
    ("expires_at", .str (lib.isoformat context.expiresAt)),
    ("token_budget", context.tokenBudget.json),
    ("items", .arr (context.items.map Item.json)),
    ("omitted_counts", context.omittedCounts.json)]

def TurnManifest.anchorJson (manifest : TurnManifest) : Json :=
  .obj [("kind", .str manifest.anchorKind), ("ref", .str manifest.anchorRef)]

def TurnManifest.fields (manifest : TurnManifest) : List (String × Json) :=
  [("schema_version", .int 2), ("thread_id", .str manifest.threadId),
    ("liaison_message_id", .str manifest.liaisonMessageId),
    ("user_message_id", .str manifest.userMessageId),
    ("reader_principal", .str manifest.readerPrincipal),
    ("scope", scopeJson manifest.scope), ("cell_id", .str manifest.cellId),
    ("placement_epoch", .int manifest.placementEpoch), ("purpose", .str manifest.purpose),
    ("classification_ceiling", .str manifest.classificationCeiling),
    ("region", .str manifest.region), ("anchor_ref", manifest.anchorJson),
    ("conversation_intent", .str manifest.conversationIntent),
    ("authority_route", .str manifest.authorityRoute),
    ("resolved_references", .arr manifest.resolvedReferences),
    ("source_versions", .arr (manifest.sourceVersions.map (fun source =>
      .obj (source.map (fun field => (field.1, .str field.2)))))),
    ("scope_sequence_high_water", .int manifest.scopeSequenceHighWater),
    ("working_context", manifest.workingContext.json lib)]

/-- `provider_input_from_manifest` -/
def providerInputFromManifest (manifest : TurnManifest) (question : String) : String :=
  let context := manifest.workingContext
  let rendered := context.items.map (fun item =>
    match item.json with
    | .obj fields =>
      .obj (if item.kind = .currentUser then fields ++ [("content", .str question)] else fields)
    | other => other)
  lib.dumps (.obj [("schema_version", .int 1), ("scope", scopeJson manifest.scope),
    ("cell_id", .str manifest.cellId), ("placement_epoch", .int manifest.placementEpoch),
    ("purpose", .str manifest.purpose), ("reader_principal", .str manifest.readerPrincipal),
    ("anchor_ref", manifest.anchorJson),
    ("conversation_intent", .str manifest.conversationIntent),
    ("authority_route", .str manifest.authorityRoute),
    ("stable_prefix_digest", .str context.stablePrefixDigest),
    ("stable_prefix_tokens", .int context.tokenBudget.stablePrefixTokens),
    ("compiler_version", .str context.compilerVersion),
    ("template_registry_digest", .str context.templateRegistryDigest),
    ("tool_registry_digest", .str context.toolRegistryDigest),
    ("scope_sequence_high_water", .int manifest.scopeSequenceHighWater),
    ("items", .arr rendered), ("omitted_counts", context.omittedCounts.json)])

def providerInputDigest (manifest : TurnManifest) (question : String) : String :=
  "sha256:" ++ lib.sha256 (Json.utf8 (providerInputFromManifest lib manifest question))

/-- `bind_provider_input` -/
def bindProviderInput (manifest : TurnManifest) (question : String) : TurnManifest :=
  let digest := providerInputDigest lib manifest question
  { manifest with
    workingContext := {
      manifest.workingContext with
      variableSuffixDigest := digest
      contextDigest := digest } }

/-- The manifest with the digest of the grant its turn may read under. -/
def TurnManifest.granted (manifest : TurnManifest) (readGrantDigest : String) : TurnManifest :=
  { manifest with workingContext := { manifest.workingContext with readGrantDigest := readGrantDigest } }

/-- `manifest_hash` -/
def manifestHash (manifest : TurnManifest) (policyEpoch membershipEpoch : Nat) : String :=
  "sha256:" ++ lib.sha256 (lib.rfc8785 (.obj (manifest.fields lib)) ++
    0 :: Json.utf8 (toString policyEpoch) ++ 0 :: Json.utf8 (toString membershipEpoch))

structure Placement where
  cellId : String
  placementEpoch : Nat
  homeRegion : String
  classificationCeiling : String
  lifecycle : String

structure CompilerRevision where
  compilerVersion : String
  compilerDigest : String
  tokenizerDigest : String

/-- A row of `liaison_context_compiler_bindings` with its revision; only an activation has one. -/
structure CompilerBinding where
  bindingEpoch : Nat
  activated : Option CompilerRevision

/-- The message of a user, with the payload of its first text part. -/
structure UserMessage where
  id : String
  threadId : String
  authorPrincipal : String
  classification : String
  contentHash : String
  payload : List (String × Json)

/-- `str(payload.get("sentence", ""))`; `user_part` writes a text. -/
def UserMessage.sentence (message : UserMessage) : String :=
  match message.payload.lookup "sentence" with
  | some (.str sentence) => sentence
  | _ => ""

/-- The arguments of `compile_manifest`, with what is read of the conversation. -/
structure ManifestCall where
  threadId : String
  answerMessageId : String
  intent : String
  authorityRoute : String
  resolvedReferences : List Json
  sourceVersions : List (List (String × String))
  readerPrincipal : String
  history : List TranscriptMessage
  compactions : List CompactionCandidate
  references : List ReferenceCandidate

/-- The rows that a manifest is compiled from. -/
structure ManifestRows where
  scope : Scope
  anchorKind : String
  anchorRef : String
  message : UserMessage
  scopeSequenceHighWater : Nat
  placement : Placement
  bindingEpoch : Nat
  revision : CompilerRevision

/-- `min((a, b), key=…index)`, which raises where one is not among the classifications. -/
def lowerCeiling (a b : String) : Except String String :=
  match manifestRank a, manifestRank b with
  | some low, some high => .ok (if high < low then b else a)
  | _, _ => .error "tuple.index(x): x not in tuple"

def nonModelIntent (intent : String) : Bool :=
  ["SOCIAL", "HELP", "OUT_OF_SCOPE", "ACTION_REFERENCE"].contains intent

/-- `ContextBudget()` -/
def defaultBudget : ContextBudget where
  positive := defaultTokens_positive
  ttl := defaultTtl_bounded
  room := defaultTokens_room

/-- The current message, as a message of the transcript. -/
def currentUser (lib : ManifestLibrary) (message : UserMessage) : Except String TranscriptMessage :=
  let part : PartFields := {
    id := "part:" ++ message.id
    kind := "text"
    digest := if message.contentHash.toList.take 7 == "sha256:".toList then message.contentHash
      else lib.canonicalHash (.obj message.payload)
    classification := message.classification
    accessVerdictRef := some ("message-access:" ++ message.id)
    text := message.sentence }
  if h : firstFailure part.checks = .ok () then
    .ok {
      id := message.id
      role := "USER"
      turnState := "COMPLETED"
      streamPosition := 0
      classification := message.classification
      parts := [⟨part, h⟩] }
  else .error "current user part is not valid"

/-- What a manifest takes from the compiled context, or has where the intent needs no model. -/
structure ContextMaterial where
  compiledAt : Datetime
  expiresAt : Datetime
  stablePrefixDigest : String
  variableSuffixDigest : String
  contextDigest : String
  tokenBudget : TokenBudget
  items : List Item
  omittedCounts : OmittedCounts

def noDigest : String := "sha256:" ++ String.ofList (List.replicate 64 '0')

def contextMaterial (call : ManifestCall) (message : TranscriptMessage) (ceiling : String)
    (now : Datetime) : Except String ContextMaterial :=
  if nonModelIntent call.intent then
    match later now 300 with
    | none => .error "date value out of range"
    | some expiresAt => .ok {
        compiledAt := now
        expiresAt := expiresAt
        stablePrefixDigest := (localContextBindings lib).stablePrefixDigest
        variableSuffixDigest := noDigest
        contextDigest := noDigest
        tokenBudget := {
          modelInputLimit := 1000000
          stablePrefixTokens := 0
          reservedOutputTokens := 8192
          safetyMarginTokens := 8192
          dynamicContextCeiling := 983616
          actualContextTokens := 0 }
        items := []
        omittedCounts := { budget := 0 } }
  else do
    let ctx ← compileContext lib.canonicalHash {
      currentUser := message
      history := call.history
      compactions := call.compactions
      references := call.references
      sourceVersions := call.sourceVersions
      classificationCeiling := ceiling
      budget := defaultBudget
      now := now
      stablePrefixMaterial := some stablePrefix }
    return ⟨ctx.compiledAt, ctx.expiresAt, ctx.stablePrefixDigest, ctx.variableSuffixDigest,
      ctx.contextDigest, ctx.tokenBudget, ctx.items, ctx.omittedCounts⟩

/-- The manifest as it is put together. -/
def ManifestCall.manifest (call : ManifestCall) (rows : ManifestRows) (bindings : LocalBindings)
    (ceiling : String) (context : ContextMaterial) : TurnManifest where
  threadId := call.threadId
  liaisonMessageId := call.answerMessageId
  userMessageId := rows.message.id
  readerPrincipal := call.readerPrincipal
  scope := rows.scope
  cellId := rows.placement.cellId
  placementEpoch := rows.placement.placementEpoch
  purpose := "incident-investigation"
  classificationCeiling := ceiling
  region := rows.placement.homeRegion
  anchorKind := rows.anchorKind
  anchorRef := rows.anchorRef
  conversationIntent := call.intent
  authorityRoute := call.authorityRoute
  resolvedReferences := call.resolvedReferences
  sourceVersions := call.sourceVersions
  scopeSequenceHighWater := rows.scopeSequenceHighWater
  workingContext := {
    compilerVersion := rows.revision.compilerVersion
    compilerBindingEpoch := rows.bindingEpoch
    compilerDigest := rows.revision.compilerDigest
    tokenizerDigest := rows.revision.tokenizerDigest
    modelResource := "gemini-3.6-flash"
    templateRegistryDigest := bindings.templateRegistryDigest
    toolRegistryDigest := bindings.toolRegistryDigest
    readGrantDigest := noDigest
    stablePrefixDigest := context.stablePrefixDigest
    variableSuffixDigest := context.variableSuffixDigest
    contextDigest := context.contextDigest
    compiledAt := context.compiledAt
    expiresAt := context.expiresAt
    tokenBudget := context.tokenBudget
    items := context.items
    omittedCounts := context.omittedCounts }

/-- `compile_manifest`, once the rows have been read. -/
def compileManifest (rows : ManifestRows) (call : ManifestCall) (now : Datetime) :
    Except String TurnManifest :=
  let bindings := localContextBindings lib
  if rows.revision.compilerDigest ≠ bindings.compilerDigest ∨
      rows.revision.tokenizerDigest ≠ bindings.tokenizerDigest then
    .error "active Liaison compiler does not match this service revision"
  else do
    let message ← currentUser lib rows.message
    let ceiling ← lowerCeiling rows.message.classification rows.placement.classificationCeiling
    let context ← contextMaterial lib call message ceiling now
    return call.manifest rows bindings ceiling context

/-- What a manifest is compared with when its turn is claimed. -/
structure Expectations where
  hash : String
  policyEpoch : Nat
  membershipEpoch : Nat
  scope : Scope
  cellId : String
  placementEpoch : Nat
  readerPrincipal : String
  purpose : String
  region : String
  compilerVersion : String
  compilerBindingEpoch : Nat
  bindings : LocalBindings
  modelResource : String
  readGrantDigest : String
  scopeSequenceHighWater : Nat

/-- The part of a manifest that `Manifest.checks` is about. -/
def TurnManifest.context (manifest : TurnManifest) : Manifest :=
  ⟨manifest.classificationCeiling, manifest.workingContext.items, manifest.workingContext.tokenBudget,
    manifest.workingContext.compiledAt, manifest.workingContext.expiresAt⟩

/-- `(source["record_type"], source["record_id"])`; the schema asks for both. -/
def TurnManifest.sourceKeys (manifest : TurnManifest) : List (Option String × Option String) :=
  manifest.sourceVersions.map (fun source => (source.lookup "record_type", source.lookup "record_id"))

def mismatch (field : String) : String := "manifest " ++ field ++ " does not match the dispatch binding"

/-- The comparisons of `validate_manifest`. -/
def TurnManifest.comparisons (manifest : TurnManifest) (e : Expectations) : List (Bool × String) :=
  let context := manifest.workingContext
  [(manifest.scope == e.scope, "manifest scope does not match the attempt row"),
    (manifest.cellId == e.cellId, mismatch "cell_id"),
    (manifest.placementEpoch == e.placementEpoch, mismatch "placement_epoch"),
    (manifest.readerPrincipal == e.readerPrincipal, mismatch "reader_principal"),
    (manifest.purpose == e.purpose, mismatch "purpose"),
    (manifest.region == e.region, mismatch "region"),
    (context.compilerVersion == e.compilerVersion, mismatch "compiler_version"),
    (context.compilerBindingEpoch == e.compilerBindingEpoch, mismatch "compiler_binding_epoch"),
    (context.compilerDigest == e.bindings.compilerDigest, mismatch "compiler_digest"),
    (context.tokenizerDigest == e.bindings.tokenizerDigest, mismatch "tokenizer_digest"),
    (context.modelResource == e.modelResource, mismatch "model_resource"),
    (context.readGrantDigest == e.readGrantDigest, mismatch "read_grant_digest"),
    (context.templateRegistryDigest == e.bindings.templateRegistryDigest,
      mismatch "template_registry_digest"),
    (context.toolRegistryDigest == e.bindings.toolRegistryDigest, mismatch "tool_registry_digest"),
    (context.stablePrefixDigest == e.bindings.stablePrefixDigest, mismatch "stable_prefix_digest"),
    (manifest.scopeSequenceHighWater == e.scopeSequenceHighWater,
      "manifest source high-water does not match compilation"),
    (manifestHash lib manifest e.policyEpoch e.membershipEpoch == e.hash, "manifest digest mismatch")]

/-- `validate_manifest` -/
def validateManifest (manifest : TurnManifest) (e : Expectations) : Except String Unit :=
  firstFailure ((lib.schema (.obj (manifest.fields lib)), "manifest does not match its schema") ::
    manifest.context.checks.take 1 ++
    (decide manifest.sourceKeys.Nodup, "one record may have only one selected source version") ::
    manifest.context.checks.drop 1 ++ manifest.comparisons lib e)

/-- `validate_manifest_freshness` -/
def validateManifestFreshness (manifest : TurnManifest) (moment : Datetime) : Except String Unit :=
  firstFailure [(moment.aware, "manifest freshness time must be timezone-aware"),
    (decide (moment.instant < manifest.workingContext.expiresAt.instant),
      "manifest working context has expired")]

variable {lib} {call : ManifestCall} {rows : ManifestRows} {now : Datetime} {manifest : TurnManifest}

theorem compileContext_prefix {digest : Json → String} {r : Request} {ctx : CompiledContext}
    (h : compileContext digest r = .ok ctx) : ctx.stablePrefixDigest = digest (r.stablePrefixMaterial.getD
      (.obj [("revision", .str "solvan-liaison-query-planner-v1")])) := by
  unfold compileContext assemble at h
  repeat' split at h
  all_goals first | (cases h; done) | (cases h; rfl)

theorem lowerCeiling_ranked {a b ceiling : String} (h : lowerCeiling a b = .ok ceiling) :
    (manifestRank ceiling).isSome = true := by
  unfold lowerCeiling at h
  split at h
  · rename_i low high hlow hhigh
    cases h
    split
    · rw [hhigh]; rfl
    · rw [hlow]; rfl
  · cases h

/-- What a context gives the manifest, with a model or without. -/
structure ContextMaterial.Sound (lib : ManifestLibrary) (context : ContextMaterial) (ceiling : String)
    (now : Datetime) : Prop where
  compiledAt : context.compiledAt = now
  expiresAt : later now 300 = some context.expiresAt
  stablePrefix : context.stablePrefixDigest = (localContextBindings lib).stablePrefixDigest
  accepted : firstFailure (Manifest.checks ⟨ceiling, context.items, context.tokenBudget,
    context.compiledAt, context.expiresAt⟩) = .ok ()

theorem contextMaterial_ok {message : TranscriptMessage} {ceiling : String} {context : ContextMaterial}
    (hceiling : (manifestRank ceiling).isSome = true)
    (h : contextMaterial lib call message ceiling now = .ok context) : context.Sound lib ceiling now := by
  unfold contextMaterial at h
  split at h
  · cases hlater : later now 300 with
    | none => rw [hlater] at h; cases h
    | some expiresAt =>
      rw [hlater] at h
      cases h
      refine ⟨rfl, hlater, rfl, firstFailure_ok.mpr ?_⟩
      have hinstant := later_instant hlater
      simp only [Manifest.checks, TokenBudget.usable, List.forall_mem_cons, List.not_mem_nil,
        false_imp_iff, implies_true, and_true, hceiling]
      simp
      omega
  · obtain ⟨ctx, hctx, hcontext⟩ := bind_ok.mp h
    cases hcontext
    have compiled := compileContext_ok hctx
    exact ⟨compiled.compiledAt, compiled.expiresAt, compileContext_prefix hctx, compiled.accepted⟩

/-- What a manifest is made of. -/
structure CompiledManifest (lib : ManifestLibrary) (rows : ManifestRows) (call : ManifestCall)
    (now : Datetime) (manifest : TurnManifest) (ceiling : String) (context : ContextMaterial) : Prop where
  made : manifest = call.manifest rows (localContextBindings lib) ceiling context
  compiler : rows.revision.compilerDigest = (localContextBindings lib).compilerDigest
  tokenizer : rows.revision.tokenizerDigest = (localContextBindings lib).tokenizerDigest
  context : context.Sound lib ceiling now

theorem compileManifest_ok (h : compileManifest lib rows call now = .ok manifest) :
    ∃ ceiling context, CompiledManifest lib rows call now manifest ceiling context := by
  simp only [compileManifest] at h
  split at h
  · cases h
  · rename_i hbindings
    push Not at hbindings
    obtain ⟨message, -, h⟩ := bind_ok.mp h
    obtain ⟨ceiling, hceiling, h⟩ := bind_ok.mp h
    obtain ⟨context, hcontext, h⟩ := bind_ok.mp h
    cases h
    exact ⟨ceiling, context, rfl, hbindings.1, hbindings.2,
      contextMaterial_ok (lowerCeiling_ranked hceiling) hcontext⟩

/-- The digests of the provider input are no part of it. -/
theorem bindProviderInput_digest (manifest : TurnManifest) (question : String) :
    (bindProviderInput lib manifest question).workingContext.contextDigest =
      providerInputDigest lib (bindProviderInput lib manifest question) question := rfl

/-- A manifest that agrees with what it is compared with passes where its schema and its
sources do. -/
theorem validateManifest_iff {e : Expectations}
    (haccepted : firstFailure manifest.context.checks = .ok ())
    (hagrees : ∀ check ∈ manifest.comparisons lib e, check.1 = true) :
    validateManifest lib manifest e = .ok () ↔
      lib.schema (.obj (manifest.fields lib)) = true ∧ manifest.sourceKeys.Nodup := by
  have hchecks := firstFailure_ok.mp haccepted
  rw [validateManifest, firstFailure_ok]
  simp only [List.cons_append, List.append_assoc, List.forall_mem_cons, List.forall_mem_append]
  constructor
  · rintro ⟨hschema, -, hsources, -, -⟩
    exact ⟨hschema, of_decide_eq_true hsources⟩
  · rintro ⟨hschema, hsources⟩
    exact ⟨hschema, fun check hcheck => hchecks check (List.take_subset _ _ hcheck),
      decide_eq_true hsources, fun check hcheck => hchecks check (List.drop_subset _ _ hcheck), hagrees⟩

/-- What a claim has to find for a manifest that was bound at its preparation. -/
structure Expectations.Agree (e : Expectations) (lib : ManifestLibrary) (rows : ManifestRows)
    (manifest : TurnManifest) : Prop where
  hash : e.hash = manifestHash lib manifest e.policyEpoch e.membershipEpoch
  scope : e.scope = rows.scope
  cell : e.cellId = rows.placement.cellId
  placementEpoch : e.placementEpoch = rows.placement.placementEpoch
  reader : e.readerPrincipal = manifest.readerPrincipal
  purpose : e.purpose = "incident-investigation"
  region : e.region = rows.placement.homeRegion
  compilerVersion : e.compilerVersion = rows.revision.compilerVersion
  bindingEpoch : e.compilerBindingEpoch = rows.bindingEpoch
  bindings : e.bindings = localContextBindings lib
  model : e.modelResource = "gemini-3.6-flash"
  grant : e.readGrantDigest = manifest.workingContext.readGrantDigest
  highWater : e.scopeSequenceHighWater = rows.scopeSequenceHighWater

theorem CompiledManifest.agrees {ceiling question digest : String} {context : ContextMaterial}
    {e : Expectations} (h : CompiledManifest lib rows call now manifest ceiling context)
    (agree : e.Agree lib rows (bindProviderInput lib (manifest.granted digest) question)) :
    ∀ check ∈ (bindProviderInput lib (manifest.granted digest) question).comparisons lib e,
      check.1 = true := by
  obtain ⟨rfl, hcompiler, htokenizer, hcontext⟩ := h
  simp only [TurnManifest.comparisons, List.forall_mem_cons, List.not_mem_nil, false_imp_iff,
    implies_true, and_true, true_and, beq_iff_eq, agree.hash, agree.scope, agree.cell, agree.placementEpoch,
    agree.reader, agree.purpose, agree.region, agree.compilerVersion, agree.bindingEpoch,
    agree.bindings, agree.model, agree.grant, agree.highWater]
  exact ⟨rfl, rfl, rfl, rfl, rfl, rfl, rfl, hcompiler, htokenizer, rfl, rfl, rfl,
    hcontext.stablePrefix, rfl⟩

theorem CompiledManifest.accepted {ceiling question digest : String} {context : ContextMaterial}
    (h : CompiledManifest lib rows call now manifest ceiling context) :
    firstFailure (bindProviderInput lib (manifest.granted digest) question).context.checks = .ok () := by
  obtain ⟨rfl, -, -, hcontext⟩ := h
  exact hcontext.accepted

/-- The manifest expires five minutes after it was compiled. -/
theorem CompiledManifest.expiry {ceiling question digest : String} {context : ContextMaterial}
    (h : CompiledManifest lib rows call now manifest ceiling context) :
    (bindProviderInput lib (manifest.granted digest) question).workingContext.expiresAt.instant =
      now.instant + 300 * 1000000 := by
  obtain ⟨rfl, -, -, hcontext⟩ := h
  exact later_instant hcontext.expiresAt

end Solvan.Context
