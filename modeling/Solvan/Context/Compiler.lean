import Solvan.Base.Json.Text
import Solvan.Base.Newest
import Solvan.Context.Transcript

/-! The context of a turn: which parts of a conversation go into it, in which order, and what
has to be left out. -/
namespace Solvan.Context

open Checks

/-- `ContextBudget`, with what `__post_init__` asks of it -/
structure ContextBudget where
  modelInputLimit : Nat := 1000000
  stablePrefixTokens : Nat := 1200
  reservedOutputTokens : Nat := 8192
  safetyMarginTokens : Nat := 8192
  workingContextTokenCeiling : Nat := 60000
  preserveRecentTokens : Nat := 8000
  ttlSeconds : Nat := 300
  positive : 1 ≤ reservedOutputTokens ∧ 1 ≤ safetyMarginTokens ∧ 1 ≤ workingContextTokenCeiling
  ttl : 1 ≤ ttlSeconds ∧ ttlSeconds ≤ 3600
  room : stablePrefixTokens + reservedOutputTokens + safetyMarginTokens < modelInputLimit

theorem defaultTokens_positive : 1 ≤ 8192 ∧ 1 ≤ 8192 ∧ 1 ≤ 60000 := by decide

theorem defaultTtl_bounded : 1 ≤ 300 ∧ 300 ≤ 3600 := by decide

theorem defaultTokens_room : 1200 + 8192 + 8192 < 1000000 := by decide

def ContextBudget.usable (budget : ContextBudget) : Nat :=
  budget.modelInputLimit - budget.stablePrefixTokens - budget.reservedOutputTokens - budget.safetyMarginTokens

def ContextBudget.dynamicCeiling (budget : ContextBudget) : Nat :=
  min budget.workingContextTokenCeiling budget.usable

/-- The arguments of `compile_context`. The time is the one given, or that of the clock. -/
structure Request where
  currentUser : TranscriptMessage
  history : List TranscriptMessage := []
  compactions : List CompactionCandidate := []
  references : List ReferenceCandidate := []
  sourceVersions : List (List (String × String)) := []
  classificationCeiling : String
  budget : ContextBudget
  now : Datetime
  currentUserText : Option String := none
  stablePrefixMaterial : Option Json := none

/-- `_bytes` -/
def bytes (text : String) : Nat := max 1 text.utf8ByteSize

/-- What the parts of messages come to; those without text count for nothing. -/
def textTokens (parts : List TranscriptPart) : Nat :=
  ((parts.filter (fun part => part.text != "")).map (fun part => bytes part.text)).sum

def Turn.tokens (turn : Turn) : Nat := textTokens (turn.1.parts ++ turn.2.parts)

inductive ItemKind where
  | truncationMarker | compaction | threadTurn | record | memoryRef | currentUser
deriving DecidableEq, Repr

def ItemKind.text : ItemKind → String
  | .truncationMarker => "TRUNCATION_MARKER"
  | .compaction => "COMPACTION"
  | .threadTurn => "THREAD_TURN"
  | .record => "RECORD"
  | .memoryRef => "MEMORY_REF"
  | .currentUser => "CURRENT_USER"

/-- What an item of the context is made from. -/
inductive Entry where
  | truncationMarker (omitted : Nat)
  | compaction (candidate : CompactionCandidate)
  | threadTurn (turn : Turn)
  | reference (candidate : ReferenceCandidate)
  | currentUser (message : TranscriptMessage)
deriving DecidableEq

/-- An item as it is handed on. -/
structure Item where
  sequence : Nat
  kind : ItemKind
  ref : String
  digest : String
  tokenCount : Nat
  classification : String
  trust : String
  accessVerdictRef : Option String
deriving DecidableEq, Repr

/-- `_part_digest` -/
def partDigest (digest : Json → String) (message : TranscriptMessage) : String :=
  digest (.obj [("message", .str message.id), ("parts", .arr (message.parts.map (fun part =>
    .arr [.str part.id, .str part.kind, .str part.digest])))])

/-- `" ".join(part.text for part in current_user.parts if part.text)` -/
def messageText (message : TranscriptMessage) : String :=
  " ".intercalate ((message.parts.filter (fun part => part.text != "")).map (fun part => part.text))

/-- `max(..., key=lambda value: _RANK[value])`: of equals the first. -/
def higher (a b : String) : String := if (rank a).getD 99 < (rank b).getD 99 then b else a

/-- The item that is made from an entry, with the number it has in the end. -/
def Entry.item (digest : Json → String) (sequence : Nat) : Entry → Item
  | .truncationMarker omitted => {
      sequence := sequence
      kind := .truncationMarker
      ref := "truncation:budget"
      digest := digest (.obj [("omitted", .int omitted)])
      tokenCount := 0
      classification := "PUBLIC"
      trust := "UNTRUSTED_CONTEXT_ONLY"
      accessVerdictRef := none }
  | .compaction candidate => {
      sequence := sequence
      kind := .compaction
      ref := "part:" ++ candidate.partId
      digest := candidate.digest
      tokenCount := candidate.tokenCount
      classification := candidate.classification
      trust := "UNTRUSTED_CONTEXT_ONLY"
      accessVerdictRef := some candidate.accessVerdictRef }
  | .threadTurn turn => {
      sequence := sequence
      kind := .threadTurn
      ref := "turn:" ++ turn.1.id ++ ":" ++ turn.2.id
      digest := digest (.obj [("user", .str turn.1.id), ("answer", .str turn.2.id),
        ("answer_digest", .str (partDigest digest turn.2))])
      tokenCount := turn.tokens
      classification := higher turn.1.classification turn.2.classification
      trust := "UNTRUSTED_CONTEXT_ONLY"
      accessVerdictRef := some ("turn-access:" ++ turn.1.id ++ ":" ++ turn.2.id) }
  | .reference candidate => {
      sequence := sequence
      kind := if candidate.authoritative then .record else .memoryRef
      ref := candidate.ref
      digest := candidate.digest
      tokenCount := 0
      classification := candidate.classification
      trust := if candidate.authoritative then "AUTHORITATIVE_REFERENCE" else "UNTRUSTED_CONTEXT_ONLY"
      accessVerdictRef := some candidate.accessVerdictRef }
  | .currentUser message => {
      sequence := sequence
      kind := .currentUser
      ref := "message:" ++ message.id
      digest := digest (.obj [("message", .str message.id),
        ("content_hash", .arr (message.parts.map (fun part => .str part.digest)))])
      tokenCount := bytes (messageText message)
      classification := message.classification
      trust := "UNTRUSTED_USER_CONTENT"
      accessVerdictRef := some ("message-access:" ++ message.id) }

/-- `int(item["token_count"])` -/
def Entry.tokens : Entry → Nat
  | .compaction candidate => candidate.tokenCount
  | .threadTurn turn => turn.tokens
  | .currentUser message => bytes (messageText message)
  | _ => 0

def Item.json (item : Item) : Json :=
  .obj [("sequence", .int item.sequence), ("kind", .str item.kind.text), ("ref", .str item.ref),
    ("digest", .str item.digest), ("token_count", .int item.tokenCount),
    ("classification", .str item.classification), ("trust", .str item.trust),
    ("access_verdict_ref", (item.accessVerdictRef.map Json.str).getD .null)]

/-- `enumerate(selected, start=1)` -/
def numberFrom (digest : Json → String) : Nat → List Entry → List Item
  | _, [] => []
  | sequence, entry :: rest => entry.item digest sequence :: numberFrom digest (sequence + 1) rest

structure OmittedCounts where
  expiredOrPurged : Nat := 0
  superseded : Nat := 0
  budget : Nat
  contextReducedByPolicy : Bool := false
deriving DecidableEq, Repr

structure TokenBudget where
  modelInputLimit : Nat
  stablePrefixTokens : Nat
  reservedOutputTokens : Nat
  safetyMarginTokens : Nat
  dynamicContextCeiling : Nat
  actualContextTokens : Nat
deriving DecidableEq, Repr

structure CompiledContext where
  items : List Item
  resolvedReferences : List (String × String)
  sourceVersions : List (List (String × String))
  omittedCounts : OmittedCounts
  tokenBudget : TokenBudget
  compiledAt : Datetime
  expiresAt : Datetime
  stablePrefixDigest : String
  variableSuffixDigest : String
  contextDigest : String
  processors : List String
  /-- What the items are made from. -/
  selected : List Entry

/-- The gates that come first. -/
def Request.checks (r : Request) : List (Bool × String) :=
  [(r.currentUser.role == "USER" && r.currentUser.turnState == "COMPLETED",
      "current user message is not a complete terminal message"),
    (r.currentUser.visible && r.currentUser.redactionComplete,
      "current user message is withheld or unclassified"),
    (within r.currentUser.classification r.classificationCeiling,
      "current user exceeds the classification ceiling"),
    (decide (0 < r.budget.usable ∧ 0 < r.budget.dynamicCeiling),
      "context budget has no usable model input")]

/-- The complete turns before this one. -/
def Request.pairs (r : Request) : List Turn :=
  selectCompleteTurns r.history r.currentUser.id r.classificationCeiling

/-- The newest turns, kept as they are. -/
def Request.tail (r : Request) : List Turn :=
  Newest.pin Turn.tokens r.budget.preserveRecentTokens r.pairs.reverse []

def Request.eligibleIds (r : Request) : List String := r.pairs.flatMap Turn.ids

def Request.pinnedIds (r : Request) : List String := r.tail.flatMap Turn.ids

def Request.compaction (r : Request) : Option CompactionCandidate :=
  selectCompaction r.compactions (r.eligibleIds.filter (fun id => !r.pinnedIds.contains id))
    r.classificationCeiling

def Request.compactedIds (r : Request) : List String :=
  (r.compaction.map (fun item => item.sourceMessageIds)).getD []

def Request.selectedReferences (r : Request) : List ReferenceCandidate :=
  r.references.filter (fun reference => within reference.classification r.classificationCeiling)

/-- The items before that of the current user. -/
def Request.items (r : Request) : List Entry :=
  (r.compaction.filter (fun item => !item.sourceMessageIds.any r.pinnedIds.contains)).toList.map
      Entry.compaction ++
    (r.tail.filter (fun turn => !turn.ids.any r.compactedIds.contains)).map Entry.threadTurn ++
    r.selectedReferences.map Entry.reference

def Request.currentText (r : Request) : String := messageText r.currentUser

/-- The turns that are neither kept nor compacted, told by the IDs of their messages. -/
def Request.omittedBefore (r : Request) : Nat :=
  r.pairs.countP (fun turn => !turn.ids.any r.pinnedIds.contains && !turn.ids.any r.compactedIds.contains)

/-- `compiled_at + timedelta(seconds=ttl)`, or none where that leaves the calendar. -/
def later (moment : Datetime) (seconds : Nat) : Option Datetime :=
  if h : moment.wall + seconds * 1000000 < Calendar.maxMicros then
    some ⟨moment.wall + seconds * 1000000, moment.utcoffset, h⟩
  else none

def processors : List String :=
  ["validate_bindings", "filter_reader_projection", "select_complete_turns",
    "select_compaction_and_pinned_tail", "resolve_typed_references", "add_artifact_and_memory_refs",
    "prune_and_budget", "assemble_stable_prefix_and_variable_suffix"]

/-- The context that is made of the items that were kept, with what all of it comes to. -/
def assemble (digest : Json → String) (r : Request) (kept : List Entry) (tokens : Nat) :
    Except String CompiledContext :=
  -- Every item that was taken away counts as one.
  let omitted := r.omittedBefore + (r.items.length - kept.length)
  let selected := (if omitted = 0 then [] else [.truncationMarker omitted]) ++ kept ++
    [.currentUser r.currentUser]
  let items := numberFrom digest 1 selected
  let variableDigest := digest (.arr (items.map Item.json))
  if !r.now.aware then .error "compilation time must be timezone-aware"
  else
    match later r.now r.budget.ttlSeconds with
    | none => .error "date value out of range"
    | some expiresAt => .ok {
        items := items
        resolvedReferences := r.selectedReferences.map (fun reference => (reference.kind, reference.ref))
        sourceVersions := r.sourceVersions
        omittedCounts := { budget := omitted }
        tokenBudget := {
          modelInputLimit := r.budget.modelInputLimit
          stablePrefixTokens := r.budget.stablePrefixTokens
          reservedOutputTokens := r.budget.reservedOutputTokens
          safetyMarginTokens := r.budget.safetyMarginTokens
          dynamicContextCeiling := r.budget.dynamicCeiling
          actualContextTokens := tokens }
        compiledAt := r.now
        expiresAt := expiresAt
        stablePrefixDigest := digest (r.stablePrefixMaterial.getD
          (.obj [("revision", .str "solvan-liaison-query-planner-v1")]))
        variableSuffixDigest := variableDigest
        contextDigest := variableDigest
        processors := processors
        selected := selected }

/-- The items that are kept when the oldest are taken away as long as all is too much, and
what is left comes to. -/
def Request.evicted (r : Request) : List Entry × Nat :=
  Newest.evict Entry.tokens r.budget.dynamicCeiling r.items
    (Newest.total Entry.tokens r.items + bytes r.currentText)

/-- `compile_context` -/
def compileContext (digest : Json → String) (r : Request) : Except String CompiledContext :=
  match firstFailure r.checks with
  | .error message => .error message
  | .ok () =>
    if r.currentUserText.any (· != r.currentText) then
      .error "current user text does not match the stored message parts"
    else if r.budget.dynamicCeiling < bytes r.currentText then
      .error "current user message exceeds dynamic context ceiling"
    else if r.budget.dynamicCeiling < r.evicted.2 then
      .error "mandatory current context cannot fit model input"
    else assemble digest r r.evicted.1 r.evicted.2

end Solvan.Context
