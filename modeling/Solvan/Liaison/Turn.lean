import Solvan.Liaison.Composer
import Solvan.Liaison.Gate

/-! One turn: a question is composed, gated, and assembled into an answer. -/
namespace Solvan.Liaison.Turn
open Solvan.Base

inductive TurnState where
  | streaming | parked | completed | interrupted | error
deriving DecidableEq, Repr

structure TurnBudget where
  toolCalls : Nat
  modelCalls : Nat
  tokens : Nat
deriving DecidableEq, Repr

/-- `TurnBudget.exceeded_by` -/
def TurnBudget.exceededBy (budget : TurnBudget) (usage : TurnUsage) : Option String :=
  if budget.toolCalls < usage.toolCalls then
    some ("tool-call ceiling of " ++ String.ofList (Nat.toDigits 10 budget.toolCalls))
  else if budget.modelCalls < usage.modelCalls then
    some ("model-call ceiling of " ++ String.ofList (Nat.toDigits 10 budget.modelCalls))
  else if budget.tokens < usage.tokens then
    some ("token ceiling of " ++ String.ofList (Nat.toDigits 10 budget.tokens))
  else none

theorem TurnBudget.exceededBy_none {budget : TurnBudget} {usage : TurnUsage} :
    budget.exceededBy usage = none ↔
      usage.toolCalls ≤ budget.toolCalls ∧ usage.modelCalls ≤ budget.modelCalls ∧ usage.tokens ≤ budget.tokens := by
  unfold exceededBy
  split
  · simp only [reduceCtorEq, false_iff]
    omega
  · split
    · simp only [reduceCtorEq, false_iff]
      omega
    · split
      · simp only [reduceCtorEq, false_iff]
        omega
      · simp only [true_iff]
        omega

/-- `_positive_env` -/
def positiveEnv (env : Platform) (name : String) (fallback : Nat) : Nat :=
  match (env.environ name).bind env.int with
  | some value => if 0 < value then value.toNat else fallback
  | none => fallback

/-- `default_turn_budget` -/
def defaultTurnBudget (env : Platform) : TurnBudget where
  toolCalls := positiveEnv env "SOLVAN_LIAISON_TURN_TOOL_CALLS" 25
  modelCalls := positiveEnv env "SOLVAN_LIAISON_TURN_MODEL_CALLS" 10
  tokens := positiveEnv env "SOLVAN_LIAISON_TURN_TOKENS" 60000

theorem positiveEnv_pos {env : Platform} {name : String} {fallback : Nat} (h : 0 < fallback) :
    0 < positiveEnv env name fallback := by
  unfold positiveEnv
  split
  · split <;> omega
  · exact h

structure TurnResult where
  state : TurnState
  parts : List Part
  usage : TurnUsage
  defects : CompositionDefects
  escalation : Option Escalation
  suggested : List String
  budget : TurnBudget

/-- `MODEL_RESOLVABLE_INTENTS` -/
def modelResolvableIntents : List String := ["LEDGER_QUERY", "SOCIAL", "HELP", "OUT_OF_SCOPE"]

/-- `"thank" in text.lower()` -/
def thanks (env : Platform) (text : String) : Bool := decide ("thank".toList <:+: (env.lower text).toList)

/-- `record_reply` -/
def recordReply (env : Platform) (intent text : String) : Option (String × String) :=
  if intent = "SOCIAL" then
    some ("SOCIAL_REPLY",
      if thanks env text then "You're welcome."
      else "Hello. Ask me about this incident, its impact, evidence, actions, or recovery.")
  else if intent = "HELP" then
    some ("HELP_REPLY",
      "I can explain what happened, measured impact, evidence, governed actions, and independently verified recovery for this incident.")
  else if intent = "OUT_OF_SCOPE" then
    some ("OUT_OF_SCOPE_REPLY", "I can only help with this incident and its governed operational records.")
  else none

/-- `scope_reply` -/
def scopeReply (env : Platform) (intent text : String) : Option (String × String) :=
  if intent = "SOCIAL" then
    some ("SCOPE_SOCIAL_REPLY",
      if thanks env text then "You're welcome."
      else "Hello. Ask me about reader-visible records in the current workspace.")
  else if intent = "HELP" then
    some ("SCOPE_HELP_REPLY",
      "I can summarize reader-visible incidents, evidence, governed actions, and recovery records in this workspace.")
  else if intent = "OUT_OF_SCOPE" then
    some ("SCOPE_BOUNDARY_REPLY",
      "To request fresh telemetry, investigation, an approval, or an action, select a bounded incident or service window first.")
  else none

/-- `reply_for` -/
def replyFor (env : Platform) (anchor : Anchor) (intent text : String) : Option (String × String) :=
  match anchor with
  | .record _ => recordReply env intent text
  | _ => scopeReply env intent text

/-- What ends the gate early: the grant, or an error that leaves the turn. -/
inductive Interruption where
  | grantError (message : String)
  | raised (message : String)
deriving DecidableEq, Repr

/-- A turn: its surroundings, the registry, the ceilings and the classification of its parts. -/
structure TurnSettings extends Surroundings where
  registry : Registry
  budget : Option TurnBudget
  classification : String

section Turn

variable (env : TurnSettings)

def TurnSettings.ceilings : TurnBudget := env.budget.getD (defaultTurnBudget env.platform)

/-- The parts of the drafts, after those that were there before. -/
def gate : List Draft → List Part → Session → Option Interruption × List Part × Session
  | [], parts, s => (none, parts, s)
  | .connective templateId phrase :: rest, parts, s =>
    match env.registry.render env.platform.lang templateId phrase with
    | .error message => (some (.raised message), parts, s)
    | .ok sentence => gate rest (parts ++ [connectivePart sentence parts.length templateId]) s
  | .claim draft :: rest, parts, s =>
    match (composeClaim env.platform.lang env.registry.templates draft).run env.forVerification s with
    | (.error message, s') => (some (.grantError message), parts, s')
    | (.ok (.error message), s') => (some (.raised message), parts, s')
    | (.ok (.ok (claim, _)), s') =>
      if claim.outcome = .suppressed then gate rest parts s'
      else gate rest (parts ++ [claimPart claim parts.length env.classification]) s'

/-- A turn that ends without an escalation. -/
def ended (state : TurnState) (parts : List Part) (s : Session) : TurnResult where
  state := state
  parts := parts
  usage := s.usage
  defects := s.defects
  escalation := none
  suggested := []
  budget := env.ceilings

/-- A turn that ends in one part for everyone. -/
def endedIn (state : TurnState) (kind : PartKind) (payload : Record) (s : Session) : TurnResult :=
  ended env state [publicPart kind 0 payload env.classification] s

def errorPart (message : String) (sequence : Nat) : Part :=
  publicPart .error sequence [("error", .str message)] env.classification

def holdPart (hold : Hold) (sequence : Nat) : Part :=
  publicPart .refusal sequence
    [("sentence", .str hold.sentence), ("held_reason", .str hold.heldReason),
      ("releasing_record", .str hold.releasingRecord)] env.classification

def steerPart (escalation : Escalation) (sequence : Nat) : Part :=
  publicPart .steerDraft sequence
    [("missing", .str escalation.missing), ("proposed_step", .str escalation.proposedStep),
      ("tool_profile", .sequence (escalation.toolProfile.map Value.str)),
      ("requires_confirmation", .bool true)] env.classification

/-- The parked request of a composition, for its author. -/
def parkedPart (payload : Record) (hnamed : env.grant.principal ≠ "") : Part where
  kind := .parkedRequest
  sequence := 0
  payload :=
    if (payload.lookup "request_id").isSome then payload
    else payload ++ [("request_id", .str (env.platform.newIdentifier "prk"))]
  classification := env.classification
  accessMode := .authorOnly
  accessSet := []
  authorPrincipal := some env.grant.principal
  membershipEpoch := none
  authored := fun _ => by simpa using hnamed
  epoch := nofun

/-- The hold and the escalation of a composition, after the gated parts. -/
def closing (composition : Composition) (parts : List Part) : List Part :=
  let held := parts ++ (composition.hold.map (fun hold => holdPart env hold parts.length)).toList
  held ++ (composition.escalation.map (fun escalation => steerPart env escalation held.length)).toList

/-- The gate and what follows it. -/
def gated (composition : Composition) (s : Session) : Except String TurnResult :=
  match gate env composition.drafts [] s with
  | (some (.raised message), _, _) => .error message
  | (some (.grantError message), parts, s) =>
    .ok (ended env .error (parts ++ [errorPart env message parts.length]) s)
  | (none, parts, s) =>
    .ok { ended env .completed (closing env composition parts) s with
      escalation := composition.escalation
      suggested := composition.suggested }

/-- A parked request, or the gate. -/
def parkedOrGated (composition : Composition) (s : Session) : Except String TurnResult :=
  match composition.parkedRequest with
  | none => gated env composition s
  | some payload =>
    if hnamed : env.grant.principal ≠ "" then .ok (ended env .parked [parkedPart env payload hnamed] s)
    else .error "an author-only part must name its author"

/-- A pinned reply, or what comes after it. -/
def replied (question : String) (anchor : Anchor) (composition : Composition) (s : Session) :
    Except String TurnResult :=
  match composition.replyIntent with
  | none => parkedOrGated env composition s
  | some intent =>
    if !modelResolvableIntents.contains intent then
      .error ("a classifier may not resolve the intent " ++ env.platform.lang.repr intent)
    else
      match replyFor env.platform anchor intent question with
      | none => parkedOrGated env composition s
      | some (templateId, phrase) => do
        let sentence ← env.registry.render env.platform.lang templateId phrase
        return ended env .completed [connectivePart sentence 0 templateId] s

/-- What a composition spent. -/
def Session.charged (s : Session) (composition : Composition) : Session :=
  { s with
    usage :=
      { s.usage with
        modelCalls := s.usage.modelCalls + composition.modelCalls
        toolCalls := s.usage.toolCalls + composition.toolCalls
        tokens := s.usage.tokens + composition.tokens }
    defects :=
      if composition.providerDegraded then
        { s.defects with
          providerDegraded := s.defects.providerDegraded + 1
          reasons := s.defects.reasons ++ ["the model planner failed; the deterministic path answered"] }
      else s.defects }

def repeatedRead : Record :=
  [("kind", .str "QUESTION"),
    ("prompt", .str "I keep reading the same record without progress. Which part of this should I look at?")]

/-- What is made of a composition. -/
def assembled (question : String) (anchor : Anchor) (composition : Composition) (s : Session) :
    Except String TurnResult :=
  if s.looped then .ok (endedIn env .parked .parkedRequest repeatedRead s)
  else
    match env.ceilings.exceededBy s.usage with
    | some ceiling =>
      .ok (endedIn env .completed .budgetNote [("ceiling", .str ceiling), ("reached", .bool true)] s)
    | none =>
      if composition.screeningBlocked then
        .ok (endedIn env .completed .contentWithheld
          [("verdict", .str "MODEL_ARMOR_BLOCKED"), ("content_stored", .bool false)] s)
      else replied env question anchor composition s

/-- `run_turn` -/
def runTurn (composer : Composer) (question : String) (anchor : Anchor) (providerInput : Option String) :
    Except String TurnResult :=
  match (composer question anchor providerInput).run env.granted .start with
  | (.error message, s) => .ok (endedIn env .error .error [("error", .str message)] s)
  | (.ok composition, s) => assembled env question anchor composition (s.charged composition)

end Turn

section Plain

variable {env : TurnSettings} {question : String} {anchor : Anchor} {composition : Composition} {s : Session}

theorem Composition.Plain.charged (h : composition.Plain) : s.charged composition = s := by
  unfold Session.charged
  rw [h.modelCalls, h.toolCalls, h.tokens, h.providerDegraded]
  rfl

/-- One read is no loop. -/
theorem drafted_once (arguments : Arguments) : (Session.start.drafted arguments).looped = false := by
  simp [Session.drafted, Session.asked, Session.start, DoomLoopGuard.observe, threshold]

/-- One read is within the ceilings unless no read is. -/
theorem within_one_read (arguments : Arguments) :
    env.ceilings.exceededBy (Session.start.drafted arguments).usage = none ↔ 0 < env.ceilings.toolCalls := by
  rw [TurnBudget.exceededBy_none]
  show 1 ≤ env.ceilings.toolCalls ∧ 0 ≤ env.ceilings.modelCalls ∧ 0 ≤ env.ceilings.tokens ↔ _
  omega

/-- A composition that asks for nothing else is gated, unless the drafter looped or spent too much. -/
theorem assembled_gated (hscreening : composition.screeningBlocked = false) (hreply : composition.replyIntent = none)
    (hparked : composition.parkedRequest = none) (hlooped : s.looped = false)
    (hwithin : env.ceilings.exceededBy s.usage = none) :
    assembled env question anchor composition s = gated env composition s := by
  unfold assembled replied parkedOrGated
  rw [hlooped, hwithin, hscreening, hreply, hparked]
  rfl

theorem Composition.Plain.assembled (h : composition.Plain) (hlooped : s.looped = false)
    (hwithin : env.ceilings.exceededBy s.usage = none) :
    Turn.assembled env question anchor composition s = gated env composition s :=
  assembled_gated h.screeningBlocked h.replyIntent h.parkedRequest hlooped hwithin

/-- A turn beyond a ceiling says so and nothing else. -/
theorem assembled_over {ceiling : String} (hlooped : s.looped = false)
    (hover : env.ceilings.exceededBy s.usage = some ceiling) :
    assembled env question anchor composition s =
      .ok (endedIn env .completed .budgetNote [("ceiling", .str ceiling), ("reached", .bool true)] s) := by
  unfold assembled
  rw [hlooped, hover]
  rfl

end Plain

/-- The same turn over another store. -/
abbrev TurnSettings.over (env : TurnSettings) (store : ProjectionStore) : TurnSettings :=
  { env with store := store }

/-- A gate whose reads are answered alike makes the same parts. -/
theorem gate_related {env : TurnSettings} {store : ProjectionStore} {R : Session → Session → Prop} {s t : Session}
    (alike : ∀ call s t, R s t → (env.forVerification call s).1 = ((env.over store).forVerification call t).1 ∧
      R (env.forVerification call s).2 ((env.over store).forVerification call t).2)
    (drafts : List Draft) (parts : List Part) (hs : R s t) :
    (gate env drafts parts s).1 = (gate (env.over store) drafts parts t).1 ∧
      (gate env drafts parts s).2.1 = (gate (env.over store) drafts parts t).2.1 ∧
      R (gate env drafts parts s).2.2 (gate (env.over store) drafts parts t).2.2 := by
  induction drafts generalizing parts s t with
  | nil => exact ⟨rfl, rfl, hs⟩
  | cons draft rest ih =>
    cases draft with
    | connective templateId phrase =>
      simp only [gate]
      cases env.registry.render env.platform.lang templateId phrase with
      | error message => exact ⟨rfl, rfl, hs⟩
      | ok sentence => exact ih _ hs
    | claim draft =>
      obtain ⟨hresult, hnext⟩ := Program.run_related
        (p := composeClaim env.platform.lang env.registry.templates draft) alike hs
      simp only [gate]
      generalize (composeClaim env.platform.lang env.registry.templates draft).run env.forVerification s = left
        at hresult hnext ⊢
      generalize (composeClaim env.platform.lang env.registry.templates draft).run
        (env.over store).forVerification t = right at hresult hnext ⊢
      obtain ⟨result, s'⟩ := left
      obtain ⟨result', t'⟩ := right
      obtain rfl : result = result' := hresult
      match result with
      | .error message => exact ⟨rfl, rfl, hnext⟩
      | .ok (.error message) => exact ⟨rfl, rfl, hnext⟩
      | .ok (.ok (claim, values)) =>
        dsimp only
        split
        · exact ih _ hnext
        · exact ih _ hnext

end Solvan.Liaison.Turn
