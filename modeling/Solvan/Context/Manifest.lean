import Solvan.Context.Omissions

/-! The context of a turn as the manifest check looks at it. -/
namespace Solvan.Context

open Checks Newest

variable {digest : Json → String} {r : Request} {ctx : CompiledContext} {entries : List Entry}

/-- `CLASSIFICATION_RANK` -/
def manifestRank : String → Option Int
  | "PUBLIC" => some 0
  | "INTERNAL" => some 1
  | "CONFIDENTIAL" => some 2
  | "RESTRICTED" => some 3
  | _ => none

/-- The manifest that is made from a context, as far as the checks of its context read it. -/
structure Manifest where
  classificationCeiling : String
  items : List Item
  tokenBudget : TokenBudget
  compiledAt : Datetime
  expiresAt : Datetime

def CompiledContext.manifest (ctx : CompiledContext) (classificationCeiling : String) : Manifest :=
  ⟨classificationCeiling, ctx.items, ctx.tokenBudget, ctx.compiledAt, ctx.expiresAt⟩

def TokenBudget.usable (budget : TokenBudget) : Int :=
  budget.modelInputLimit - budget.stablePrefixTokens - budget.reservedOutputTokens -
    budget.safetyMarginTokens

/-- The checks of `validate_manifest` on sequence, budget, expiry and classification; a
classification without a rank raises. -/
def Manifest.checks (manifest : Manifest) : List (Bool × String) :=
  [(manifest.items.map Item.sequence == List.range' 1 manifest.items.length,
      "context item sequence must be contiguous and start at one"),
    (decide (0 < manifest.tokenBudget.usable ∧
        (manifest.tokenBudget.dynamicContextCeiling : Int) ≤ manifest.tokenBudget.usable),
      "dynamic context ceiling exceeds usable model input"),
    (manifest.tokenBudget.actualContextTokens == (manifest.items.map Item.tokenCount).sum,
      "actual context token count does not equal selected items"),
    (decide (manifest.tokenBudget.actualContextTokens ≤ manifest.tokenBudget.dynamicContextCeiling),
      "selected context exceeds the dynamic context ceiling"),
    (decide (manifest.compiledAt.instant < manifest.expiresAt.instant),
      "manifest expiry must follow compilation"),
    ((manifestRank manifest.classificationCeiling).isSome &&
        manifest.items.all (fun item => (manifestRank item.classification).isSome),
      "classification has no rank"),
    (manifest.items.all (fun item => decide ((manifestRank item.classification).getD 0 ≤
        (manifestRank manifest.classificationCeiling).getD 0)),
      "selected item exceeds the manifest classification ceiling")]

/-- The parts whose text or digest goes into an item. -/
def Entry.parts : Entry → List TranscriptPart
  | .threadTurn turn => turn.1.parts.filter (fun part => part.text != "") ++ turn.2.parts
  | .currentUser message => message.parts
  | _ => []

/-- What an item is made from may be seen. -/
def Entry.visible : Entry → Bool
  | .compaction candidate => candidate.visible
  | .threadTurn turn => turn.1.visible && turn.2.visible
  | .currentUser message => message.visible
  | _ => true

/-- A context that can be handed on. -/
structure Sound (digest : Json → String) (r : Request) (ctx : CompiledContext) : Prop where
  made : ctx.items = numberFrom digest 1 ctx.selected
  last : ∃ front, ctx.selected = front ++ [.currentUser r.currentUser] ∧
    ∀ message, Entry.currentUser message ∉ front
  numbered : ctx.items.map Item.sequence = List.range' 1 ctx.items.length
  counted : (ctx.items.map Item.tokenCount).sum = ctx.tokenBudget.actualContextTokens
  bounded : ctx.tokenBudget.actualContextTokens ≤ r.budget.dynamicCeiling ∧
    r.budget.dynamicCeiling ≤ r.budget.usable
  classified : ∀ item ∈ ctx.items, within item.classification r.classificationCeiling = true
  visible : ∀ entry ∈ ctx.selected, entry.visible = true
  parts : ∀ entry ∈ ctx.selected, ∀ part ∈ entry.parts,
    within part.classification r.classificationCeiling = true ∧ part.visible = true
  newest : ctx.turns <:+ r.pairs
  ordered : r.pairs.Pairwise (fun a b => a.2.streamPosition ≤ b.2.streamPosition)
  complete : ∀ turn ∈ ctx.turns, Complete r.currentUser.id r.classificationCeiling turn
  separate : ∀ candidate ∈ ctx.compactions, ∀ turn ∈ ctx.turns, ∀ id ∈ turn.ids,
    id ∉ candidate.sourceMessageIds
  accepted : firstFailure (ctx.manifest r.classificationCeiling).checks = .ok ()

/-- The parts of the current message may be seen, and neither they nor those of the turns
there is room for are above the ceiling. -/
def Request.PartsWithin (r : Request) : Prop :=
  (∀ part ∈ r.currentUser.parts,
    within part.classification r.classificationCeiling = true ∧ part.visible = true) ∧
  ∀ turn ∈ r.turns, ∀ part ∈ (Entry.threadTurn turn).parts,
    within part.classification r.classificationCeiling = true

theorem numberFrom_sequence (n : Nat) :
    (numberFrom digest n entries).map Item.sequence = List.range' n (numberFrom digest n entries).length := by
  induction entries generalizing n with
  | nil => rfl
  | cons entry rest ih =>
    have hsequence : (entry.item digest n).sequence = n := by cases entry <;> rfl
    rw [numberFrom, List.map_cons, List.length_cons, List.range'_succ, ih, hsequence]

theorem numberFrom_tokens (n : Nat) :
    ((numberFrom digest n entries).map Item.tokenCount).sum = total Entry.tokens entries := by
  induction entries generalizing n with
  | nil => rfl
  | cons entry rest ih =>
    have htokens : (entry.item digest n).tokenCount = entry.tokens := by cases entry <;> rfl
    rw [numberFrom, List.map_cons, List.sum_cons, total_cons, ih, htokens]

/-- What has a classification as an item has it as an entry. -/
def Entry.classification : Entry → String
  | .truncationMarker _ => "PUBLIC"
  | .compaction candidate => candidate.classification
  | .threadTurn turn => higher turn.1.classification turn.2.classification
  | .reference candidate => candidate.classification
  | .currentUser message => message.classification

theorem numberFrom_classified {ceiling : String} (n : Nat)
    (h : ∀ entry ∈ entries, within entry.classification ceiling = true) :
    ∀ item ∈ numberFrom digest n entries, within item.classification ceiling = true := by
  induction entries generalizing n with
  | nil => exact fun _ hitem => (nomatch hitem)
  | cons entry rest ih =>
    intro item hitem
    rcases List.mem_cons.mp hitem with rfl | hrest
    · have hentry := h entry List.mem_cons_self
      cases entry <;> exact hentry
    · exact ih (n + 1) (fun entry hentry => h entry (List.mem_cons_of_mem _ hentry)) item hrest

/-- What is at or below a ceiling has a rank, and so has the ceiling. -/
theorem within_ranks {classification ceiling : String} (h : within classification ceiling = true) :
    ∃ low high, rank classification = some low ∧ rank ceiling = some high ∧ 0 ≤ low ∧ low ≤ high := by
  have hrange : ∀ text value, rank text = some value → 0 ≤ value ∧ value ≤ 2 := by
    intro text value hvalue
    unfold rank at hvalue
    split at hvalue <;> cases hvalue <;> decide
  unfold within at h
  cases hlow : rank classification with
  | none =>
    cases hhigh : rank ceiling with
    | none => simp [hlow, hhigh] at h
    | some high =>
      have := hrange ceiling high hhigh
      simp [hlow, hhigh] at h
      omega
  | some low =>
    have hlowRange := hrange classification low hlow
    cases hhigh : rank ceiling with
    | none =>
      simp [hlow, hhigh] at h
      omega
    | some high => exact ⟨low, high, rfl, rfl, hlowRange.1, by simpa [hlow, hhigh] using h⟩

theorem manifestRank_of_rank {text : String} {value : Int} (h : rank text = some value) :
    manifestRank text = some value := by
  unfold rank at h
  split at h <;> cases h <;> rfl

theorem public_within {classification ceiling : String} (h : within classification ceiling = true) :
    within "PUBLIC" ceiling = true := by
  obtain ⟨low, high, -, hhigh, hlow, hle⟩ := within_ranks h
  unfold within
  rw [hhigh]
  exact decide_eq_true (le_trans hlow hle)

theorem higher_within {a b ceiling : String} (ha : within a ceiling = true) (hb : within b ceiling = true) :
    within (higher a b) ceiling = true := by
  unfold higher
  split
  · exact hb
  · exact ha

theorem Compiled.gates (h : Compiled digest r ctx) :
    r.currentUser.visible = true ∧ within r.currentUser.classification r.classificationCeiling = true := by
  have hall := firstFailure_ok.mp h.checks
  have hvisible := hall _ (List.mem_cons_of_mem _ List.mem_cons_self)
  rw [Bool.and_eq_true] at hvisible
  exact ⟨hvisible.1, hall _ (List.mem_cons_of_mem _ (List.mem_cons_of_mem _ List.mem_cons_self))⟩

theorem Request.complete_of_turns (r : Request) :
    ∀ turn ∈ r.turns, Complete r.currentUser.id r.classificationCeiling turn := fun _ hturn =>
  (mem_selectCompleteTurns (r.tail_suffix.subset (r.turns_suffix.subset hturn))).2.2

/-- What may stand in a context: one case for each kind of entry. -/
theorem Request.mem_entries {entry : Entry} (h : entry ∈ r.entries) :
    (entry = .truncationMarker r.omitted) ∨
      (∃ candidate, r.compaction = some candidate ∧ entry = .compaction candidate) ∨
      (∃ turn ∈ r.turns, entry = .threadTurn turn) ∨
      (∃ reference, within reference.classification r.classificationCeiling = true ∧
        entry = .reference reference) ∨
      entry = .currentUser r.currentUser := by
  unfold Request.entries at h
  simp only [List.mem_append, List.mem_map, List.mem_singleton, Option.mem_toList] at h
  rcases h with (hmarker | (⟨candidate, hcandidate, rfl⟩ | ⟨turn, hturn, rfl⟩) |
    ⟨reference, hreference, rfl⟩) | rfl
  · split at hmarker
    · cases hmarker
    · exact .inl (List.mem_singleton.mp hmarker)
  · exact .inr (.inl ⟨candidate, (Option.filter_eq_some_iff.mp hcandidate).1, rfl⟩)
  · exact .inr (.inr (.inl ⟨turn, hturn, rfl⟩))
  · exact .inr (.inr (.inr (.inl ⟨reference, (List.mem_filter.mp hreference).2, rfl⟩)))
  · exact .inr (.inr (.inr (.inr rfl)))

theorem Compiled.entries_within (h : Compiled digest r ctx) :
    ∀ entry ∈ r.entries, within entry.classification r.classificationCeiling = true := by
  intro entry hentry
  have hcurrent := h.gates.2
  rcases Request.mem_entries hentry with rfl | ⟨candidate, hcandidate, rfl⟩ | ⟨turn, hturn, rfl⟩ |
    ⟨reference, hreference, rfl⟩ | rfl
  · exact public_within hcurrent
  · exact (Request.compaction_some hcandidate).2.1
  · have complete := r.complete_of_turns turn hturn
    exact higher_within complete.classified.1 complete.classified.2
  · exact hreference
  · exact hcurrent

theorem Compiled.entries_visible (h : Compiled digest r ctx) : ∀ entry ∈ r.entries, entry.visible = true := by
  intro entry hentry
  rcases Request.mem_entries hentry with rfl | ⟨candidate, hcandidate, rfl⟩ | ⟨turn, hturn, rfl⟩ |
    ⟨reference, hreference, rfl⟩ | rfl
  · rfl
  · exact (Request.compaction_some hcandidate).1
  · have complete := r.complete_of_turns turn hturn
    exact Bool.and_eq_true_iff.mpr complete.visible
  · rfl
  · exact h.gates.1

theorem Request.entries_tokens (r : Request) :
    total Entry.tokens r.entries = r.keptTokens + bytes r.currentText := by
  have hmarker : total Entry.tokens (if r.omitted = 0 then []
      else [Entry.truncationMarker r.omitted]) = 0 := by
    split <;> rfl
  rw [Request.entries, Request.keptTokens, r.kept_eq, total_append, total_append, hmarker, Nat.zero_add]
  rfl

theorem Compiled.tokens_bounded (h : Compiled digest r ctx) :
    r.keptTokens + bytes r.currentText ≤ r.budget.dynamicCeiling := by
  have hkept : r.keptTokens ≤ r.room := total_newest
  have hfits := h.fits
  unfold Request.room at hkept
  omega

theorem ContextBudget.usable_eq (budget : ContextBudget) :
    (budget.usable : Int) = budget.modelInputLimit - budget.stablePrefixTokens -
      budget.reservedOutputTokens - budget.safetyMarginTokens := by
  have hroom := budget.room
  unfold ContextBudget.usable
  omega

theorem ContextBudget.usable_pos (budget : ContextBudget) : 0 < budget.usable := by
  have hroom := budget.room
  unfold ContextBudget.usable
  omega

theorem ContextBudget.ceiling_le (budget : ContextBudget) : budget.dynamicCeiling ≤ budget.usable :=
  Nat.min_le_right _ _

theorem later_instant {moment after : Datetime} {seconds : Nat} (h : later moment seconds = some after) :
    after.instant = moment.instant + seconds * 1000000 := by
  unfold later at h
  split at h
  · cases h
    simp only [Datetime.instant]
    omega
  · cases h

/-- The manifest of whatever is compiled passes these checks. -/
theorem Compiled.accepted (h : Compiled digest r ctx) :
    firstFailure (ctx.manifest r.classificationCeiling).checks = .ok () := by
  have hclassified : ∀ item ∈ ctx.items, within item.classification r.classificationCeiling = true := by
    rw [h.items]
    exact numberFrom_classified 1 h.entries_within
  obtain ⟨_, high, -, hhigh, -, -⟩ := within_ranks h.gates.2
  have husable : ctx.tokenBudget.usable = r.budget.usable := by
    rw [r.budget.usable_eq, h.budget]
    rfl
  rw [firstFailure_ok]
  unfold Manifest.checks CompiledContext.manifest
  simp only [List.forall_mem_cons, List.not_mem_nil, false_imp_iff, implies_true, and_true]
  refine ⟨?_, ?_, ?_, ?_, ?_, ?_, ?_⟩
  · rw [h.items, beq_iff_eq]
    exact numberFrom_sequence 1
  · rw [husable, h.budget]
    exact decide_eq_true ⟨Int.natCast_pos.mpr r.budget.usable_pos, Int.ofNat_le.mpr r.budget.ceiling_le⟩
  · rw [h.items, numberFrom_tokens, r.entries_tokens, h.budget, beq_iff_eq]
  · rw [h.budget]
    exact decide_eq_true h.tokens_bounded
  · have hlater := later_instant h.expiresAt
    have httl := r.budget.ttl.1
    rw [h.compiledAt, hlater]
    exact decide_eq_true (by omega)
  · rw [manifestRank_of_rank hhigh, Bool.and_eq_true, List.all_eq_true]
    refine ⟨rfl, fun item hitem => ?_⟩
    obtain ⟨low, _, hlow, -, -, -⟩ := within_ranks (hclassified item hitem)
    rw [manifestRank_of_rank hlow]
    rfl
  · rw [List.all_eq_true]
    intro item hitem
    obtain ⟨low, high', hlow, hhigh', -, hle⟩ := within_ranks (hclassified item hitem)
    rw [manifestRank_of_rank hlow, manifestRank_of_rank hhigh']
    exact decide_eq_true hle

theorem Compiled.parts_iff (h : Compiled digest r ctx) :
    (∀ entry ∈ ctx.selected, ∀ part ∈ entry.parts,
      within part.classification r.classificationCeiling = true ∧ part.visible = true) ↔ r.PartsWithin := by
  rw [h.selected]
  have hcurrent : Entry.currentUser r.currentUser ∈ r.entries := by simp [Request.entries]
  have hturns : ∀ turn ∈ r.turns, Entry.threadTurn turn ∈ r.entries := fun turn hturn => by
    simp only [Request.entries, List.mem_append, List.mem_map]
    exact .inl (.inr (.inl (.inr ⟨turn, hturn, rfl⟩)))
  constructor
  · exact fun hall => ⟨hall _ hcurrent, fun turn hturn part hpart => (hall _ (hturns turn hturn) part hpart).1⟩
  · rintro ⟨hmessage, hwithin⟩ entry hentry part hpart
    rcases Request.mem_entries hentry with rfl | ⟨candidate, -, rfl⟩ | ⟨turn, hturn, rfl⟩ |
      ⟨reference, -, rfl⟩ | rfl
    · cases hpart
    · cases hpart
    · refine ⟨hwithin turn hturn part hpart, (r.complete_of_turns turn hturn).parts part ?_⟩
      rcases List.mem_append.mp hpart with hquestion | hanswer
      · exact List.mem_append_left _ (List.mem_filter.mp hquestion).1
      · exact List.mem_append_right _ hanswer
    · cases hpart
    · exact hmessage part hpart

theorem Compiled.separate (h : Compiled digest r ctx) : ∀ candidate ∈ ctx.compactions, ∀ turn ∈ ctx.turns,
    ∀ id ∈ turn.ids, id ∉ candidate.sourceMessageIds := by
  rw [h.compactions, h.turns]
  intro candidate hcandidate turn hturn id hid hsource
  have hcompaction := (Option.filter_eq_some_iff.mp (Option.mem_toList.mp hcandidate)).1
  exact ((Request.compaction_some hcompaction).2.2 id hsource).2
    (Request.pinned_of_tail (r.turns_suffix.subset hturn) id hid)

/-- A context keeps to its order, its budget and its ceiling, and its manifest is accepted; it
is made from nothing that may not be seen exactly where that holds of the parts. -/
theorem compiled_sound_iff (h : compileContext digest r = .ok ctx) : Sound digest r ctx ↔ r.PartsWithin := by
  have compiled := compileContext_ok h
  refine ⟨fun sound => compiled.parts_iff.mp sound.parts, fun hparts => ?_⟩
  refine {
    made := by rw [compiled.items, compiled.selected]
    last := ?_
    numbered := ?_
    counted := ?_
    bounded := ?_
    classified := ?_
    visible := ?_
    parts := compiled.parts_iff.mpr hparts
    newest := ?_
    ordered := selectCompleteTurns_ordered _ _ _
    complete := ?_
    separate := compiled.separate
    accepted := compiled.accepted }
  · refine ⟨_, compiled.selected, fun message hmessage => ?_⟩
    simp only [List.mem_append, List.mem_map, reduceCtorEq, and_false, exists_false, or_false] at hmessage
    split at hmessage
    · cases hmessage
    · simp at hmessage
  · rw [compiled.items]
    exact numberFrom_sequence 1
  · rw [compiled.items, numberFrom_tokens, r.entries_tokens, compiled.budget]
  · rw [compiled.budget]
    exact ⟨compiled.tokens_bounded, r.budget.ceiling_le⟩
  · rw [compiled.items]
    exact numberFrom_classified 1 compiled.entries_within
  · rw [compiled.selected]
    exact compiled.entries_visible
  · rw [compiled.turns]
    exact r.turns_suffix.trans r.tail_suffix
  · rw [compiled.turns]
    exact r.complete_of_turns

/-- A message of the user with a part above the ceiling that the message itself keeps to. -/
def secretRequest : Request where
  currentUser := {
    sampleMessage "current" "USER" 9 none "And now?" with
    classification := "PUBLIC" }
  classificationCeiling := "PUBLIC"
  budget := {
    positive := defaultTokens_positive
    ttl := defaultTtl_bounded
    room := defaultTokens_room }
  now := ⟨0, some 0, Calendar.maxMicros_pos⟩

theorem one_answer_sound :
    ∃ ctx, compileContext (fun _ => "sha256:")
        (sampleRequest 100 [sampleMessage "a1" "LIAISON" 2 (some "u1") "Load."]) = .ok ctx ∧
      Sound (fun _ => "sha256:")
        (sampleRequest 100 [sampleMessage "a1" "LIAISON" 2 (some "u1") "Load."]) ctx :=
  ⟨_, rfl, (compiled_sound_iff rfl).mpr ⟨by decide, by decide⟩⟩

/-- Only the classification of the message is looked at, not that of its part. -/
theorem secret_part_unsound :
    ¬∀ (digest : Json → String) (r : Request) (ctx : CompiledContext),
      compileContext digest r = .ok ctx → Sound digest r ctx := by
  intro h
  obtain ⟨ctx, hctx⟩ : ∃ ctx, compileContext (fun _ => "sha256:") secretRequest = .ok ctx := ⟨_, rfl⟩
  have hparts := (compileContext_ok hctx).parts_iff.mp (h _ _ ctx hctx).parts
  exact absurd (hparts.1 (samplePart "And now?") List.mem_cons_self).1 (by decide)

end Solvan.Context
