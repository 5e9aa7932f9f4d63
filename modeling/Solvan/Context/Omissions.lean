import Mathlib.Data.Multiset.AddSub
import Mathlib.Data.Multiset.Count
import Solvan.Context.Selection

/-! Whether a context says how many turns it leaves out. -/
namespace Solvan.Context

open Checks Newest

variable {digest : Json → String} {r : Request} {ctx : CompiledContext} {turn : Turn}
  {candidate : CompactionCandidate}

def Entry.turn? : Entry → Option Turn
  | .threadTurn turn => some turn
  | _ => none

def Entry.compaction? : Entry → Option CompactionCandidate
  | .compaction candidate => some candidate
  | _ => none

/-- The turns that stand in the context, each as an item of its own. -/
def CompiledContext.turns (ctx : CompiledContext) : List Turn := ctx.selected.filterMap Entry.turn?

/-- The compaction that stands in the context. -/
def CompiledContext.compactions (ctx : CompiledContext) : List CompactionCandidate :=
  ctx.selected.filterMap Entry.compaction?

/-- Both messages of a turn are among those a compaction stands for. -/
def CompactionCandidate.covers (candidate : CompactionCandidate) (turn : Turn) : Bool :=
  turn.ids.all candidate.sourceMessageIds.contains

def CompiledContext.covers (ctx : CompiledContext) (turn : Turn) : Bool :=
  ctx.compactions.any (fun candidate => candidate.covers turn)

/-- How many of the eligible turns the context neither has nor covers. -/
def missing (r : Request) (ctx : CompiledContext) : Nat :=
  ((r.pairs : Multiset Turn) - (ctx.turns : Multiset Turn)).countP (fun turn => ctx.covers turn = false)

/-- No eligible turn is left out in silence. -/
structure Accounted (r : Request) (ctx : CompiledContext) : Prop where
  every : ∀ turn ∈ r.pairs, turn ∈ ctx.turns ∨ ctx.covers turn = true ∨ 0 < ctx.omittedCounts.budget
  count : ctx.omittedCounts.budget = missing r ctx
  marker : (∃ item ∈ ctx.items, item.kind = .truncationMarker) ↔ 0 < missing r ctx

/-- The eligible turns that are too old to be kept. -/
def Request.older (r : Request) : List Turn := r.pairs.take (r.pairs.length - r.tail.length)

/-- A turn shares a message with the turns that are kept or with the compaction. -/
def Request.touched (r : Request) (turn : Turn) : Bool :=
  turn.ids.any r.pinnedIds.contains || turn.ids.any r.compactedIds.contains

/-- Where the count is right. The turns that share a message with something are not counted:
they have to be covered by the compaction; and where there is no room for the compaction, which
counts as one, there has to be exactly one of them. -/
def Request.AccountsFor (r : Request) : Prop :=
  match r.compaction with
  | none => ∀ turn ∈ r.older, r.touched turn = false
  | some candidate =>
    if candidate.tokenCount + total Turn.tokens r.tail ≤ r.room then
      ∀ turn ∈ r.older, r.touched turn = true → candidate.covers turn = true
    else r.older.countP (fun turn => r.touched turn) = 1

theorem Request.pairs_eq (r : Request) : r.pairs = r.older ++ r.tail := by
  obtain ⟨front, hfront⟩ := r.tail_suffix
  unfold Request.older
  rw [← hfront]
  simp

theorem Compiled.turns (h : Compiled digest r ctx) : ctx.turns = r.turns := by
  have hmarker : (if r.omitted = 0 then ([] : List Entry)
      else [.truncationMarker r.omitted]).filterMap Entry.turn? = [] := by
    split <;> rfl
  unfold CompiledContext.turns
  rw [h.selected, Request.entries]
  simp only [List.filterMap_append, hmarker, List.filterMap_map]
  simp [Function.comp_def, Entry.turn?]

theorem Compiled.compactions (h : Compiled digest r ctx) : ctx.compactions = r.emitted.toList := by
  have hmarker : (if r.omitted = 0 then ([] : List Entry)
      else [.truncationMarker r.omitted]).filterMap Entry.compaction? = [] := by
    split <;> rfl
  unfold CompiledContext.compactions
  rw [h.selected, Request.entries]
  simp only [List.filterMap_append, hmarker, List.filterMap_map]
  simp [Function.comp_def, Entry.compaction?]

theorem Compiled.covers (h : Compiled digest r ctx) :
    ctx.covers turn = r.emitted.any (fun candidate => candidate.covers turn) := by
  unfold CompiledContext.covers
  rw [h.compactions]
  cases r.emitted <;> simp

/-- What a compaction covers it shares a message with. -/
theorem Request.touched_of_covers (hcompaction : r.compaction = some candidate)
    (h : candidate.covers turn = true) : r.touched turn = true := by
  have hid := List.all_eq_true.mp h turn.1.id List.mem_cons_self
  have hcompacted : r.compactedIds = candidate.sourceMessageIds := by
    rw [Request.compactedIds, hcompaction]
    rfl
  unfold Request.touched
  rw [Bool.or_eq_true]
  exact .inr (List.any_eq_true.mpr ⟨turn.1.id, List.mem_cons_self, by rw [hcompacted]; exact hid⟩)

theorem Request.touched_of_tail (h : turn ∈ r.tail) : r.touched turn = true := by
  unfold Request.touched
  rw [Bool.or_eq_true]
  exact .inl (List.any_eq_true.mpr ⟨turn.1.id, List.mem_cons_self,
    by simpa using Request.pinned_of_tail h turn.1.id List.mem_cons_self⟩)

/-- A turn that is kept is not compacted as well. -/
theorem Request.uncovered_of_tail (h : turn ∈ r.tail) :
    r.emitted.any (fun candidate => candidate.covers turn) = false := by
  rw [Option.any_eq_false_iff_get]
  intro hsome
  have hemitted := Option.eq_some_of_isSome hsome
  generalize r.emitted.get hsome = candidate at hemitted
  have hcompaction := (Option.filter_eq_some_iff.mp hemitted).1
  rw [Bool.eq_false_iff]
  intro hcovers
  have hid := List.all_eq_true.mp hcovers turn.1.id List.mem_cons_self
  exact ((Request.compaction_some hcompaction).2.2 turn.1.id (by simpa using hid)).2
    (Request.pinned_of_tail h turn.1.id List.mem_cons_self)

/-- What is passed over at first: the older turns that share no message with anything. -/
theorem Request.omittedBefore_eq (r : Request) :
    r.omittedBefore = r.older.countP (fun turn => !r.touched turn) := by
  have hpredicate : (fun turn : Turn => !turn.ids.any r.pinnedIds.contains &&
      !turn.ids.any r.compactedIds.contains) = fun turn => !r.touched turn := by
    funext turn
    rw [Request.touched, Bool.not_or]
  have htail : r.tail.countP (fun turn => !r.touched turn) = 0 := by
    rw [List.countP_eq_zero]
    intro turn hturn
    rw [Request.touched_of_tail hturn]
    decide
  rw [Request.omittedBefore, hpredicate, r.pairs_eq, List.countP_append, htail, Nat.add_zero]

theorem Compiled.missing (h : Compiled digest r ctx) :
    missing r ctx =
      r.older.countP (fun turn => !r.emitted.any (fun candidate => candidate.covers turn)) +
        (r.tail.length - r.turns.length) := by
  obtain ⟨dropped, hdropped⟩ := r.turns_suffix
  have hrest : (r.pairs : Multiset Turn) - (ctx.turns : Multiset Turn) = ((r.older ++ dropped : List Turn) : Multiset Turn) := by
    rw [h.turns, r.pairs_eq, ← hdropped, ← List.append_assoc, ← Multiset.coe_add]
    exact Multiset.add_sub_cancel_right
  have hcount : dropped.countP (fun turn => !r.emitted.any (fun candidate => candidate.covers turn)) =
      dropped.length := by
    rw [List.countP_eq_length]
    intro turn hturn
    rw [Request.uncovered_of_tail (hdropped ▸ List.mem_append_left _ hturn)]
    rfl
  have hlength : r.tail.length - r.turns.length = dropped.length := by
    rw [← hdropped, List.length_append]
    omega
  unfold Context.missing
  rw [hrest, Multiset.coe_countP, hlength, ← hcount, ← List.countP_append]
  refine List.countP_congr (fun turn _ => ?_)
  rw [h.covers]
  simp

/-- Two counts, one of which counts no more than the other. -/
theorem countP_eq_iff {α : Type} {p q : α → Bool} {items : List α}
    (h : ∀ a ∈ items, q a = true → p a = true) :
    items.countP q = items.countP p ↔ ∀ a ∈ items, p a = true → q a = true := by
  induction items with
  | nil => simp
  | cons a rest ih =>
    have ih := ih (fun b hb => h b (List.mem_cons_of_mem _ hb))
    have hle : rest.countP q ≤ rest.countP p :=
      List.countP_mono_left (fun b hb => h b (List.mem_cons_of_mem _ hb))
    have ha := h a List.mem_cons_self
    rw [List.forall_mem_cons, List.countP_cons, List.countP_cons, ← ih]
    cases hp : p a <;> cases hq : q a <;> simp_all
    omega

theorem Request.accountsFor_iff (r : Request) :
    r.AccountsFor ↔ r.older.countP (fun turn => !r.touched turn) +
        (r.compaction.toList.length - r.emitted.toList.length) =
      r.older.countP (fun turn => !r.emitted.any (fun candidate => candidate.covers turn)) := by
  unfold Request.AccountsFor
  cases hcompaction : r.compaction with
  | none =>
    have hemitted : r.emitted = none := by rw [Request.emitted, hcompaction]; rfl
    simp [hemitted, List.countP_eq_length]
  | some candidate =>
    by_cases hfits : candidate.tokenCount + total Turn.tokens r.tail ≤ r.room
    · have hemitted : r.emitted = some candidate := by
        rw [Request.emitted, hcompaction, Option.filter_some, if_pos (by simpa using hfits)]
      have hsubset : ∀ turn ∈ r.older, (!r.touched turn) = true → (!candidate.covers turn) = true := by
        intro turn _ huntouched
        rw [Bool.not_eq_true'] at huntouched ⊢
        rw [Bool.eq_false_iff] at huntouched ⊢
        exact fun hcovers => huntouched (Request.touched_of_covers hcompaction hcovers)
      simp only [hfits, if_true, hemitted, Option.toList_some, Nat.sub_self, Nat.add_zero, Option.any_some]
      rw [countP_eq_iff hsubset]
      refine forall₂_congr (fun turn _ => ?_)
      cases r.touched turn <;> cases candidate.covers turn <;> decide
    · have hemitted : r.emitted = none := by
        rw [Request.emitted, hcompaction, Option.filter_some, if_neg (by simpa using hfits)]
      have hsplit := List.length_eq_countP_add_countP (fun turn => r.touched turn) (l := r.older)
      have hall : r.older.countP (fun _ => !false) = r.older.length := by simp
      simp only [hfits, if_false, hemitted, Option.toList_some, Option.toList_none, List.length_singleton,
        List.length_nil, Nat.sub_zero, Option.any_none, hall, hsplit]
      have hnot : r.older.countP (fun turn => decide ¬r.touched turn = true) =
          r.older.countP (fun turn => !r.touched turn) := by
        refine List.countP_congr (fun turn _ => ?_)
        simp
      rw [hnot]
      omega

/-- A marker stands in the context where something is counted as left out. -/
theorem Compiled.marker (h : Compiled digest r ctx) :
    (∃ item ∈ ctx.items, item.kind = .truncationMarker) ↔ 0 < r.omitted := by
  have hkinds : ∀ (entries : List Entry) (n : Nat),
      (∃ item ∈ numberFrom digest n entries, item.kind = .truncationMarker) ↔
        ∃ omitted, Entry.truncationMarker omitted ∈ entries := by
    intro entries
    induction entries with
    | nil => simp [numberFrom]
    | cons entry rest ih =>
      intro n
      simp only [numberFrom, List.mem_cons, exists_eq_or_imp, ih, exists_or]
      refine or_congr_left ?_
      cases entry with
      | reference candidate =>
        simp only [Entry.item, reduceCtorEq, exists_false, iff_false]
        split <;> decide
      | _ => simp [Entry.item]
  rw [h.items, hkinds, Request.entries]
  by_cases homitted : r.omitted = 0
  · simp [homitted]
  · simp [homitted, Nat.pos_of_ne_zero]

theorem Compiled.count_iff (h : Compiled digest r ctx) :
    ctx.omittedCounts.budget = Context.missing r ctx ↔ r.AccountsFor := by
  have hmissing := h.missing
  rw [r.accountsFor_iff, h.omitted, Request.omitted, r.omittedBefore_eq, hmissing]
  omega

/-- The count of what is left out is right exactly where no older turn slips through: one that
shares a message with what is kept or compacted has to be covered by the compaction. -/
theorem omissions_accounted_iff (h : compileContext digest r = .ok ctx) :
    Accounted r ctx ↔ r.AccountsFor := by
  have compiled := compileContext_ok h
  refine ⟨fun accounted => compiled.count_iff.mp accounted.count, fun accounts => ?_⟩
  have hbudget := compiled.count_iff.mpr accounts
  refine ⟨fun turn hturn => ?_, hbudget, ?_⟩
  · by_contra hleft
    push Not at hleft
    obtain ⟨hshown, hcovered, hzero⟩ := hleft
    have hnone : missing r ctx = 0 := by omega
    unfold missing at hnone
    rw [Multiset.countP_eq_zero] at hnone
    have hmem : turn ∈ (r.pairs : Multiset Turn) - (ctx.turns : Multiset Turn) := by
      rw [Multiset.mem_sub, Multiset.count_eq_zero.mpr (by simpa using hshown)]
      exact Multiset.count_pos.mpr (by simpa using hturn)
    exact hnone turn hmem (by simpa using hcovered)
  · rw [compiled.marker, ← compiled.omitted, hbudget]

def sampleFields (text : String) : PartFields where
  id := "part"
  kind := "text"
  digest := "sha256:0000000000000000000000000000000000000000000000000000000000000000"
  classification := "INTERNAL"
  accessVerdictRef := some "access"
  text := text

def samplePart (text : String) : TranscriptPart where
  toPartFields := sampleFields text
  valid := by
    -- The checks do not look at the text.
    show firstFailure (sampleFields "").checks = .ok ()
    decide

def sampleMessage (id role : String) (position : Int) (inReplyTo : Option String) (text : String) :
    TranscriptMessage where
  id := id
  role := role
  turnState := "COMPLETED"
  streamPosition := position
  classification := "INTERNAL"
  parts := [samplePart text]
  inReplyToMessageId := inReplyTo

/-- A question with answers that are asked for once more, with so much to keep. -/
def sampleRequest (preserve : Nat) (answers : List TranscriptMessage) : Request where
  currentUser := sampleMessage "current" "USER" 9 none "And now?"
  history := sampleMessage "u1" "USER" 1 none "Why?" :: answers
  classificationCeiling := "INTERNAL"
  budget := {
    preserveRecentTokens := preserve
    positive := defaultTokens_positive
    ttl := defaultTtl_bounded
    room := defaultTokens_room }
  now := ⟨0, some 0, Calendar.maxMicros_pos⟩

theorem one_answer_accounted :
    ∃ ctx, compileContext (fun _ => "sha256:")
        (sampleRequest 100 [sampleMessage "a1" "LIAISON" 2 (some "u1") "Load."]) = .ok ctx ∧
      Accounted (sampleRequest 100 [sampleMessage "a1" "LIAISON" 2 (some "u1") "Load."]) ctx := by
  refine ⟨_, rfl, (omissions_accounted_iff rfl).mpr ?_⟩
  show ∀ turn ∈ ([] : List Turn), _
  exact fun turn hturn => (nomatch hturn)

/-- Of two answers to one question the older is left out, and nothing says so. -/
theorem second_answer_unaccounted :
    ¬∀ (digest : Json → String) (r : Request) (ctx : CompiledContext),
      compileContext digest r = .ok ctx → Accounted r ctx := by
  intro h
  obtain ⟨ctx, hctx⟩ : ∃ ctx, compileContext (fun _ => "sha256:") (sampleRequest 12
      [sampleMessage "a1" "LIAISON" 2 (some "u1") "Load was high.",
        sampleMessage "a2" "LIAISON" 3 (some "u1") "Load."]) = .ok ctx := ⟨_, rfl⟩
  have accounts : ∀ turn ∈ _, _ := (compileContext_ok hctx).count_iff.mp (h _ _ ctx hctx).count
  exact absurd (accounts (sampleMessage "u1" "USER" 1 none "Why?",
    sampleMessage "a1" "LIAISON" 2 (some "u1") "Load was high.") List.mem_cons_self) (by decide)

end Solvan.Context
