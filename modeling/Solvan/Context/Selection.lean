import Solvan.Context.Compiler

/-! What goes into the context of a turn, told from the request alone. -/
namespace Solvan.Context

open Checks Newest

variable {digest : Json → String} {r : Request} {ctx : CompiledContext} {turn : Turn}
  {candidate : CompactionCandidate}

/-- What the current message leaves of the ceiling. -/
def Request.room (r : Request) : Nat := r.budget.dynamicCeiling - bytes r.currentText

/-- The newest turns that there is room for. -/
def Request.turns (r : Request) : List Turn := newest Turn.tokens r.room r.tail

/-- The compaction, where there is room for it and for every turn that is kept. -/
def Request.emitted (r : Request) : Option CompactionCandidate :=
  r.compaction.filter (fun item => decide (item.tokenCount + total Turn.tokens r.tail ≤ r.room))

theorem Request.tail_eq (r : Request) : r.tail = newest Turn.tokens r.budget.preserveRecentTokens r.pairs := by
  have h : r.tail = newest Turn.tokens r.budget.preserveRecentTokens (r.pairs ++ []) :=
    pin_eq (Nat.zero_le r.budget.preserveRecentTokens)
  rw [List.append_nil] at h
  exact h

theorem Request.tail_suffix (r : Request) : r.tail <:+ r.pairs := by
  rw [r.tail_eq]
  exact newest_suffix

theorem Request.turns_suffix (r : Request) : r.turns <:+ r.tail := newest_suffix

theorem Request.pinned_of_tail (h : turn ∈ r.tail) : ∀ id ∈ turn.ids, id ∈ r.pinnedIds :=
  fun _ hid => List.mem_flatMap.mpr ⟨turn, h, hid⟩

/-- A compaction stands for messages of complete turns that are not kept themselves. -/
theorem Request.compaction_some (h : r.compaction = some candidate) :
    candidate.visible = true ∧ within candidate.classification r.classificationCeiling = true ∧
      ∀ id ∈ candidate.sourceMessageIds, id ∈ r.eligibleIds ∧ id ∉ r.pinnedIds := by
  obtain ⟨hvisible, hsources, hclass⟩ := selectCompaction_some h
  refine ⟨hvisible, hclass, fun id hid => ?_⟩
  have hfree := List.mem_filter.mp (hsources id hid)
  exact ⟨hfree.1, by simpa using hfree.2⟩

theorem Request.compactedIds_free (r : Request) : ∀ id ∈ r.compactedIds, id ∉ r.pinnedIds := by
  intro id hid
  unfold Request.compactedIds at hid
  cases hcompaction : r.compaction with
  | none =>
    rw [hcompaction] at hid
    cases hid
  | some candidate =>
    rw [hcompaction] at hid
    exact ((Request.compaction_some hcompaction).2.2 id hid).2

/-- Neither of the two checks against an overlap ever takes anything out. -/
theorem Request.items_eq (r : Request) :
    r.items = r.compaction.toList.map Entry.compaction ++ r.tail.map Entry.threadTurn ++
      r.selectedReferences.map Entry.reference := by
  have hcompaction : r.compaction.filter (fun item => !item.sourceMessageIds.any r.pinnedIds.contains) =
      r.compaction := by
    cases h : r.compaction with
    | none => rfl
    | some candidate =>
      have hfree : candidate.sourceMessageIds.any r.pinnedIds.contains = false := by
        rw [List.any_eq_false]
        intro id hid
        simpa using ((Request.compaction_some h).2.2 id hid).2
      rw [Option.filter_some, hfree]
      rfl
  have htail : r.tail.filter (fun turn => !turn.ids.any r.compactedIds.contains) = r.tail := by
    refine List.filter_eq_self.mpr (fun turn hturn => ?_)
    rw [Bool.not_eq_true', List.any_eq_false]
    intro id hid hcompacted
    exact r.compactedIds_free id (by simpa using hcompacted) (Request.pinned_of_tail hturn id hid)
  rw [Request.items, hcompaction, htail]

/-- What is left when the oldest items have been taken away. -/
theorem Request.kept_eq (r : Request) :
    newest Entry.tokens r.room r.items = r.emitted.toList.map Entry.compaction ++
      r.turns.map Entry.threadTurn ++ r.selectedReferences.map Entry.reference := by
  have hreferences : ∀ entry ∈ r.selectedReferences.map Entry.reference, entry.tokens = 0 := by
    intro entry hentry
    obtain ⟨reference, -, rfl⟩ := List.mem_map.mp hentry
    rfl
  have hturns : newest Entry.tokens r.room (r.tail.map Entry.threadTurn) = r.turns.map Entry.threadTurn :=
    newest_map
  have htotal : total Entry.tokens (r.tail.map Entry.threadTurn) = total Turn.tokens r.tail := by
    simp [total, Function.comp_def, Entry.tokens]
  rw [r.items_eq, newest_weightless hreferences]
  congr 1
  unfold Request.emitted
  cases hcompaction : r.compaction with
  | none => simpa using hturns
  | some candidate =>
    have htokens : (Entry.compaction candidate).tokens = candidate.tokenCount := rfl
    rw [Option.toList_some, List.map_singleton, List.singleton_append, newest, total_cons, htotal,
      htokens, Option.filter_some]
    by_cases hfits : candidate.tokenCount + total Turn.tokens r.tail ≤ r.room
    · rw [if_pos hfits, if_pos (decide_eq_true hfits), Option.toList_some, List.map_singleton,
        List.singleton_append]
      have hall : r.turns = r.tail := newest_of_fits (by omega)
      rw [hall]
    · rw [if_neg hfits, if_neg (by simpa using hfits), hturns]
      rfl

/-- What the items come to that are left. -/
def Request.keptTokens (r : Request) : Nat := total Entry.tokens (newest Entry.tokens r.room r.items)

/-- What was left out: turns that were passed over, and items that were taken away. -/
def Request.omitted (r : Request) : Nat :=
  r.omittedBefore + ((r.compaction.toList.length - r.emitted.toList.length) +
    (r.tail.length - r.turns.length))

theorem Request.evicted_count (r : Request) :
    r.items.length - (newest Entry.tokens r.room r.items).length =
      (r.compaction.toList.length - r.emitted.toList.length) + (r.tail.length - r.turns.length) := by
  have hemitted : r.emitted.toList.length ≤ r.compaction.toList.length := by
    unfold Request.emitted
    cases r.compaction with
    | none => exact Nat.zero_le _
    | some candidate =>
      rw [Option.filter_some]
      split <;> simp
  have hturns := r.turns_suffix.length_le
  rw [r.kept_eq, r.items_eq]
  simp only [List.length_append, List.length_map]
  omega

/-- The entries that are handed on. -/
def Request.entries (r : Request) : List Entry :=
  (if r.omitted = 0 then [] else [.truncationMarker r.omitted]) ++
    (r.emitted.toList.map Entry.compaction ++ r.turns.map Entry.threadTurn ++
      r.selectedReferences.map Entry.reference) ++ [.currentUser r.currentUser]

/-- What a context is, where one is compiled. -/
structure Compiled (digest : Json → String) (r : Request) (ctx : CompiledContext) : Prop where
  checks : firstFailure r.checks = .ok ()
  fits : bytes r.currentText ≤ r.budget.dynamicCeiling
  aware : r.now.aware = true
  selected : ctx.selected = r.entries
  items : ctx.items = numberFrom digest 1 r.entries
  omitted : ctx.omittedCounts.budget = r.omitted
  budget : ctx.tokenBudget = {
    modelInputLimit := r.budget.modelInputLimit
    stablePrefixTokens := r.budget.stablePrefixTokens
    reservedOutputTokens := r.budget.reservedOutputTokens
    safetyMarginTokens := r.budget.safetyMarginTokens
    dynamicContextCeiling := r.budget.dynamicCeiling
    actualContextTokens := r.keptTokens + bytes r.currentText }
  compiledAt : ctx.compiledAt = r.now
  expiresAt : later r.now r.budget.ttlSeconds = some ctx.expiresAt

theorem Request.evicted_kept (hfits : bytes r.currentText ≤ r.budget.dynamicCeiling) :
    r.evicted = (newest Entry.tokens r.room r.items, r.keptTokens + bytes r.currentText) :=
  evict_eq hfits

theorem compileContext_ok (h : compileContext digest r = .ok ctx) : Compiled digest r ctx := by
  unfold compileContext at h
  split at h
  · cases h
  · rename_i hchecks
    split at h
    · cases h
    · split at h
      · cases h
      · rename_i hcurrent
        have hfits : bytes r.currentText ≤ r.budget.dynamicCeiling := Nat.le_of_not_lt hcurrent
        split at h
        · cases h
        · rw [Request.evicted_kept hfits] at h
          unfold assemble at h
          simp only [r.evicted_count] at h
          rw [r.kept_eq] at h
          split at h
          · cases h
          · rename_i haware
            cases hlater : later r.now r.budget.ttlSeconds with
            | none =>
              rw [hlater] at h
              cases h
            | some expiresAt =>
              rw [hlater] at h
              cases h
              exact ⟨hchecks, hfits, by simpa using haware, rfl, rfl, rfl, rfl, rfl, hlater⟩

end Solvan.Context
