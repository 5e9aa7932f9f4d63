import Mathlib.Data.List.Basic

/-! The words of a text, and the text of some words. -/
namespace Words

variable {α : Type u} {space : α → Bool} {sep : α} {w xs : List α} {ws : List (List α)}

/-- `split` at blanks -/
def words (space : α → Bool) (xs : List α) : List (List α) := (xs.splitOnP space).filter (!·.isEmpty)

/-- `join` with one separator -/
def unwords (sep : α) (ws : List (List α)) : List α := [sep].intercalate ws

/-- A word has characters, and none of them is blank. -/
def Word (space : α → Bool) (w : List α) : Prop := w ≠ [] ∧ ∀ c ∈ w, space c = false

theorem splitOnP_solid (h : w ∈ xs.splitOnP space) : ∀ c ∈ w, space c = false := by
  induction xs generalizing w with
  | nil =>
    rw [List.splitOnP_nil, List.mem_singleton] at h
    rw [h]
    exact fun c hc => nomatch hc
  | cons x xs ih =>
    rw [List.splitOnP_cons_eq_if_modifyHead] at h
    split at h
    · obtain rfl | h := List.mem_cons.mp h
      · exact fun c hc => nomatch hc
      · exact ih h
    · rename_i hx
      obtain ⟨first, rest, hsplit⟩ := List.exists_cons_of_ne_nil (List.splitOnP_ne_nil space xs)
      rw [hsplit, List.modifyHead_cons] at h
      obtain rfl | h := List.mem_cons.mp h
      · refine List.forall_mem_cons.mpr ⟨by simpa using hx, ih ?_⟩
        rw [hsplit]
        exact List.mem_cons_self
      · refine ih ?_
        rw [hsplit]
        exact List.mem_cons_of_mem _ h

theorem words_word (h : w ∈ words space xs) : Word space w := by
  obtain ⟨hmem, hne⟩ := List.mem_filter.mp h
  exact ⟨by simpa using hne, splitOnP_solid hmem⟩

/-- The words of a text of words are these. -/
theorem words_unwords (hsep : space sep = true) (h : ∀ w ∈ ws, Word space w) :
    words space (unwords sep ws) = ws := by
  induction ws with
  | nil => rfl
  | cons w ws ih =>
    obtain ⟨⟨hne, hsolid⟩, hrest⟩ := List.forall_mem_cons.mp h
    have hfull : (fun word : List α => !word.isEmpty) w = true := by simpa using hne
    cases ws with
    | nil =>
      rw [unwords, List.intercalate_singleton, words, List.splitOnP_eq_singleton hsolid, @List.filter_cons_of_pos _ (fun word => !word.isEmpty) w _ hfull,
        List.filter_nil]
    | cons v ws =>
      have hih := ih hrest
      rw [unwords] at hih ⊢
      rw [List.intercalate_cons_cons, List.append_assoc, List.singleton_append, words,
        List.splitOnP_append_cons_of_forall_mem hsolid sep hsep, @List.filter_cons_of_pos _ (fun word => !word.isEmpty) w _ hfull, ← words, hih]

theorem flatMap_unwords {β : Type v} {f : α → List β} {sep' : β} (hsep : f sep = [sep']) :
    (unwords sep ws).flatMap f = unwords sep' (ws.map (·.flatMap f)) := by
  induction ws with
  | nil => rfl
  | cons w ws ih =>
    cases ws with
    | nil => rw [unwords, List.intercalate_singleton, List.map_singleton, unwords, List.intercalate_singleton]
    | cons v ws =>
      rw [unwords] at ih ⊢
      rw [List.intercalate_cons_cons, List.flatMap_append, List.flatMap_append, ih, List.flatMap_singleton, hsep]
      exact List.intercalate_cons_cons.symm

theorem mem_unwords {c : α} (h : c ∈ unwords sep ws) : c = sep ∨ ∃ w ∈ ws, c ∈ w := by
  induction ws with
  | nil => cases h
  | cons w ws ih =>
    cases ws with
    | nil =>
      rw [unwords, List.intercalate_singleton] at h
      exact .inr ⟨w, List.mem_cons_self, h⟩
    | cons v ws =>
      rw [unwords, List.intercalate_cons_cons, List.mem_append, List.mem_append, List.mem_singleton] at h
      obtain (h | h) | h := h
      · exact .inr ⟨w, List.mem_cons_self, h⟩
      · exact .inl h
      · exact (ih h).imp_right (fun ⟨u, hu, hc⟩ => ⟨u, List.mem_cons_of_mem _ hu, hc⟩)

end Words
