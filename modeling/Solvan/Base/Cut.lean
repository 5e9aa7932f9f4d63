import Mathlib.Data.List.Infix
import Mathlib.Data.List.Count

/-! A list cut in two where a separator is first found. -/
namespace Cut

variable {α : Type u} [DecidableEq α] {sep list before after : List α}

/-- What comes before the separator, and what comes after it. -/
def cut (sep : List α) : List α → Option (List α × List α)
  | [] => if sep = [] then some ([], []) else none
  | a :: rest =>
    if sep.isPrefixOf (a :: rest) then some ([], (a :: rest).drop sep.length)
    else (cut sep rest).map (fun parts => (a :: parts.1, parts.2))

theorem cut_some (h : cut sep list = some (before, after)) : list = before ++ sep ++ after := by
  induction list generalizing before with
  | nil =>
    unfold cut at h
    split at h
    · rename_i hsep
      obtain ⟨rfl, rfl⟩ := Prod.mk.inj (Option.some.inj h)
      simp [hsep]
    · cases h
  | cons a rest ih =>
    unfold cut at h
    split at h
    · rename_i hprefix
      obtain ⟨rfl, rfl⟩ := Prod.mk.inj (Option.some.inj h)
      obtain ⟨back, hback⟩ := List.isPrefixOf_iff_prefix.mp hprefix
      rw [← hback, List.drop_left, List.nil_append]
    · obtain ⟨⟨front, back⟩, hfound, hparts⟩ := Option.map_eq_some_iff.mp h
      obtain ⟨rfl, rfl⟩ := Prod.mk.inj hparts
      rw [ih hfound]
      simp

/-- The separator is found where it stands if it begins nowhere before. -/
theorem cut_first (hsep : sep ≠ [])
    (h : ∀ front back, before = front ++ back → back ≠ [] → ¬sep <+: back ++ sep ++ after) :
    cut sep (before ++ sep ++ after) = some (before, after) := by
  induction before with
  | nil =>
    obtain ⟨a, rest, rfl⟩ := List.exists_cons_of_ne_nil hsep
    have hprefix : (a :: rest).isPrefixOf (a :: (rest ++ after)) = true :=
      List.isPrefixOf_iff_prefix.mpr (List.prefix_append (a :: rest) after)
    rw [List.nil_append, List.cons_append, cut, if_pos hprefix, ← List.cons_append, List.drop_left]
  | cons a before ih =>
    have hnot : ¬sep.isPrefixOf (a :: (before ++ sep ++ after)) = true := by
      rw [List.isPrefixOf_iff_prefix]
      exact h [] (a :: before) rfl (List.cons_ne_nil _ _)
    have hrest := ih (fun front back hsplit hback => h (a :: front) back (by rw [hsplit]; rfl) hback)
    rw [List.cons_append, List.cons_append, cut, if_neg hnot, hrest]
    rfl

/-- Two lists cut at one of as many separators are cut alike. -/
theorem cut_unique {s : α} {front back front' back' : List α} (heq : front ++ s :: back = front' ++ s :: back')
    (hcount : front.count s = front'.count s) : front = front' ∧ back = back' := by
  induction front generalizing front' with
  | nil =>
    cases front' with
    | nil => exact ⟨rfl, (List.cons.inj heq).2⟩
    | cons a front' =>
      obtain ⟨rfl, -⟩ := List.cons.inj heq
      simp at hcount
  | cons a front ih =>
    cases front' with
    | nil =>
      obtain ⟨rfl, -⟩ := List.cons.inj heq
      simp at hcount
    | cons a' front' =>
      obtain ⟨rfl, hrest⟩ := List.cons.inj heq
      obtain ⟨rfl, rfl⟩ := ih hrest (by
        rw [List.count_cons, List.count_cons] at hcount
        omega)
      exact ⟨rfl, rfl⟩

/-- A list without a separator, or cut at the first. -/
theorem span_cases (s : α) (list : List α) : (s ∉ list ∧ ∃ front, list.span (· != s) = (front, [])) ∨
    ∃ front back, list = front ++ s :: back ∧ s ∉ front ∧ list.span (· != s) = (front, s :: back) := by
  rw [List.span_eq_takeWhile_dropWhile]
  have hfront : s ∉ list.takeWhile (· != s) := fun hmem =>
    bne_iff_ne.mp (List.all_eq_true.mp (@List.all_takeWhile _ (· != s) list) s hmem) rfl
  have hsplit : list.takeWhile (· != s) ++ list.dropWhile (· != s) = list := List.takeWhile_append_dropWhile
  cases hrest : list.dropWhile (· != s) with
  | nil =>
    rw [hrest, List.append_nil] at hsplit
    exact .inl ⟨hsplit ▸ hfront, _, rfl⟩
  | cons c back =>
    have hstop := List.head?_dropWhile_not (· != s) list
    rw [hrest, List.head?_cons] at hstop
    obtain rfl : c = s := by simpa using hstop
    exact .inr ⟨_, back, by rw [← hrest, hsplit], hfront, rfl⟩

end Cut
