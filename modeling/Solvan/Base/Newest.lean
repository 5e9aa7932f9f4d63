import Mathlib.Algebra.BigOperators.Group.List.Basic
import Mathlib.Algebra.Order.Ring.Int
import Mathlib.Data.List.Infix

/-! The newest part of a sequence that keeps within a limit. -/
namespace Newest

variable {α : Type u} {β : Type v} {weight : α → Nat} {limit extra : Nat} {items front back : List α}

def total (weight : α → Nat) (items : List α) : Nat := (items.map weight).sum

/-- The longest end of a sequence that keeps within the limit. -/
def newest (weight : α → Nat) (limit : Nat) : List α → List α
  | [] => []
  | a :: rest => if total weight (a :: rest) ≤ limit then a :: rest else newest weight limit rest

@[simp] theorem total_nil : total weight [] = 0 := rfl

@[simp] theorem total_cons (a : α) : total weight (a :: items) = weight a + total weight items := by
  simp [total]

@[simp] theorem total_append : total weight (front ++ back) = total weight front + total weight back := by
  simp [total]

theorem total_zero (h : ∀ a ∈ items, weight a = 0) : total weight items = 0 := by
  induction items with
  | nil => rfl
  | cons a rest ih =>
    rw [total_cons, h a List.mem_cons_self, ih (fun b hb => h b (List.mem_cons_of_mem _ hb))]

theorem newest_suffix : newest weight limit items <:+ items := by
  induction items with
  | nil => exact List.suffix_rfl
  | cons a rest ih =>
    unfold newest
    split
    · exact List.suffix_rfl
    · exact ih.trans (List.suffix_cons a rest)

theorem total_newest : total weight (newest weight limit items) ≤ limit := by
  induction items with
  | nil => exact Nat.zero_le _
  | cons a rest ih =>
    unfold newest
    split
    · assumption
    · exact ih

theorem newest_of_fits (h : total weight items ≤ limit) : newest weight limit items = items := by
  cases items with
  | nil => rfl
  | cons a rest => exact if_pos h

/-- What the limit leaves out goes with everything before it. -/
theorem newest_append (h : limit < total weight back) :
    newest weight limit (front ++ back) = newest weight limit back := by
  induction front with
  | nil => rfl
  | cons a rest ih =>
    rw [List.cons_append, newest, if_neg (by rw [total_cons, total_append]; omega), ih]

/-- What weighs nothing at the end is kept. -/
theorem newest_weightless (h : ∀ a ∈ back, weight a = 0) :
    newest weight limit (front ++ back) = newest weight limit front ++ back := by
  induction front with
  | nil => exact newest_of_fits (by rw [List.nil_append, total_zero h]; exact Nat.zero_le _)
  | cons a rest ih =>
    have htotal : total weight (a :: (rest ++ back)) = total weight (a :: rest) := by
      rw [total_cons, total_append, total_zero h, total_cons, Nat.add_zero]
    rw [List.cons_append, newest, newest, htotal, ih]
    split <;> rfl

theorem newest_map {f : β → α} {items : List β} :
    newest weight limit (items.map f) = (newest (fun b => weight (f b)) limit items).map f := by
  induction items with
  | nil => rfl
  | cons b rest ih =>
    have htotal : total weight (f b :: rest.map f) = total (fun b => weight (f b)) (b :: rest) := by
      simp [total, Function.comp_def]
    rw [List.map_cons, newest, newest, htotal, ih]
    split <;> rfl

/-- The same from the other end: newest first, until one more is too much. -/
def pin (weight : α → Nat) (limit : Nat) : List α → List α → List α
  | [], tail => tail
  | a :: older, tail =>
    if total weight tail + weight a ≤ limit then pin weight limit older (a :: tail) else tail

theorem pin_eq (h : total weight back ≤ limit) :
    pin weight limit front.reverse back = newest weight limit (front ++ back) := by
  induction front using List.reverseRecOn generalizing back with
  | nil => exact (newest_of_fits h).symm
  | append_singleton front a ih =>
    rw [List.reverse_append, List.reverse_singleton, List.singleton_append, pin, List.append_assoc,
      List.singleton_append]
    split
    · rename_i hfits
      exact ih (by rw [total_cons]; omega)
    · rename_i hover
      have hcons : limit < total weight (a :: back) := by rw [total_cons]; omega
      rw [newest_append hcons, newest, if_neg (by omega), newest_of_fits h]

/-- The same by taking away the oldest, as long as all is too much. -/
def evict (weight : α → Nat) (limit : Nat) : List α → Nat → List α × Nat
  | [], tokens => ([], tokens)
  | a :: rest, tokens =>
    if limit < tokens then evict weight limit rest (tokens - weight a) else (a :: rest, tokens)

theorem evict_eq (h : extra ≤ limit) :
    evict weight limit items (total weight items + extra) =
      (newest weight (limit - extra) items, total weight (newest weight (limit - extra) items) + extra) := by
  induction items with
  | nil => rfl
  | cons a rest ih =>
    rw [evict, newest, total_cons]
    split
    · rename_i hover
      have htokens : weight a + total weight rest + extra - weight a = total weight rest + extra := by omega
      rw [if_neg (by omega), htokens, ih]
    · rename_i hfits
      rw [if_pos (by omega), total_cons]

end Newest
