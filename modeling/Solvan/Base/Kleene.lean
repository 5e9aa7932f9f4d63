import Mathlib.Data.Sign.Defs

/-! Strong three-valued logic on signs: false below unknown below true. -/
namespace Kleene

variable {values values' : List SignType} {x y : SignType}

/-- The conjunction of values is the least of them. -/
def all (values : List SignType) : SignType := values.foldr min 1

/-- The disjunction of values is the greatest of them. -/
def any (values : List SignType) : SignType := values.foldr max (-1)

/-- What is known stays, when more becomes known. -/
def Refines (x y : SignType) : Prop := x ≠ 0 → y = x

theorem all_eq_neg_one : all values = -1 ↔ -1 ∈ values := by
  induction values with
  | nil => simp [all]
  | cons x rest ih =>
    have hmin : ∀ x y : SignType, min x y = -1 ↔ -1 = x ∨ y = -1 := by decide
    rw [List.mem_cons, ← ih]
    exact hmin x (all rest)

theorem all_eq_one : all values = 1 ↔ ∀ x ∈ values, x = 1 := by
  induction values with
  | nil => simp [all]
  | cons x rest ih =>
    have hmin : ∀ x y : SignType, min x y = 1 ↔ x = 1 ∧ y = 1 := by decide
    rw [List.forall_mem_cons, ← ih]
    exact hmin x (all rest)

/-- False where one value is, else unknown where one value is. -/
theorem all_eq (values : List SignType) :
    all values = if -1 ∈ values then -1 else if 0 ∈ values then 0 else 1 := by
  split
  · exact all_eq_neg_one.mpr ‹_›
  · rename_i hfalse
    split
    · rename_i hunknown
      have htrue : all values ≠ 1 := fun h => by cases all_eq_one.mp h 0 hunknown
      rcases SignType.trichotomy (all values) with h | h | h
      · exact absurd (all_eq_neg_one.mp h) hfalse
      · exact h
      · exact absurd h htrue
    · rename_i hunknown
      refine all_eq_one.mpr (fun x hx => ?_)
      rcases SignType.trichotomy x with rfl | rfl | rfl
      · exact absurd hx hfalse
      · exact absurd hx hunknown
      · rfl

/-- Disjunction is conjunction with true and false exchanged. -/
theorem any_eq_neg_all (values : List SignType) : any values = -all (values.map (-·)) := by
  induction values with
  | nil => rfl
  | cons x rest ih =>
    have hmax : ∀ x y : SignType, max x (-y) = -min (-x) y := by decide
    calc any (x :: rest) = max x (any rest) := rfl
      _ = max x (-all (rest.map (-·))) := by rw [ih]
      _ = -all ((x :: rest).map (-·)) := hmax x _

/-- True where one value is, else unknown where one value is. -/
theorem any_eq (values : List SignType) :
    any values = if 1 ∈ values then 1 else if 0 ∈ values then 0 else -1 := by
  have hmem : ∀ x, -x ∈ values.map (-·) ↔ x ∈ values := fun x => by
    simp only [List.mem_map, neg_inj, exists_eq_right]
  have hzero := hmem 0
  rw [SignType.neg_eq_zero_iff.mpr rfl] at hzero
  rw [any_eq_neg_all, all_eq]
  simp only [hmem 1, hzero]
  split
  · rfl
  · split
    · rfl
    · rfl

theorem Refines.neg (h : Refines x y) : Refines (-x) (-y) := fun hx => by
  rw [h (fun hzero => hx (by rw [hzero]; rfl))]

theorem Refines.all (h : List.Forall₂ Refines values values') :
    Refines (Kleene.all values) (Kleene.all values') := by
  induction h with
  | nil => exact fun _ => rfl
  | @cons x y rest rest' hfirst _ ih =>
    have hmin : ∀ x y a b : SignType, (x ≠ 0 → y = x) → (a ≠ 0 → b = a) → min x a ≠ 0 →
        min y b = min x a := by decide
    exact hmin x y _ _ hfirst ih

theorem Refines.any (h : List.Forall₂ Refines values values') :
    Refines (Kleene.any values) (Kleene.any values') := by
  rw [any_eq_neg_all, any_eq_neg_all]
  refine Refines.neg (Refines.all ?_)
  rw [List.forall₂_map_left_iff, List.forall₂_map_right_iff]
  exact h.imp (fun _ _ => Refines.neg)

end Kleene
