import Solvan.Base.Keyed

/-! Joins of rows with the rows of a table that has a key. -/
namespace Joins

open Solvan.Base

variable {β : Type u} {κ : Type v} [DecidableEq κ] {key : β → κ} {rows : List β} {row : β} {k : κ}

/-- The rows a join finds for a key. -/
def matching (key : β → κ) (rows : List β) (k : κ) : List β := rows.filter (fun row => key row == k)

/-- The rows an outer join finds for a key, a missing one where there is none. A
null is no key. -/
def outer (key : β → κ) (rows : List β) (k : Option κ) : List (Option β) :=
  let found := k.toList.flatMap (matching key rows)
  if found.isEmpty then [none] else found.map some

theorem matching_eq (hnodup : (rows.map key).Nodup) : matching key rows k = (Keyed.get key rows k).toList := by
  induction rows with
  | nil => rfl
  | cons row rows ih =>
    obtain ⟨hrow, hrest⟩ := List.nodup_cons.mp hnodup
    unfold matching Keyed.get at ih ⊢
    rw [List.filter_cons, List.find?_cons]
    by_cases hkey : key row = k
    · -- No other row has the key.
      have hnone : rows.filter (fun row => key row == k) = [] := by
        refine List.filter_eq_nil_iff.mpr (fun other hother heq => hrow ?_)
        exact List.mem_map.mpr ⟨other, hother, (eq_of_beq heq).trans hkey.symm⟩
      simp [hkey, hnone]
    · have hother : (key row == k) = false := by simpa using hkey
      rw [hother, if_neg Bool.false_ne_true]
      exact ih hrest

theorem matching_singleton (hnodup : (rows.map key).Nodup) (hmem : k ∈ rows.map key) :
    ∃ row, matching key rows k = [row] := by
  rw [matching_eq hnodup]
  cases hget : Keyed.get key rows k with
  | none => exact absurd hmem (Keyed.get_none.mp hget)
  | some row => exact ⟨row, rfl⟩

theorem outer_singleton (hnodup : (rows.map key).Nodup) (k : Option κ) :
    ∃ row, outer key rows k = [row] := by
  unfold outer
  cases k with
  | none => exact ⟨none, rfl⟩
  | some k =>
    rw [Option.toList_some, List.flatMap_cons, List.flatMap_nil, List.append_nil, matching_eq hnodup]
    cases Keyed.get key rows k with
    | none => exact ⟨none, rfl⟩
    | some row => exact ⟨some row, rfl⟩

end Joins
