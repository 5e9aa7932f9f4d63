import Mathlib.Algebra.BigOperators.Group.List.Basic
import Mathlib.Algebra.Order.Ring.Int
import Mathlib.Data.List.Nodup
import Mathlib.Data.List.Perm.Basic

/-! Dictionaries whose values hold their own keys, as lists in the order of insertion. -/
namespace Solvan.Base.Keyed

variable {α : Type u} {κ : Type v} [DecidableEq κ] {key : α → κ} {rows rows' : List α} {row : α}
  {k : κ}

def get (key : α → κ) (rows : List α) (k : κ) : Option α := rows.find? (fun row => key row == k)

/-- A value takes the place of the one with its key, or the last place. -/
def put (key : α → κ) (rows : List α) (row : α) : List α :=
  if rows.any (fun old => key old == key row) then
    rows.map (fun old => if key old == key row then row else old)
  else rows ++ [row]

def del (key : α → κ) (rows : List α) (k : κ) : List α := rows.filter (fun row => key row != k)

/-- The dictionary of a list, the last value of a key standing. -/
def dict (key : α → κ) (rows : List α) : List α := rows.foldl (put key) []

theorem get_some (h : get key rows k = some row) : row ∈ rows ∧ key row = k :=
  ⟨List.mem_of_find?_eq_some h, by simpa using List.find?_some h⟩

theorem get_none : get key rows k = none ↔ k ∉ rows.map key := by
  simp only [get, List.find?_eq_none, beq_iff_eq, List.mem_map, not_exists, not_and]

theorem get_append : get key (rows ++ rows') k = (get key rows k).or (get key rows' k) := List.find?_append

/-- Where no key is held twice, a value is what its key gets. -/
theorem get_of_mem (hnodup : (rows.map key).Nodup) (hrow : row ∈ rows) :
    get key rows (key row) = some row := by
  cases hget : get key rows (key row) with
  | none => exact absurd (List.mem_map_of_mem hrow) (get_none.mp hget)
  | some other =>
    obtain ⟨hother, hkey⟩ := get_some hget
    rw [List.inj_on_of_nodup_map hnodup hother hrow hkey]

theorem get_perm (hnodup : (rows.map key).Nodup) (hperm : rows.Perm rows') :
    get key rows' k = get key rows k := by
  cases hget : get key rows k with
  | none =>
    rw [get_none] at hget ⊢
    exact fun hmem => hget ((hperm.map key).mem_iff.mpr hmem)
  | some row =>
    obtain ⟨hrow, rfl⟩ := get_some hget
    exact get_of_mem ((hperm.map key).nodup_iff.mp hnodup) (hperm.mem_iff.mp hrow)

theorem put_of_absent (h : key row ∉ rows.map key) : put key rows row = rows ++ [row] := by
  refine if_neg (fun hany => h ?_)
  obtain ⟨old, hold, hsame⟩ := List.any_eq_true.mp hany
  exact List.mem_map.mpr ⟨old, hold, by simpa using hsame⟩

theorem get_put_self : get key (put key rows row) (key row) = some row := by
  unfold get put
  split
  · rename_i hany
    induction rows with
    | nil => cases hany
    | cons old rows ih =>
      by_cases hold : key old = key row
      · simp [hold]
      · have hrest : rows.any (fun old => key old == key row) = true := by simpa [hold] using hany
        simpa [hold] using ih hrest
  · rename_i hany
    have hnone : rows.find? (fun old => key old == key row) = none := by
      simpa [List.find?_eq_none] using hany
    simp [List.find?_append, hnone]

theorem get_put_ne (hk : k ≠ key row) : get key (put key rows row) k = get key rows k := by
  unfold get put
  split
  · rename_i hany
    clear hany
    induction rows with
    | nil => rfl
    | cons old rows ih =>
      by_cases hold : key old = key row
      · have hne : (key old == k) = false := by simpa [hold] using hk.symm
        have hne' : (key row == k) = false := by simpa using hk.symm
        simpa [hold, hne'] using ih
      · by_cases hthis : key old = k
        · simp [hthis, hk]
        · simpa [hold, hthis] using ih
  · have hne : (key row == k) = false := by simpa using hk.symm
    simp [List.find?_append, hne]

theorem get_del_self : get key (del key rows k) k = none := by
  simp [get, del, List.find?_eq_none]

theorem get_del_ne {other : κ} (hother : other ≠ k) : get key (del key rows k) other = get key rows other := by
  unfold get del
  rw [List.find?_filter]
  congr 1
  funext row
  by_cases hrow : key row = other
  · simp [hrow, hother]
  · simp [hrow]

theorem put_nodup (hnodup : (rows.map key).Nodup) : ((put key rows row).map key).Nodup := by
  unfold put
  split
  · have hsame : (rows.map (fun old => if key old == key row then row else old)).map key =
        rows.map key := by
      rw [List.map_map]
      refine List.map_congr_left (fun old _ => ?_)
      by_cases hold : key old = key row
      · simp [hold]
      · simp [hold]
    rw [hsame]
    exact hnodup
  · rename_i hany
    rw [List.map_append]
    refine List.Nodup.append hnodup (List.nodup_singleton _) ?_
    simpa [List.disjoint_singleton] using hany

theorem del_nodup (hnodup : (rows.map key).Nodup) : ((del key rows k).map key).Nodup :=
  hnodup.sublist ((List.filter_sublist).map key)

theorem dict_eq (hnodup : (rows.map key).Nodup) : dict key rows = rows := by
  have hall : ∀ done rest : List α, ((done ++ rest).map key).Nodup →
      rest.foldl (put key) done = done ++ rest := by
    intro done rest
    induction rest generalizing done with
    | nil => exact fun _ => (List.append_nil done).symm
    | cons row rest ih =>
      intro hnodup
      have hsplit : done ++ row :: rest = (done ++ [row]) ++ rest := by simp
      have hnew : done.any (fun old => key old == key row) = false := by
        rw [List.map_append, List.map_cons, List.nodup_append] at hnodup
        simpa using fun old hold heq =>
          hnodup.2.2 (key old) (List.mem_map_of_mem hold) (key row) List.mem_cons_self heq
      rw [List.foldl_cons, put, if_neg (by simp [hnew]), ih _ (hsplit ▸ hnodup), ← hsplit]
  exact hall [] rows hnodup

theorem mem_put {other : α} (h : other ∈ put key rows row) : other = row ∨ other ∈ rows := by
  unfold put at h
  split at h
  · obtain ⟨old, hold, heq⟩ := List.mem_map.mp h
    split at heq
    · exact .inl heq.symm
    · exact .inr (heq ▸ hold)
  · exact (List.mem_append.mp h).symm.imp_left List.mem_singleton.mp

theorem length_put_le : (put key rows row).length ≤ rows.length + 1 := by
  unfold put
  split
  · rw [List.length_map]
    exact Nat.le_succ _
  · exact Nat.le_of_eq List.length_append

/-- What a dictionary is by its rows put in one by one. -/
theorem dict_induct {P : List α → List α → Prop} (nil : P [] [])
    (step : ∀ done held row, P done held → P (done ++ [row]) (put key held row)) : P rows (dict key rows) := by
  have hall : ∀ done held rest : List α, P done held → P (done ++ rest) (rest.foldl (put key) held) := by
    intro done held rest
    induction rest generalizing done held with
    | nil => exact fun h => by rwa [List.append_nil]
    | cons row rest ih =>
      intro h
      have hsplit : done ++ row :: rest = (done ++ [row]) ++ rest := by simp
      rw [hsplit]
      exact ih (done ++ [row]) (put key held row) (step done held row h)
  exact hall [] [] rows nil

theorem dict_nodup : ((dict key rows).map key).Nodup :=
  @dict_induct α κ _ key rows (fun _ held => (held.map key).Nodup) List.nodup_nil (fun _ _ _ => put_nodup)

theorem mem_dict (h : row ∈ dict key rows) : row ∈ rows := by
  have hall : ∀ row ∈ dict key rows, row ∈ rows := by
    refine @dict_induct α κ _ key rows (fun done held => ∀ row ∈ held, row ∈ done) (fun row h => nomatch h) ?_
    intro done held row ih other hother
    obtain rfl | hheld := mem_put hother
    · exact List.mem_append_right _ (List.mem_singleton_self _)
    · exact List.mem_append_left _ (ih other hheld)
  exact hall row h

/-- No key is lost. -/
theorem dict_keys (h : row ∈ rows) : key row ∈ (dict key rows).map key := by
  have hall : ∀ row ∈ rows, key row ∈ (dict key rows).map key := by
    refine @dict_induct α κ _ key rows (fun done held => ∀ row ∈ done, key row ∈ held.map key) (fun row h => nomatch h) ?_
    intro done held row ih other hother
    by_cases hsame : key other = key row
    · rw [hsame]
      exact List.mem_map_of_mem (get_some get_put_self).1
    · have hdone : other ∈ done := by
        obtain hdone | hrow := List.mem_append.mp hother
        · exact hdone
        · exact absurd (congrArg key (List.mem_singleton.mp hrow)) hsame
      have hheld := mt get_none.mp (not_not.mpr (ih other hdone))
      rw [← get_put_ne hsame] at hheld
      exact not_not.mp (mt get_none.mpr hheld)
  exact hall row h

/-- A dictionary of one value. -/
theorem dict_single (hmem : row ∈ rows) (hall : ∀ other ∈ rows, other = row) : dict key rows = [row] := by
  have hheld : ∀ other ∈ dict key rows, other = row := fun other hother => hall other (mem_dict hother)
  have hnodup : ((dict key rows).map key).Nodup := dict_nodup
  have hkey : key row ∈ (dict key rows).map key := dict_keys hmem
  cases hdict : dict key rows with
  | nil =>
    rw [hdict] at hkey
    cases hkey
  | cons first rest =>
    rw [hdict] at hheld hnodup
    obtain ⟨rfl, hrest⟩ := List.forall_mem_cons.mp hheld
    cases rest with
    | nil => rfl
    | cons second rest =>
      rw [hrest second List.mem_cons_self, List.map_cons, List.map_cons] at hnodup
      exact absurd List.mem_cons_self (List.nodup_cons.mp hnodup).1

theorem length_dict_le : (dict key rows).length ≤ rows.length := by
  refine @dict_induct α κ _ key rows (fun done held => held.length ≤ done.length) (Nat.le_refl _) ?_
  intro done held row ih
  have hput := @length_put_le α κ _ key held row
  rw [List.length_append, List.length_singleton]
  omega

omit [DecidableEq κ] in
/-- A sum in which the summand of one row has changed. -/
theorem sum_map_change {f g : α → Int} (hnodup : (rows.map key).Nodup) (hrow : row ∈ rows)
    (hsame : ∀ other ∈ rows, key other ≠ key row → g other = f other) :
    (rows.map g).sum = (rows.map f).sum + (g row - f row) := by
  induction rows with
  | nil => cases hrow
  | cons first rows ih =>
    obtain ⟨hfirst, hrest⟩ := List.nodup_cons.mp hnodup
    rw [List.map_cons, List.map_cons, List.sum_cons, List.sum_cons]
    rcases List.mem_cons.mp hrow with rfl | hmem
    · -- The row is the first, and no other has its key.
      have hothers : rows.map g = rows.map f := List.map_congr_left (fun other hother =>
        hsame other (List.mem_cons_of_mem _ hother) (fun heq => hfirst (heq ▸ List.mem_map_of_mem hother)))
      rw [hothers]
      omega
    · have hne : key first ≠ key row := fun heq => hfirst (heq ▸ List.mem_map_of_mem hmem)
      rw [ih hrest hmem (fun other hother => hsame other (List.mem_cons_of_mem _ hother)),
        hsame first List.mem_cons_self hne]
      omega

end Solvan.Base.Keyed
