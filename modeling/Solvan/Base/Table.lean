import Mathlib.Data.List.Basic
import Mathlib.Data.List.Nodup
import Mathlib.Data.List.Sort

/-! Relational tables as lists of rows: the updates and look-ups of SQL
statements, and what uniqueness of a key buys. -/
namespace Table

variable {ρ : Type u} {κ : Type v} {p q : ρ → Bool} {f : ρ → ρ} {key : ρ → κ} {rows : List ρ}
  {r r' : ρ} {k : κ}

/-- `UPDATE … SET f WHERE p` -/
def update (p : ρ → Bool) (f : ρ → ρ) (rows : List ρ) : List ρ :=
  rows.map (fun r => if p r then f r else r)

/-- Distinct rows have distinct keys. -/
def Unique (key : ρ → κ) (rows : List ρ) : Prop := (rows.map key).Nodup

theorem mem_update : r' ∈ update p f rows ↔ ∃ r ∈ rows, (if p r then f r else r) = r' :=
  List.mem_map

theorem mem_update_of_hit (hr : r ∈ rows) (hp : p r = true) : f r ∈ update p f rows :=
  mem_update.mpr ⟨r, hr, if_pos hp⟩

theorem mem_update_of_miss (hr : r ∈ rows) (hp : p r = false) : r ∈ update p f rows :=
  mem_update.mpr ⟨r, hr, if_neg (by simp [hp])⟩

/-- A row after an update is a row that was hit or one that was not. -/
theorem update_cases (h : r' ∈ update p f rows) :
    (∃ r ∈ rows, p r = true ∧ r' = f r) ∨ (r' ∈ rows ∧ p r' = false) := by
  obtain ⟨r, hr, he⟩ := mem_update.mp h
  cases hp : p r with
  | true => exact .inl ⟨r, hr, hp, by simpa [hp] using he.symm⟩
  | false =>
    have he : r = r' := by simpa [hp] using he
    exact .inr ⟨he ▸ hr, he ▸ hp⟩

theorem update_of_no_hit (h : ∀ r ∈ rows, p r = false) : update p f rows = rows := by
  unfold update
  conv_rhs => rw [← List.map_id rows]
  exact List.map_congr_left (fun r hr => by simp [h r hr])

/-- An update that leaves the key column alone leaves the keys alone. -/
theorem keys_update (hk : ∀ r ∈ rows, p r = true → key (f r) = key r) :
    (update p f rows).map key = rows.map key := by
  simp only [update, List.map_map]
  apply List.map_congr_left
  intro r hr
  cases hp : p r with
  | true => simp [hp, hk r hr hp]
  | false => simp [hp]

theorem Unique.update (h : Unique key rows) (hk : ∀ r ∈ rows, p r = true → key (f r) = key r) :
    Unique key (Table.update p f rows) := by
  unfold Unique
  rw [keys_update hk]
  exact h

theorem Unique.map (h : Unique key rows) (hk : ∀ r ∈ rows, key (f r) = key r) :
    Unique key (rows.map f) := by
  unfold Unique
  rw [List.map_map]
  have hsame : rows.map (key ∘ f) = rows.map key := List.map_congr_left hk
  rw [hsame]
  exact h

theorem Unique.append (h : Unique key rows) (hk : ∀ r' ∈ rows, key r' ≠ key r) :
    Unique key (rows ++ [r]) := by
  unfold Unique
  rw [List.map_append, List.nodup_append]
  refine ⟨h, by simp, ?_⟩
  intro a ha b hb
  obtain ⟨r', hr', rfl⟩ := List.mem_map.mp ha
  have hb : b = key r := by simpa using hb
  exact hb ▸ hk r' hr'

theorem Unique.eq_of_key (h : Unique key rows) (hr : r ∈ rows) (hr' : r' ∈ rows)
    (he : key r = key r') : r = r' :=
  List.inj_on_of_nodup_map h hr hr' he

/-- Rows that are hit have other keys than one that is missed. -/
theorem Unique.ne_of_miss (h : Unique key rows) (hr' : r' ∈ rows) (hp : p r' = false) :
    ∀ r ∈ rows, p r = true → key r ≠ key r' := by
  intro r hr hpr he
  rw [h.eq_of_key hr hr' he, hp] at hpr
  cases hpr

variable [DecidableEq κ]

/-- The row with a key, if the table has one. -/
def find (key : ρ → κ) (k : κ) (rows : List ρ) : Option ρ := rows.find? (fun r => key r == k)

theorem mem_of_find (h : find key k rows = some r) : r ∈ rows ∧ key r = k :=
  ⟨List.mem_of_find?_eq_some h, by simpa using List.find?_some h⟩

theorem Unique.find_eq (h : Unique key rows) (hr : r ∈ rows) : find key (key r) rows = some r := by
  cases hf : find key (key r) rows with
  | none => exact absurd (List.find?_eq_none.mp hf r hr) (by simp)
  | some r' =>
    obtain ⟨hm, he⟩ := mem_of_find hf
    rw [h.eq_of_key hm hr he]

theorem find_update (hf : ∀ r, key (f r) = key r) (k : κ) (rows : List ρ) :
    find key k (update p f rows) = (find key k rows).map (fun r => if p r then f r else r) := by
  have hsame : (fun r => key r == k) ∘ (fun r => if p r then f r else r) = fun r => key r == k := by
    funext r
    simp only [Function.comp_apply]
    split
    · rw [hf r]
    · rfl
  unfold find update
  rw [List.find?_map, hsame]

/-- An update of the one row with a key is seen under that key. -/
theorem Unique.find_update_self (h : Unique key rows) (hf : ∀ r, key (f r) = key r) (hr : r ∈ rows)
    (hp : p r = true) : find key (key r) (Table.update p f rows) = some (f r) := by
  rw [find_update hf, h.find_eq hr, Option.map_some, if_pos hp]

theorem find_update_other (hf : ∀ r, key (f r) = key r) (only : ∀ r, p r = true → key r ≠ k) :
    find key k (update p f rows) = find key k rows := by
  rw [find_update hf]
  cases h : find key k rows with
  | none => rfl
  | some r =>
    have hmiss : ¬p r = true := fun hp => only r hp (mem_of_find h).2
    rw [Option.map_some, if_neg hmiss]

/-- An update of one row, under every key. -/
theorem Unique.find_update (h : Unique key rows) (hf : ∀ r, key (f r) = key r) (hr : r ∈ rows)
    (hp : p r = true) (only : ∀ r', p r' = true → key r' = key r) (k : κ) :
    find key k (Table.update p f rows) = if k = key r then some (f r) else find key k rows := by
  split
  · rename_i hk
    subst hk
    exact h.find_update_self hf hr hp
  · rename_i hk
    exact find_update_other hf (fun r' hp' he => hk (he.symm.trans (only r' hp')))

theorem find_append_self (new : ∀ r' ∈ rows, key r' ≠ key r) :
    find key (key r) (rows ++ [r]) = some r := by
  unfold find
  rw [List.find?_append]
  have hnone : rows.find? (fun r' => key r' == key r) = none :=
    List.find?_eq_none.mpr (fun r' hr' => by simpa using new r' hr')
  simp [hnone]

theorem find_append_other (hk : key r ≠ k) : find key k (rows ++ [r]) = find key k rows := by
  unfold find
  rw [List.find?_append]
  simp [hk]

/-- `ORDER BY due, id FOR UPDATE SKIP LOCKED LIMIT batch_size`: the keys of the
rows an update may take. -/
def candidates (id : ρ → String) (due : ρ → Int) (open_ : ρ → Bool) (locked : List String)
    (batchSize : Nat) (rows : List ρ) : List String :=
  let free := rows.filter (fun r => open_ r && !locked.contains (id r))
  let sorted := free.insertionSort (fun a b => due a < due b ∨ (due a = due b ∧ id a ≤ id b))
  (sorted.take batchSize).map id

theorem open_of_candidate {id : ρ → String} {due : ρ → Int} {open_ : ρ → Bool}
    {locked : List String} {batchSize : Nat} (hu : Unique id rows) (hr : r ∈ rows)
    (h : id r ∈ candidates id due open_ locked batchSize rows) : open_ r = true := by
  obtain ⟨r', hr', he⟩ := List.mem_map.mp h
  have hm := List.mem_filter.mp ((List.mem_insertionSort _).mp (List.mem_of_mem_take hr'))
  have heq : r' = r := hu.eq_of_key hm.1 hr he
  subst heq
  have hopen := hm.2
  simp only [Bool.and_eq_true] at hopen
  exact hopen.1

/-- An update that leaves what a filter looks at alone commutes with it. -/
theorem filter_update {q : ρ → Bool} (hq : ∀ r ∈ rows, p r = true → q (f r) = q r) :
    (update p f rows).filter q = update p f (rows.filter q) := by
  induction rows with
  | nil => rfl
  | cons r rows ih =>
    have hrest := ih (fun r' hr' => hq r' (List.mem_cons_of_mem _ hr'))
    have hhead : q (if p r then f r else r) = q r := by
      cases hp : p r with
      | true => simpa [hp] using hq r List.mem_cons_self hp
      | false => simp
    simp only [update, List.map_cons, List.filter_cons, hhead] at hrest ⊢
    cases hqr : q r with
    | true => simp [hrest]
    | false => simp [hrest]

theorem Unique.filter_length (h : Unique key rows) (k : κ) :
    (rows.filter (fun r => key r == k)).length ≤ 1 := by
  have hnodup : ((rows.filter (fun r => key r == k)).map key).Nodup :=
    h.sublist (List.filter_sublist.map key)
  match hm : rows.filter (fun r => key r == k) with
  | [] => simp
  | [_] => simp
  | a :: b :: rest =>
    have hin : ∀ r ∈ a :: b :: rest, key r = k := by
      intro r hr
      rw [← hm] at hr
      simpa using (List.mem_filter.mp hr).2
    rw [hm] at hnodup
    simp [hin a (by simp), hin b (by simp)] at hnodup

variable {owner : ρ → κ} {id : ρ → String} {row : ρ}

/-- An update that hits the one row of an owner. -/
theorem filter_update_self (hf : ∀ r, owner (f r) = owner r)
    (hone : rows.filter (fun r => owner r == k) = [row]) (hp : p row = true) :
    (update p f rows).filter (fun r => owner r == k) = [f row] := by
  rw [filter_update (fun r _ _ => by rw [hf r]), hone]
  simp [update, hp]

/-- An update that hits one row leaves the rows of other owners alone. -/
theorem filter_update_other (hu : Unique id rows) (hf : ∀ r, owner (f r) = owner r)
    (hr : row ∈ rows) (hp : ∀ r, p r = true → id r = id row) (hne : k ≠ owner row) :
    (update p f rows).filter (fun r => owner r == k) = rows.filter (fun r => owner r == k) := by
  rw [filter_update (fun r _ _ => by rw [hf r])]
  apply update_of_no_hit
  intro r hm
  obtain ⟨hm, hk⟩ := List.mem_filter.mp hm
  cases hpr : p r with
  | false => rfl
  | true =>
    have heq : r = row := hu.eq_of_key hm hr (hp r hpr)
    exact absurd (by simpa [heq] using hk) (Ne.symm hne)

end Table
