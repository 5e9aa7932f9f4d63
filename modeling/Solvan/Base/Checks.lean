import Mathlib.Data.List.Forall2
import Mathlib.Data.List.Perm.Basic

/-! Checks made one after the other, the first that fails being the answer. -/
namespace Checks

variable {ε : Type u} {α β : Type v}

def firstFailure : List (Bool × ε) → Except ε Unit
  | [] => .ok ()
  | (valid, error) :: checks => if valid then firstFailure checks else .error error

theorem firstFailure_ok {checks : List (Bool × ε)} :
    firstFailure checks = .ok () ↔ ∀ check ∈ checks, check.1 = true := by
  induction checks with
  | nil => simp [firstFailure]
  | cons check rest ih =>
    obtain ⟨valid, error⟩ := check
    rw [firstFailure, List.forall_mem_cons, ← ih]
    cases valid <;> simp

theorem mapM_ok {f : α → Except ε β} {items : List α} {values : List β} :
    items.mapM f = .ok values ↔ List.Forall₂ (fun a b => f a = .ok b) items values := by
  induction items generalizing values with
  | nil =>
    rw [List.forall₂_nil_left_iff]
    exact ⟨fun h => (Except.ok.inj h).symm, fun h => congrArg Except.ok h.symm⟩
  | cons a rest ih =>
    rw [List.mapM_cons]
    constructor
    · intro h
      cases ha : f a with
      | error e => rw [ha] at h; cases h
      | ok b =>
        cases hrest : rest.mapM f with
        | error e => rw [ha, hrest] at h; cases h
        | ok bs =>
          rw [ha, hrest] at h
          obtain rfl := Except.ok.inj h
          exact .cons ha (ih.mp hrest)
    · intro h
      cases h with
      | cons ha hrest =>
        rw [ha, ih.mpr hrest]
        rfl

/-- What is made of the items where each makes something. -/
theorem mapM_some {f : α → Option β} {items : List α} {values : List β} :
    items.mapM f = some values ↔ items.map f = values.map some := by
  induction items generalizing values with
  | nil =>
    constructor
    · intro h
      obtain rfl := Option.some.inj h
      rfl
    · intro h
      obtain rfl := List.map_eq_nil_iff.mp h.symm
      rfl
  | cons a items ih =>
    rw [List.mapM_cons, List.map_cons]
    constructor
    · intro h
      obtain ⟨b, hb, h⟩ := Option.bind_eq_some_iff.mp h
      obtain ⟨bs, hbs, h⟩ := Option.bind_eq_some_iff.mp h
      obtain rfl := Option.some.inj h
      rw [hb, ih.mp hbs, List.map_cons]
    · intro h
      obtain ⟨b, bs, rfl, hb, hbs⟩ := List.map_eq_cons_iff.mp h.symm
      rw [← hb, ih.mpr hbs.symm]
      rfl

theorem mem_of_mapM {f : α → Except ε β} {items : List α} {values : List β} (h : items.mapM f = .ok values) :
    ∀ b ∈ values, ∃ a ∈ items, f a = .ok b := by
  have hall := mapM_ok.mp h
  induction hall with
  | nil => exact fun b hb => nomatch hb
  | @cons a b items values hone hrest ih =>
    refine List.forall_mem_cons.mpr ⟨⟨a, List.mem_cons_self, hone⟩, fun b hb => ?_⟩
    obtain ⟨a', ha', hone'⟩ := ih (mapM_ok.mpr hrest) b hb
    exact ⟨a', List.mem_cons_of_mem _ ha', hone'⟩

theorem mapM_mem {f : α → Except ε β} {items : List α} {values : List β} (h : items.mapM f = .ok values) :
    ∀ a ∈ items, ∃ b ∈ values, f a = .ok b := by
  have hall := mapM_ok.mp h
  induction hall with
  | nil => exact fun a ha => nomatch ha
  | @cons a b items values hone hrest ih =>
    refine List.forall_mem_cons.mpr ⟨⟨b, List.mem_cons_self, hone⟩, fun a' ha' => ?_⟩
    obtain ⟨b', hb', hone'⟩ := ih (mapM_ok.mpr hrest) a' ha'
    exact ⟨b', List.mem_cons_of_mem _ hb', hone'⟩

/-- What is made of items that each give a value or are refused. -/
theorem mapM_guarded {f : α → Except ε β} {p : α → Bool} {e : ε} {g : α → β} {items : List α} {values : List β}
    (h : ∀ a ∈ items, f a = if p a then .error e else .ok (g a)) :
    items.mapM f = .ok values ↔ (∀ a ∈ items, p a = false) ∧ values = items.map g := by
  rw [mapM_ok]
  induction items generalizing values with
  | nil => simp
  | cons a items ih =>
    obtain ⟨ha, hrest⟩ := List.forall_mem_cons.mp h
    rw [List.forall_mem_cons, List.map_cons]
    constructor
    · intro hall
      obtain ⟨b, bs, hb, hbs, rfl⟩ := List.forall₂_cons_left_iff.mp hall
      obtain ⟨hnone, rfl⟩ := (ih hrest).mp hbs
      rw [ha] at hb
      split at hb
      · cases hb
      · rename_i hp
        exact ⟨⟨by simpa using hp, hnone⟩, by rw [Except.ok.inj hb]⟩
    · rintro ⟨⟨hp, hnone⟩, rfl⟩
      exact .cons (by rw [ha, hp]; rfl) ((ih hrest).mpr ⟨hnone, rfl⟩)

theorem mapM_congr {f g : α → Except ε β} {items : List α} (h : ∀ a ∈ items, f a = g a) : items.mapM f = items.mapM g := by
  induction items with
  | nil => rfl
  | cons a items ih =>
    obtain ⟨ha, hrest⟩ := List.forall_mem_cons.mp h
    rw [List.mapM_cons, List.mapM_cons, ha, ih hrest]

/-- What the values have in common with the items, where each item gives a value. -/
theorem exists_mapM {γ : Type w} {f : α → Except ε β} {items : List α} {g : α → γ} {k : β → γ}
    (h : ∀ a ∈ items, ∃ b, f a = .ok b ∧ k b = g a) : ∃ values, items.mapM f = .ok values ∧ values.map k = items.map g := by
  induction items with
  | nil => exact ⟨[], rfl, rfl⟩
  | cons a items ih =>
    obtain ⟨⟨b, hb, hk⟩, hrest⟩ := List.forall_mem_cons.mp h
    obtain ⟨bs, hbs, hks⟩ := ih hrest
    exact ⟨b :: bs, mapM_ok.mpr (.cons hb (mapM_ok.mp hbs)), by rw [List.map_cons, List.map_cons, hk, hks]⟩

theorem map_ok {x : Except ε α} {f : α → β} {b : β} : x.map f = .ok b ↔ ∃ a, x = .ok a ∧ f a = b := by
  cases x with
  | error e => exact ⟨fun h => (nomatch h), fun ⟨_, h, _⟩ => (nomatch h)⟩
  | ok a => exact ⟨fun h => ⟨a, rfl, Except.ok.inj h⟩, fun ⟨_, h, hb⟩ => by cases h; exact congrArg Except.ok hb⟩

/-- What is made of the items of a list does not depend on their order. -/
theorem mapM_perm {f : α → Except ε β} {items items' : List α} {values : List β} (hperm : items.Perm items')
    (h : items.mapM f = .ok values) : ∃ values', items'.mapM f = .ok values' ∧ values.Perm values' := by
  obtain ⟨values', hvalues, hpermuted⟩ := List.perm_comp_forall₂ hperm.symm (mapM_ok.mp h)
  exact ⟨values', mapM_ok.mpr hvalues, hpermuted.symm⟩

/-- What comes after a computation that succeeds. -/
theorem bind_ok {x : Except ε α} {f : α → Except ε β} {b : β} :
    x >>= f = .ok b ↔ ∃ a, x = .ok a ∧ f a = .ok b := by
  cases x with
  | error e => exact ⟨fun h => (nomatch h), fun ⟨_, h, _⟩ => (nomatch h)⟩
  | ok a => exact ⟨fun h => ⟨a, rfl, h⟩, fun ⟨_, h, hb⟩ => by cases h; exact hb⟩

/-- A check of every item. -/
theorem forM_ok {f : α → Except ε PUnit} {items : List α} (h : items.forM f = .ok ⟨⟩) : ∀ a ∈ items, f a = .ok ⟨⟩ := by
  induction items with
  | nil => exact fun a ha => nomatch ha
  | cons a items ih =>
    obtain ⟨_, hfirst, hrest⟩ := bind_ok.mp (show f a >>= (fun _ => items.forM f) = .ok ⟨⟩ from h)
    exact List.forall_mem_cons.mpr ⟨hfirst, ih hrest⟩

/-- A computation that fails, if at all, in some way. -/
def Only (P : ε → Prop) (x : Except ε α) : Prop := ∀ e, x = .error e → P e

theorem only_ok {P : ε → Prop} {a : α} : Only P (.ok a) := fun _ h => nomatch h

theorem only_error {P : ε → Prop} {e : ε} : Only P (.error e : Except ε α) ↔ P e :=
  ⟨fun h => h e rfl, fun h _ heq => Except.error.inj heq ▸ h⟩

/-- A first step that fails so, and second steps that do after any value of it. -/
theorem only_bind {P : ε → Prop} {x : Except ε α} {f : α → Except ε β} :
    Only P (x >>= f) ↔ Only P x ∧ ∀ a, x = .ok a → Only P (f a) := by
  cases x with
  | error e =>
    have hfirst : Only P (.error e >>= f) ↔ P e := only_error
    exact ⟨fun h => ⟨only_error.mpr (hfirst.mp h), nofun⟩, fun h => hfirst.mpr (only_error.mp h.1)⟩
  | ok a => exact ⟨fun h => ⟨only_ok, fun b hb => Except.ok.inj hb ▸ h⟩, fun h => h.2 a rfl⟩

end Checks
