import Mathlib.Init

/-! Runs that may fail, and that leave what they did before they failed. -/
namespace Solvan.Base

def Failing (ε : Type u) (σ : Type v) (α : Type w) := σ → Except ε α × σ

namespace Failing

variable {ε : Type u} {σ : Type v} {α β : Type w}

protected def bind (x : Failing ε σ α) (f : α → Failing ε σ β) : Failing ε σ β := fun s =>
  match x s with
  | (.ok a, s') => f a s'
  | (.error e, s') => (.error e, s')

instance : Monad (Failing ε σ) where
  pure a := fun s => (.ok a, s)
  bind := Failing.bind

/-- A computation that changes nothing. -/
def lift (x : Except ε α) : Failing ε σ α := fun s => (x, s)

def modify (f : σ → σ) : Failing ε σ PUnit := fun s => (.ok ⟨⟩, f s)

/-- A look at the state that may fail. -/
def view (f : σ → Except ε α) : Failing ε σ α := fun s => (f s, s)

/-- A change that may be refused. -/
def update (f : σ → Except ε σ) : Failing ε σ PUnit := fun s =>
  match f s with
  | .ok s' => (.ok ⟨⟩, s')
  | .error e => (.error e, s)

/-- `try` with what is done about each exception. -/
def catching (x : Failing ε σ α) (handle : ε → Failing ε σ α) : Failing ε σ α := fun s =>
  match x s with
  | (.ok a, s') => (.ok a, s')
  | (.error e, s') => handle e s'

section Steps

variable {f : α → Failing ε σ β} {next : PUnit → Failing ε σ β} {a : α} {e : ε} {g : σ → σ} {s : σ}

@[simp] theorem lift_ok_bind : (lift (.ok a) >>= f) = f a := rfl

@[simp] theorem lift_error_bind : (lift (.error e : Except ε α) >>= f) = lift (.error e) := rfl

@[simp] theorem modify_bind : (modify g >>= next) s = next ⟨⟩ (g s) := rfl

end Steps

/-- How a run ends. -/
def Ends (x : Failing ε σ α) (s : σ) (Q : Except ε α → σ → Prop) : Prop := Q (x s).1 (x s).2

variable {x : Failing ε σ α} {f : α → Failing ε σ β} {s : σ} {Q R : Except ε α → σ → Prop} {P : Except ε β → σ → Prop}

theorem ends_pure {a : α} : Ends (pure a : Failing ε σ α) s Q ↔ Q (.ok a) s := Iff.rfl

theorem ends_lift {y : Except ε α} : Ends (lift y : Failing ε σ α) s Q ↔ Q y s := Iff.rfl

theorem ends_modify {g : σ → σ} {Q : Except ε PUnit → σ → Prop} :
    Ends (modify g) s Q ↔ Q (.ok ⟨⟩) (g s) := Iff.rfl

/-- A run and what goes on from its end. -/
theorem ends_bind : Ends (x >>= f) s P ↔ Ends x s fun r s' =>
    match r with
    | .ok a => Ends (f a) s' P
    | .error e => P (.error e) s' := by
  show P (Failing.bind x f s).1 (Failing.bind x f s).2 ↔ _
  unfold Ends Failing.bind
  cases hx : x s with
  | mk r s' => cases r <;> rfl

theorem ends_update {g : σ → Except ε σ} {Q : Except ε PUnit → σ → Prop} :
    Ends (update g) s Q ↔ match g s with
      | .ok s' => Q (.ok ⟨⟩) s'
      | .error e => Q (.error e) s := by
  unfold Ends update
  cases g s <;> rfl

theorem ends_catching {handle : ε → Failing ε σ α} : Ends (catching x handle) s Q ↔ Ends x s fun r s' =>
    match r with
    | .ok a => Q (.ok a) s'
    | .error e => Ends (handle e) s' Q := by
  unfold Ends catching
  cases hx : x s with
  | mk r s' => cases r <;> rfl

/-- What does not change anything ends the run or goes on from the same state. -/
theorem Ends.lift_bind {y : Except ε α} (herror : ∀ e, y = .error e → P (.error e) s)
    (hok : ∀ a, y = .ok a → Ends (f a) s P) : Ends (lift y >>= f) s P := by
  cases y with
  | error e => exact herror e rfl
  | ok a => exact hok a rfl

/-- A look at the state ends the run or goes on from the same state. -/
theorem Ends.view_bind {y : σ → Except ε α} (herror : ∀ e, y s = .error e → P (.error e) s)
    (hok : ∀ a, y s = .ok a → Ends (f a) s P) : Ends (view y >>= f) s P := by
  have hview : Ends (lift (y s) >>= f) s P := Ends.lift_bind herror hok
  exact ends_bind.mpr (ends_bind.mp hview)

theorem Ends.imp (h : Ends x s Q) (himp : ∀ r s', Q r s' → R r s') : Ends x s R := himp _ _ h

end Failing

end Solvan.Base
