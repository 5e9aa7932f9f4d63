import Mathlib.Init

/-! Programs that ask their surroundings and go on with the answers. -/
namespace Solvan.Base

inductive Program (E : Type u) (A : E → Type v) (α : Type w) where
  | done (a : α)
  | ask (e : E) (next : A e → Program E A α)

/-- Surroundings that answer, or refuse to, and change by it. -/
abbrev Handler (E : Type u) (A : E → Type v) (ε : Type y) (σ : Type z) :=
  (e : E) → σ → Except ε (A e) × σ

namespace Program

variable {E : Type u} {A : E → Type v}

protected def bind {α β : Type w} : Program E A α → (α → Program E A β) → Program E A β
  | done a, f => f a
  | ask e next, f => ask e (fun answer => (next answer).bind f)

instance : Monad (Program E A) where
  pure := done
  bind := Program.bind

@[simp] theorem done_bind {α β : Type w} (a : α) (f : α → Program E A β) : (done a >>= f) = f a := rfl

@[simp] theorem ask_bind {α β : Type w} (e : E) (next : A e → Program E A α) (f : α → Program E A β) :
    (ask e next >>= f) = ask e (fun answer => next answer >>= f) := rfl

theorem pure_eq {α : Type w} (a : α) : (pure a : Program E A α) = done a := rfl

instance : LawfulMonad (Program E A) :=
  LawfulMonad.mk' _
    (fun {α} p => by
      show p >>= done = p
      induction p with
      | done a => rfl
      | ask e next ih => exact congrArg (ask e) (funext ih))
    (fun _ _ => rfl)
    (fun {α β γ} p f g => by
      induction p with
      | done a => rfl
      | ask e next ih => exact congrArg (ask e) (funext ih))

section Value

variable (oracle : (e : E) → A e) {α β : Type w}

/-- What a program comes to with these answers. -/
def value : Program E A α → α
  | done a => a
  | ask e next => (next (oracle e)).value

/-- What it asks for with these answers, in order. -/
def asked : Program E A α → List E
  | done _ => []
  | ask e next => e :: (next (oracle e)).asked

@[simp] theorem value_pure (a : α) : (pure a : Program E A α).value oracle = a := rfl

@[simp] theorem value_ask (e : E) (next : A e → Program E A α) :
    (ask e next).value oracle = (next (oracle e)).value oracle := rfl

@[simp] theorem value_bind (p : Program E A α) (f : α → Program E A β) :
    (p >>= f).value oracle = (f (p.value oracle)).value oracle := by
  induction p with
  | done a => rfl
  | ask e next ih => exact ih (oracle e)

theorem value_ite (c : Prop) [Decidable c] (p q : Program E A α) :
    (if c then p else q).value oracle = if c then p.value oracle else q.value oracle :=
  apply_ite _ c p q

@[simp] theorem asked_pure (a : α) : (pure a : Program E A α).asked oracle = [] := rfl

@[simp] theorem asked_ask (e : E) (next : A e → Program E A α) :
    (ask e next).asked oracle = e :: (next (oracle e)).asked oracle := rfl

@[simp] theorem asked_bind (p : Program E A α) (f : α → Program E A β) :
    (p >>= f).asked oracle = p.asked oracle ++ (f (p.value oracle)).asked oracle := by
  induction p with
  | done a => rfl
  | ask e next ih => exact congrArg (List.cons e) (ih (oracle e))

end Value

section Run

variable {ε : Type y} {σ : Type z} (h : Handler E A ε σ) {α β : Type w}

/-- A run, which the first refusal ends. -/
def run : Program E A α → σ → Except ε α × σ
  | done a, s => (.ok a, s)
  | ask e next, s =>
    match h e s with
    | (.ok answer, s') => (next answer).run s'
    | (.error refusal, s') => (.error refusal, s')

@[simp] theorem run_pure (a : α) (s : σ) : (pure a : Program E A α).run h s = (.ok a, s) := rfl

theorem run_bind (p : Program E A α) (f : α → Program E A β) (s : σ) :
    (p >>= f).run h s =
      match p.run h s with
      | (.ok a, s') => (f a).run h s'
      | (.error refusal, s') => (.error refusal, s') := by
  induction p generalizing s with
  | done a => rfl
  | ask e next ih =>
    rw [ask_bind]
    simp only [run]
    split
    · exact ih _ _
    · rfl

variable {h} {I : σ → Prop} {p : Program E A α} {s s' : σ} {a : α}

/-- What every answer keeps, a run keeps. -/
theorem run_keeps (keeps : ∀ e s, I s → I (h e s).2) (hs : I s) : I (p.run h s).2 := by
  induction p generalizing s with
  | done a => exact hs
  | ask e next ih =>
    have hnext := keeps e s hs
    simp only [run]
    split
    · rename_i answer s' hanswer
      rw [hanswer] at hnext
      exact ih answer hnext
    · rename_i refusal s' hrefusal
      rw [hrefusal] at hnext
      exact hnext

variable (oracle : (e : E) → A e)

/-- A run among honest answers comes to the value of the program. -/
theorem value_of_run (keeps : ∀ e s, I s → I (h e s).2)
    (honest : ∀ e s answer, I s → (h e s).1 = .ok answer → answer = oracle e) (hs : I s)
    (hrun : p.run h s = (.ok a, s')) : a = p.value oracle := by
  induction p generalizing s with
  | done b =>
    obtain ⟨heq, -⟩ := Prod.mk.inj hrun
    exact (Except.ok.inj heq).symm
  | ask e next ih =>
    have hnext := keeps e s hs
    simp only [run] at hrun
    split at hrun
    · rename_i answer middle hanswer
      obtain rfl := honest e s answer hs (by rw [hanswer])
      rw [hanswer] at hnext
      exact ih _ hnext hrun
    · cases hrun

/-- A run that is not refused comes to the value, and each question changed the state. -/
theorem run_ok (move : E → σ → σ)
    (moves : ∀ e s answer s', h e s = (.ok answer, s') → answer = oracle e ∧ s' = move e s)
    (hrun : p.run h s = (.ok a, s')) :
    a = p.value oracle ∧ s' = (p.asked oracle).foldl (fun s e => move e s) s := by
  induction p generalizing s with
  | done b =>
    obtain ⟨heq, rfl⟩ := Prod.mk.inj hrun
    exact ⟨(Except.ok.inj heq).symm, rfl⟩
  | ask e next ih =>
    simp only [run] at hrun
    split at hrun
    · rename_i answer middle hanswer
      obtain ⟨rfl, rfl⟩ := moves e s answer middle hanswer
      exact ih _ hrun
    · cases hrun

/-- Where nothing asked for is refused, a run comes to the value, and each question changes the state. -/
theorem run_answered (move : E → σ → σ) (keeps : ∀ e s, I s → I (move e s))
    (answered : ∀ e ∈ p.asked oracle, ∀ s, I s → h e s = (.ok (oracle e), move e s)) (hs : I s) :
    p.run h s = (.ok (p.value oracle), (p.asked oracle).foldl (fun s e => move e s) s) := by
  induction p generalizing s with
  | done a => rfl
  | ask e next ih =>
    simp only [run, answered e (by simp) s hs]
    exact ih _ (fun other hother => answered other (by simp [hother])) (keeps e s hs)

/-- Surroundings that answer alike, in states that stay related, are not told apart. -/
theorem run_related {τ : Type z} {h' : Handler E A ε τ} {R : σ → τ → Prop} {t : τ}
    (alike : ∀ e s t, R s t → (h e s).1 = (h' e t).1 ∧ R (h e s).2 (h' e t).2) (hs : R s t) :
    (p.run h s).1 = (p.run h' t).1 ∧ R (p.run h s).2 (p.run h' t).2 := by
  induction p generalizing s t with
  | done a => exact ⟨rfl, hs⟩
  | ask e next ih =>
    obtain ⟨hanswer, hnext⟩ := alike e s t hs
    cases hleft : h e s with
    | mk answer s' =>
      cases hright : h' e t with
      | mk answer' t' =>
        rw [hleft, hright] at hanswer hnext
        obtain rfl : answer = answer' := hanswer
        simp only [run, hleft, hright]
        cases answer with
        | error refusal => exact ⟨rfl, hnext⟩
        | ok found => exact ih found hnext

end Run

end Program

end Solvan.Base
