import Mathlib.Data.List.Basic

/-- States, labelled moves, and the states a run may begin in. -/
structure Machine (σ : Type u) (α : Type v) where
  start : σ → Prop
  step : σ → α → σ → Prop

namespace Machine

variable {σ : Type u} {α : Type v}

/-- The states some run reaches. -/
inductive Reach (m : Machine σ α) : σ → Prop where
  | start {s : σ} (h : m.start s) : Reach m s
  | step {s s' : σ} {a : α} (h : Reach m s) (move : m.step s a s') : Reach m s'

/-- The moves of a run, oldest first. -/
inductive Path (m : Machine σ α) : σ → List α → σ → Prop where
  | nil {s : σ} : Path m s [] s
  | cons {s s' t : σ} {a : α} {as : List α} (move : m.step s a s') (rest : Path m s' as t) :
      Path m s (a :: as) t

variable {m : Machine σ α} {s s' t : σ} {as bs : List α}

/-- What holds at the start and survives every move of a reachable state
holds of every reachable state. -/
theorem Reach.invariant {I : σ → Prop} (h : m.Reach s)
    (start : ∀ s, m.start s → I s)
    (step : ∀ s a s', m.Reach s → I s → m.step s a s' → I s') : I s := by
  induction h with
  | start h => exact start _ h
  | step h move ih => exact step _ _ _ h ih move

/-- What every move keeps, a whole path keeps. -/
theorem Path.keeps {P : σ → Prop} (h : m.Path s as t)
    (step : ∀ s a s', P s → m.step s a s' → P s') (hs : P s) : P t := by
  induction h with
  | nil => exact hs
  | cons move _ ih => exact ih (step _ _ _ hs move)

theorem Path.reach (h : m.Path s as t) (hs : m.Reach s) : m.Reach t :=
  h.keeps (fun _ _ _ hr move => hr.step move) hs

/-- What holds of the moves made and the state they lead to. -/
theorem Path.history {P : List α → σ → Prop} (h : m.Path s as t) (start : P [] s)
    (step : ∀ as s a s', P as s → m.step s a s' → P (as ++ [a]) s') : P as t := by
  suffices hall : ∀ done, P done s → P (done ++ as) t from hall [] start
  clear start
  induction h with
  | nil =>
    intro done hdone
    rwa [List.append_nil]
  | @cons s s' t a as move _ ih =>
    intro done hdone
    rw [← List.singleton_append, ← List.append_assoc]
    exact ih (done ++ [a]) (step done s a s' hdone move)

/-- The state that a path passes through after some of its moves. -/
theorem Path.split (h : m.Path s (as ++ bs) t) : ∃ u, m.Path s as u ∧ m.Path u bs t := by
  induction as generalizing s with
  | nil => exact ⟨s, .nil, h⟩
  | cons a as ih =>
    cases h with
    | cons move rest =>
      obtain ⟨u, hfront, hback⟩ := ih rest
      exact ⟨u, .cons move hfront, hback⟩

theorem Path.append (h : m.Path s as s') (h' : m.Path s' bs t) : m.Path s (as ++ bs) t := by
  induction h with
  | nil => exact h'
  | cons move _ ih => exact .cons move (ih h')

/-- The same machine with the moves a condition rules out taken away. -/
def guarded (m : Machine σ α) (allowed : σ → α → Prop) : Machine σ α :=
  ⟨m.start, fun s a s' => allowed s a ∧ m.step s a s'⟩

/-- A machine whose every move another machine answers is simulated by it. -/
theorem Reach.simulated {τ : Type w} {β : Type x} {n : Machine τ β} {R : σ → τ → Prop}
    (h : m.Reach s) (start : ∀ s, m.start s → ∃ t, n.start t ∧ R s t)
    (step : ∀ s a s' t, m.Reach s → n.Reach t → R s t → m.step s a s' →
      ∃ t', n.Reach t' ∧ R s' t') : ∃ t, n.Reach t ∧ R s t := by
  induction h with
  | start h =>
    obtain ⟨t, ht, hr⟩ := start _ h
    exact ⟨t, .start ht, hr⟩
  | step h move ih =>
    obtain ⟨t, ht, hr⟩ := ih
    exact step _ _ _ t h ht hr move

theorem Reach.mono {m' : Machine σ α} (h : m.Reach s) (start : ∀ s, m.start s → m'.start s)
    (step : ∀ s a s', m.step s a s' → m'.step s a s') : m'.Reach s := by
  induction h with
  | start h => exact .start (start _ h)
  | step _ move ih => exact ih.step (step _ _ _ move)

/-- A path whose moves are always allowed. -/
theorem Path.guarded {allowed : σ → α → Prop} (h : m.Path s as t)
    (ok : ∀ a ∈ as, ∀ s, allowed s a) : (m.guarded allowed).Path s as t := by
  induction h with
  | nil => exact .nil
  | @cons s s' t a as move _ ih =>
    exact .cons ⟨ok a List.mem_cons_self s, move⟩ (ih (fun a ha => ok a (List.mem_cons_of_mem _ ha)))

theorem Path.mono {m' : Machine σ α} (h : m.Path s as t)
    (step : ∀ s a s', m.step s a s' → m'.step s a s') : m'.Path s as t := by
  induction h with
  | nil => exact .nil
  | cons move _ ih => exact .cons (step _ _ _ move) ih

theorem Reach.of_guarded {allowed : σ → α → Prop} (h : (m.guarded allowed).Reach s) :
    m.Reach s :=
  h.mono (fun _ => id) (fun _ _ _ => And.right)

/-- A deterministic machine, given by the function that makes each move. -/
def ofFn (start : σ → Prop) (next : σ → α → Option σ) : Machine σ α :=
  ⟨start, fun s a s' => next s a = some s'⟩

/-- Carry out a list of moves, stopping at the first that is refused. -/
def runFn (next : σ → α → Option σ) : σ → List α → Option σ
  | s, [] => some s
  | s, a :: as => (next s a).bind (fun s' => runFn next s' as)

/-- A run that can be carried out is a path, so a concrete run gives a
reachable state by evaluation. -/
theorem path_of_runFn {start : σ → Prop} {next : σ → α → Option σ}
    (h : runFn next s as = some t) : (ofFn start next).Path s as t := by
  induction as generalizing s with
  | nil =>
    simp only [runFn, Option.some.injEq] at h
    exact h ▸ .nil
  | cons a as ih =>
    obtain ⟨s', hn, hr⟩ := Option.bind_eq_some_iff.mp h
    exact .cons hn (ih hr)

theorem reach_of_runFn {start : σ → Prop} {next : σ → α → Option σ} (as : List α)
    (hs : start s) (h : runFn next s as = some t) : (ofFn start next).Reach t :=
  (path_of_runFn h).reach (.start hs)

theorem exists_path {start : σ → Prop} {next : σ → α → Option σ} {P : σ → Bool}
    (h : (runFn next s as).any P = true) : ∃ t, (ofFn start next).Path s as t ∧ P t = true := by
  cases hr : runFn next s as with
  | none => rw [hr] at h; cases h
  | some t => rw [hr] at h; exact ⟨t, path_of_runFn hr, h⟩

theorem exists_reach {start : σ → Prop} {next : σ → α → Option σ} {P : σ → Bool} (as : List α)
    (hs : start s) (h : (runFn next s as).any P = true) :
    ∃ t, (ofFn start next).Reach t ∧ P t = true := by
  obtain ⟨t, path, hp⟩ := (exists_path h : ∃ t, (ofFn start next).Path s as t ∧ P t = true)
  exact ⟨t, path.reach (.start hs), hp⟩

/-- The moves a decidable condition allows, as a function. -/
def guardFn (allowed : σ → α → Prop) [∀ s a, Decidable (allowed s a)] (next : σ → α → Option σ)
    (s : σ) (a : α) : Option σ :=
  if allowed s a then next s a else none

theorem Reach.of_guardFn {allowed : σ → α → Prop} [∀ s a, Decidable (allowed s a)]
    {start : σ → Prop} {next : σ → α → Option σ}
    (h : (ofFn start (guardFn allowed next)).Reach s) :
    ((ofFn start next).guarded allowed).Reach s := by
  refine h.mono (fun _ => id) ?_
  intro s a s' move
  exact Option.ite_none_right_eq_some.mp move

theorem Path.of_guardFn {allowed : σ → α → Prop} [∀ s a, Decidable (allowed s a)]
    {start : σ → Prop} {next : σ → α → Option σ}
    (h : (ofFn start (guardFn allowed next)).Path s as t) :
    ((ofFn start next).guarded allowed).Path s as t :=
  h.mono (fun _ _ _ move => Option.ite_none_right_eq_some.mp move)

end Machine
