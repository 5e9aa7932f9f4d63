import Solvan.Base.Ledger
import Solvan.Domain.Values

namespace Solvan.Queues
open Claims

abbrev EventId := String

structure ClaimedEvent where
  eventId : EventId
  eventType : String
  claimToken : Token
  claimExpiresAt : Int
deriving DecidableEq, Repr

/-- One scope's rows of a queue, with a ledger of what happened to each row and
the tokens claims have been made under. -/
structure Queue (ρ ω : Type) where
  now : Int
  rows : List ρ
  ledger : Ledger EventId String Token ω
  issued : List Token

variable {ρ ω : Type} {budget : Nat} {key : ρ → EventId} {view : ρ → Item String Token ω}
  {q q' : Queue ρ ω} {r r' : ρ} {outcome : ω} {kinds : Event String Token ω → Prop}

def Queue.empty (now : Int) : Queue ρ ω := ⟨now, [], [], []⟩

def Queue.update (key : ρ → EventId) (p : ρ → Bool) (f : ρ → ρ)
    (event : ρ → Event String Token ω) (q : Queue ρ ω) : Queue ρ ω :=
  { q with
    rows := Table.update p f q.rows
    ledger := entries key p q.now event q.rows ++ q.ledger }

/-- `_complete`: the statement has to return a row. -/
def Queue.complete (key : ρ → EventId) (p : ρ → Bool) (f : ρ → ρ)
    (event : ρ → Event String Token ω) (q : Queue ρ ω) : Option (Queue ρ ω) :=
  if q.rows.any p then some (q.update key p f event) else none

/-- What one step of a queue may change, by events of some kinds. -/
inductive Change (budget : Nat) (key : ρ → EventId) (view : ρ → Item String Token ω)
    (kinds : Event String Token ω → Prop) (q : Queue ρ ω) : Queue ρ ω → Prop where
  | tick (now : Int) (later : q.now ≤ now) : Change budget key view kinds q { q with now }
  | arrive (row : ρ) (new : ∀ r ∈ q.rows, key r ≠ key row) (free : view row = ⟨0, .free⟩) :
      Change budget key view kinds q { q with rows := q.rows ++ [row] }
  | update (p : ρ → Bool) (f : ρ → ρ) (event : ρ → Event String Token ω) (issued : List Token)
      (keys : ∀ r ∈ q.rows, p r = true → key (f r) = key r)
      (moves : ∀ r ∈ q.rows, p r = true → Step budget q.now (view r) (event r) (view (f r)))
      (fresh : ∀ r ∈ q.rows, p r = true → ∀ hold, event r = .claim hold →
        hold.token ∉ q.issued ∧ hold.token ∈ issued)
      (kept : ∀ token ∈ q.issued, token ∈ issued) (listed : ∀ r, kinds (event r)) :
      Change budget key view kinds q { q.update key p f event with issued }

def Queue.Booked (budget : Nat) (key : ρ → EventId) (view : ρ → Item String Token ω)
    (q : Queue ρ ω) : Prop :=
  Claims.Booked budget key view q.rows q.ledger q.issued

theorem Change.booked (h : Change budget key view kinds q q') (hb : q.Booked budget key view) :
    q'.Booked budget key view := by
  cases h with
  | tick now later => exact hb
  | arrive row new free => exact Booked.insert hb new free
  | update p f event issued keys moves fresh kept listed => exact Booked.update hb keys moves fresh kept

/-- A step that makes no claim issues no token. -/
theorem Change.of_update {p : ρ → Bool} {f : ρ → ρ} {event : ρ → Event String Token ω}
    (keys : ∀ r ∈ q.rows, p r = true → key (f r) = key r)
    (moves : ∀ r ∈ q.rows, p r = true → Step budget q.now (view r) (event r) (view (f r)))
    (quiet : ∀ r hold, event r ≠ .claim hold) (listed : ∀ r, kinds (event r)) :
    Change budget key view kinds q (q.update key p f event) :=
  .update p f event q.issued keys moves (fun r _ _ hold he => absurd he (quiet r hold))
    (fun _ h => h) listed

theorem Queue.complete_eq {p : ρ → Bool} {f : ρ → ρ} {event : ρ → Event String Token ω}
    (h : q.complete key p f event = some q') :
    q' = q.update key p f event ∧ ∃ r ∈ q.rows, p r = true := by
  unfold Queue.complete at h
  split at h
  · rename_i hany
    exact ⟨(Option.some.inj h).symm, List.any_eq_true.mp hany⟩
  · cases h

theorem Change.of_complete {p : ρ → Bool} {f : ρ → ρ} {event : ρ → Event String Token ω}
    (h : q.complete key p f event = some q')
    (keys : ∀ r ∈ q.rows, p r = true → key (f r) = key r)
    (moves : ∀ r ∈ q.rows, p r = true → Step budget q.now (view r) (event r) (view (f r)))
    (quiet : ∀ r hold, event r ≠ .claim hold) (listed : ∀ r, kinds (event r)) :
    Change budget key view kinds q q' := by
  obtain ⟨rfl, -⟩ := Queue.complete_eq h
  exact Change.of_update keys moves quiet listed

/-- A row after a change is untouched, or has arrived, or has had one event. -/
theorem Change.row_cases (hu : Table.Unique key q.rows) (known : ∀ e ∈ q.ledger, e.1 ∈ q.rows.map key)
    (h : Change budget key view kinds q q') (hr : r' ∈ q'.rows) :
    (r' ∈ q.rows ∧ about (key r') q'.ledger = about (key r') q.ledger) ∨
    (view r' = ⟨0, .free⟩ ∧ about (key r') q'.ledger = []) ∨
    ∃ r ∈ q.rows, ∃ event, key r' = key r ∧ kinds event ∧
      Step budget q.now (view r) event (view r') ∧
      about (key r') q'.ledger = (q.now, event) :: about (key r) q.ledger := by
  cases h with
  | tick now later => exact .inl ⟨hr, rfl⟩
  | arrive row new free =>
    rcases List.mem_append.mp hr with hr | hr
    · exact .inl ⟨hr, rfl⟩
    · rw [List.mem_singleton.mp hr]
      exact .inr (.inl ⟨free, about_unknown known new⟩)
  | update p f event issued keys moves fresh kept listed =>
    rcases Table.update_cases hr with ⟨r, hm, hp, rfl⟩ | ⟨hr, hp⟩
    · refine .inr (.inr ⟨r, hm, event r, keys r hm hp, listed r, moves r hm hp, ?_⟩)
      simp only [Queue.update, keys r hm hp, about_append, about_entries_hit hu hm hp]
      rfl
    · refine .inl ⟨hr, ?_⟩
      simp only [Queue.update, about_append, about_entries_miss (hu.ne_of_miss hr hp)]
      rfl

/-- Rows that are done stay as they are. -/
theorem Change.keeps_done (h : Change budget key view kinds q q') (hr : r ∈ q.rows)
    (hd : (view r).phase = .done outcome) : r ∈ q'.rows := by
  cases h with
  | tick now later => exact hr
  | arrive row new free => exact List.mem_append_left _ hr
  | update p f event issued keys moves fresh kept listed => exact mem_update_of_done hr hd moves

end Solvan.Queues
