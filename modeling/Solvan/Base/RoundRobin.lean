import Mathlib.Data.Nat.ModEq

/-! Places of a rotation that have their turn one after the other. -/
namespace Solvan.Base

variable {n place start visits : Nat}

/-- How often a place has its turn in so many visits. -/
def turns (n place : Nat) : Nat → Nat → Nat
  | _, 0 => 0
  | start, visits + 1 => (if start % n = place then 1 else 0) + turns n place (start + 1) visits

/-- How many visits a place still waits for its turn. -/
def untilTurn (n place start : Nat) : Nat := (place + n - start % n) % n

theorem turns_succ : turns n place start (visits + 1) =
    (if start % n = place then 1 else 0) + turns n place (start + 1) visits := rfl

theorem turns_mod : turns n place (start % n) visits = turns n place start visits := by
  induction visits generalizing start with
  | zero => rfl
  | succ visits ih =>
    have hnext : turns n place (start % n + 1) visits = turns n place (start + 1) visits := by
      have hwrapped := @ih (start % n + 1)
      rw [Nat.mod_add_mod] at hwrapped
      rw [← hwrapped, ih]
    rw [turns_succ, turns_succ, Nat.mod_mod, hnext]

theorem turns_append (more : Nat) :
    turns n place start (visits + more) =
      turns n place start visits + turns n place (start + visits) more := by
  induction visits generalizing start with
  | zero =>
    rw [Nat.zero_add]
    exact (Nat.zero_add _).symm
  | succ visits ih =>
    have hstart : start + 1 + visits = start + (visits + 1) := by omega
    rw [Nat.add_right_comm, turns_succ, turns_succ, ih, hstart, Nat.add_assoc]

theorem untilTurn_lt (hplace : place < n) : untilTurn n place start < n :=
  Nat.mod_lt _ (Nat.zero_lt_of_lt hplace)

/-- One visit: the place's turn, or one visit less to wait. -/
theorem untilTurn_step (hplace : place < n) :
    n * (if start % n = place then 1 else 0) + untilTurn n place start =
      1 + untilTurn n place (start + 1) := by
  have hpos : 0 < n := Nat.zero_lt_of_lt hplace
  have hstart := Nat.mod_lt start hpos
  have hless : ∀ m, m < 2 * n → m % n = if m < n then m else m - n := by
    intro m hm
    split
    · exact Nat.mod_eq_of_lt ‹_›
    · rw [Nat.mod_eq_sub_mod (by omega), Nat.mod_eq_of_lt (by omega)]
  unfold untilTurn
  rw [← Nat.mod_add_mod start n 1, hless (place + n - start % n) (by omega)]
  rcases Nat.lt_or_ge (start % n + 1) n with hinside | hwrap
  · rw [Nat.mod_eq_of_lt hinside, hless (place + n - (start % n + 1)) (by omega)]
    split <;> split <;> split <;> omega
  · have hlast : start % n + 1 = n := by omega
    rw [hlast, Nat.mod_self, Nat.sub_zero, Nat.add_mod_right,
      Nat.mod_eq_of_lt hplace]
    split <;> split <;> omega

/-- The turns of a place account for the visits. -/
theorem turns_balance (hplace : place < n) :
    n * turns n place start visits + untilTurn n place start =
      visits + untilTurn n place (start + visits) := by
  induction visits generalizing start with
  | zero => simp [turns]
  | succ visits ih =>
    have hstep : n * (if start % n = place then 1 else 0) + untilTurn n place start =
        1 + untilTurn n place (start + 1) := untilTurn_step hplace
    have hrest := @ih (start + 1)
    rw [Nat.add_right_comm start 1 visits] at hrest
    rw [turns_succ, Nat.mul_add, ← Nat.add_assoc start visits 1]
    omega

/-- No place is ever more than one turn ahead of another. -/
theorem turns_le {other : Nat} (hplace : place < n) (hother : other < n) :
    turns n place start visits ≤ turns n other start visits + 1 := by
  have hbalance : n * turns n place start visits + untilTurn n place start =
      visits + untilTurn n place (start + visits) := turns_balance hplace
  have hbalance' : n * turns n other start visits + untilTurn n other start =
      visits + untilTurn n other (start + visits) := turns_balance hother
  have hlt : untilTurn n other start < n := untilTurn_lt hother
  have hlt' : untilTurn n place (start + visits) < n := untilTurn_lt hplace
  by_contra hmore
  have hgap := Nat.mul_le_mul_left n (Nat.lt_of_not_le hmore)
  rw [Nat.succ_eq_add_one, Nat.add_assoc, Nat.mul_add] at hgap
  omega

end Solvan.Base
