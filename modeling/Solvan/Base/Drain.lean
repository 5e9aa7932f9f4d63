import Mathlib.Algebra.BigOperators.Group.List.Basic
import Mathlib.Algebra.Order.Ring.Int

/-! Runs that use up a measure, and collections of which one part changes. -/
namespace Drain

variable {σ ι κ α : Type*} {step : σ → ι → σ} {load : σ → Nat} {keeps : σ → Prop} {serves : ι → Bool}

/-- Where the moves of one kind lower a measure while it lasts and no others raise it, a run
with as many such moves as the measure counts uses it up. -/
theorem run_zero (hkeeps : ∀ s i, keeps s → keeps (step s i)) (hle : ∀ s i, keeps s → load (step s i) ≤ load s)
    (hlt : ∀ s i, keeps s → serves i = true → 0 < load s → load (step s i) < load s) {moves : List ι} {s : σ}
    (hs : keeps s) (henough : load s ≤ moves.countP serves) : load (moves.foldl step s) = 0 := by
  induction moves generalizing s with
  | nil => exact Nat.le_zero.mp henough
  | cons i moves ih =>
    refine ih (hkeeps s i hs) ?_
    have hstep := hle s i hs
    rw [List.countP_cons] at henough
    by_cases hserves : serves i = true
    · have hless := hlt s i hs hserves
      rw [if_pos hserves] at henough
      omega
    · rw [if_neg hserves] at henough
      omega

/-- A family of lists of which one grows, as one list. -/
theorem flatMap_perm {keys : List κ} {f g : κ → List α} {key : κ} {extra : List α} (hnodup : keys.Nodup)
    (hkey : key ∈ keys) (hone : (g key).Perm (extra ++ f key)) (hothers : ∀ other, other ≠ key → g other = f other) :
    (keys.flatMap g).Perm (extra ++ keys.flatMap f) := by
  induction keys with
  | nil => cases hkey
  | cons first keys ih =>
    obtain ⟨hnew, hrest⟩ := List.nodup_cons.mp hnodup
    rw [List.flatMap_cons, List.flatMap_cons]
    by_cases hfirst : first = key
    · subst hfirst
      have hsame : keys.flatMap g = keys.flatMap f :=
        List.flatMap_congr fun other hother => hothers other fun heq => hnew (heq ▸ hother)
      rw [hsame, ← List.append_assoc]
      exact hone.append_right _
    · have hmem : key ∈ keys := (List.mem_cons.mp hkey).resolve_left fun heq => hfirst heq.symm
      rw [hothers first hfirst]
      refine ((ih hrest hmem).append_left (f first)).trans ?_
      rw [← List.append_assoc, ← List.append_assoc]
      exact List.perm_append_comm.append_right _

/-- A sum of which one summand changes. -/
theorem sum_change {keys : List κ} {f g : κ → Nat} {key : κ} (hnodup : keys.Nodup) (hkey : key ∈ keys)
    (hothers : ∀ other, other ≠ key → g other = f other) :
    (keys.map g).sum + f key = (keys.map f).sum + g key := by
  induction keys with
  | nil => cases hkey
  | cons first keys ih =>
    obtain ⟨hnew, hrest⟩ := List.nodup_cons.mp hnodup
    rw [List.map_cons, List.map_cons, List.sum_cons, List.sum_cons]
    by_cases hfirst : first = key
    · subst hfirst
      have hsame : keys.map g = keys.map f :=
        List.map_congr_left fun other hother => hothers other fun heq => hnew (heq ▸ hother)
      rw [hsame]
      omega
    · have hmem : key ∈ keys := (List.mem_cons.mp hkey).resolve_left fun heq => hfirst heq.symm
      have hlater := ih hrest hmem
      rw [hothers first hfirst]
      omega

end Drain
