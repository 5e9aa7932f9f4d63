import Mathlib.Algebra.Order.Field.Basic
import Mathlib.Analysis.Real.Sqrt
import Mathlib.Data.List.Sort
import Mathlib.Data.Nat.Cast.Order.Ring
import Mathlib.Tactic.FieldSimp
import Mathlib.Tactic.Linarith
import Mathlib.Tactic.Ring
import Solvan.Compute.LogSample

/-! Mean shifts of a metric series, in exact arithmetic. -/
namespace Solvan.Compute

variable {K : Type} [Field K] [LinearOrder K]

/-- Exact arithmetic: a field with the roots of its positive numbers. -/
structure Roots (K : Type) [Field K] [LinearOrder K] where
  sqrt : K → K
  sqrt_nonneg : ∀ x, 0 ≤ sqrt x
  mul_self_sqrt : ∀ x, 0 ≤ x → sqrt x * sqrt x = x

structure MetricPoint (K : Type) where
  observedAt : Int
  value : K

structure MetricSeries (K : Type) where
  evidenceRef : String
  signalKind : String
  points : List (MetricPoint K)
  atLeast : 3 ≤ points.length
  atMost : points.length ≤ 1000
  chronological : points.Pairwise (fun a b => a.observedAt < b.observedAt)

structure ChangePointCandidate (K : Type) where
  observedAt : Int
  beforeMean : K
  afterMean : K
  normalizedDelta : K

structure ChangePointResult (K : Type) where
  candidates : List (ChangePointCandidate K)
  minimumSamplesSatisfied : Bool

/-- `statistics.fmean` -/
def mean {F : Type} [Field F] (values : List F) : F := values.sum / values.length

/-- `statistics.pstdev` -/
def pstdev (roots : Roots K) (values : List K) : K :=
  roots.sqrt (mean (values.map (fun value => (value - mean values) ^ 2)))

/-- The candidate of a split, if its means differ enough. -/
def candidateAt (scale threshold : K) (points : List (MetricPoint K)) (index : Nat) :
    Option (ChangePointCandidate K) :=
  match points.drop index with
  | [] => none
  | point :: rest =>
    let before := mean ((points.take index).map MetricPoint.value)
    let after := mean ((point :: rest).map MetricPoint.value)
    let normalized := if 0 < scale then |after - before| / scale else 0
    if threshold ≤ normalized then some ⟨point.observedAt, before, after, normalized⟩ else none

/-- `(-item.normalized_delta, item.observed_at)` -/
def CandidateLe {K : Type} [LinearOrder K] (a b : ChangePointCandidate K) : Prop :=
  b.normalizedDelta < a.normalizedDelta ∨ a.normalizedDelta = b.normalizedDelta ∧ a.observedAt ≤ b.observedAt

instance {K : Type} [LinearOrder K] : DecidableRel (CandidateLe (K := K)) := fun _ _ => instDecidableOr

/-- `metric_change_point_detect` -/
def metricChangePointDetect (roots : Roots K) (series : MetricSeries K) (minimumSegmentSamples : Nat) (threshold : K) :
    Except ComputeError (ChangePointResult K) :=
  if ¬(3 ≤ minimumSegmentSamples ∧ minimumSegmentSamples ≤ 100) then
    .error (.value "minimum_segment_samples must be between 3 and 100")
  else if ¬(0 < threshold ∧ threshold ≤ 20) then
    .error (.value "threshold must be greater than zero and at most 20")
  else
    let points := series.points
    let enough := decide (minimumSegmentSamples * 2 ≤ points.length)
    let candidates :=
      if enough then
        (List.range' minimumSegmentSamples (points.length - minimumSegmentSamples + 1 - minimumSegmentSamples)).filterMap
          (candidateAt (pstdev roots (points.map MetricPoint.value)) threshold points)
      else []
    .ok ⟨(candidates.insertionSort CandidateLe).take 5, enough⟩

/-- How far the means on both sides of a split are apart. -/
def shift (values : List K) (i : Nat) : K := mean (values.drop i) - mean (values.take i)

/-- Some values followed by others: a clean step. -/
def step {α : Type} (a b : α) (t u : Nat) : List α := List.replicate t a ++ List.replicate u b

section Split

variable {α : Type} {a b : α} {t u i : Nat}

theorem take_step_le (h : i ≤ t) : (step a b t u).take i = List.replicate i a := by
  rw [step, List.take_append_of_le_length (by simpa using h), List.take_replicate, Nat.min_eq_left h]

theorem drop_step_le (h : i ≤ t) : (step a b t u).drop i = step a b (t - i) u := by
  rw [step, List.drop_append_of_le_length (by simpa using h), List.drop_replicate, step]

theorem take_step_ge (h : t ≤ i) (hi : i ≤ t + u) : (step a b t u).take i = step a b t (i - t) := by
  rw [step, List.take_append, List.length_replicate, List.take_of_length_le (by simpa using h), List.take_replicate,
    Nat.min_eq_left (by omega), step]

theorem drop_step_ge (h : t ≤ i) : (step a b t u).drop i = List.replicate (t + u - i) b := by
  rw [step, List.drop_append, List.length_replicate, List.drop_of_length_le (by simpa using h), List.nil_append,
    List.drop_replicate, show u - (i - t) = t + u - i by omega]

end Split

theorem mean_step {F : Type} [Field F] {a b : F} {t u : Nat} :
    mean (step a b t u) = (t * a + u * b) / (t + u) := by
  simp [mean, step, List.sum_replicate]

section Step

variable [IsStrictOrderedRing K] {a b : K} {t u i : Nat}

theorem mean_replicate (ht : 0 < t) : mean (List.replicate t a) = a := by
  have hpos : (t : K) ≠ 0 := Nat.cast_ne_zero.mpr (Nat.ne_of_gt ht)
  simp [mean, List.sum_replicate, hpos]

theorem shift_here (ht : 0 < t) (hu : 0 < u) : shift (step a b t u) t = b - a := by
  rw [shift, take_step_le (le_refl t), drop_step_ge (le_refl t), Nat.add_sub_cancel_left, mean_replicate ht,
    mean_replicate hu]

theorem shift_before (hi : 0 < i) (h : i < t) (hu : 0 < u) :
    shift (step a b t u) i = u / ((t - i : Nat) + u) * (b - a) := by
  have hu' : (0 : K) < u := Nat.cast_pos.mpr hu
  have hsum : ((t - i : Nat) : K) + u ≠ 0 := ne_of_gt (by positivity)
  rw [shift, take_step_le (le_of_lt h), drop_step_le (le_of_lt h), mean_step, mean_replicate hi]
  field_simp
  ring

theorem shift_after (ht : 0 < t) (h : t < i) (hi : i < t + u) :
    shift (step a b t u) i = t / (t + (i - t : Nat)) * (b - a) := by
  have ht' : (0 : K) < t := Nat.cast_pos.mpr ht
  have hsum : (t : K) + (i - t : Nat) ≠ 0 := ne_of_gt (by positivity)
  rw [shift, take_step_ge (le_of_lt h) (le_of_lt hi), drop_step_ge (le_of_lt h), mean_step, mean_replicate (by omega)]
  field_simp
  ring

/-- At any other split the means are closer together. -/
theorem shift_lt (hab : a ≠ b) (hi : 0 < i) (hi' : i < t + u) (ht : 0 < t) (hu : 0 < u) (hne : i ≠ t) :
    |shift (step a b t u) i| < |b - a| := by
  have hstep : 0 < |b - a| := abs_pos.mpr (sub_ne_zero.mpr hab.symm)
  have hscaled : ∀ p q : Nat, 0 < p → 0 < q → |(p : K) / (q + p) * (b - a)| < |b - a| := by
    intro p q hp hq
    have hp' : (0 : K) < p := Nat.cast_pos.mpr hp
    have hq' : (0 : K) < q := Nat.cast_pos.mpr hq
    have hfraction : (p : K) / (q + p) < 1 := by
      rw [div_lt_one (by positivity)]
      linarith
    rw [abs_mul, abs_of_pos (show (0 : K) < p / (q + p) by positivity)]
    exact mul_lt_of_lt_one_left hstep hfraction
  obtain hlt | hgt := Nat.lt_or_gt_of_ne hne
  · rw [shift_before hi hlt hu]
    exact hscaled u (t - i) hu (by omega)
  · rw [shift_after ht hgt hi', add_comm (t : K)]
    exact hscaled t (i - t) ht (by omega)

/-- The variance of a clean step. -/
theorem variance_step (ht : 0 < t) (hu : 0 < u) :
    mean ((step a b t u).map (fun value => (value - mean (step a b t u)) ^ 2)) =
      t * u * (b - a) ^ 2 / (t + u) ^ 2 := by
  have ht' : (0 : K) < t := Nat.cast_pos.mpr ht
  have hu' : (0 : K) < u := Nat.cast_pos.mpr hu
  have hsum : (t : K) + u ≠ 0 := ne_of_gt (by positivity)
  have hmap : ∀ c : K, (step a b t u).map (fun value => (value - c) ^ 2) = step ((a - c) ^ 2) ((b - c) ^ 2) t u := by
    intro c
    simp [step]
  rw [hmap, mean_step, mean_step]
  field_simp
  ring

/-- The deviation of a clean step is positive, and at most half of it. -/
theorem pstdev_step (roots : Roots K) (hab : a ≠ b) (ht : 0 < t) (hu : 0 < u) :
    0 < pstdev roots (step a b t u) ∧ 2 * pstdev roots (step a b t u) ≤ |b - a| := by
  have ht' : (0 : K) < t := Nat.cast_pos.mpr ht
  have hu' : (0 : K) < u := Nat.cast_pos.mpr hu
  have hstep : 0 < (b - a) ^ 2 := by
    have hne := sub_ne_zero.mpr hab.symm
    positivity
  have hvariance : 0 < (t : K) * u * (b - a) ^ 2 / (t + u) ^ 2 := by positivity
  have hsquare := roots.mul_self_sqrt _ (le_of_lt hvariance)
  have hnonneg := roots.sqrt_nonneg ((t : K) * u * (b - a) ^ 2 / (t + u) ^ 2)
  rw [pstdev, variance_step ht hu]
  generalize roots.sqrt ((t : K) * u * (b - a) ^ 2 / (t + u) ^ 2) = scale at hsquare hnonneg
  have hhalf : 4 * ((t : K) * u * (b - a) ^ 2 / (t + u) ^ 2) ≤ (b - a) ^ 2 := by
    rw [mul_div_assoc', div_le_iff₀ (by positivity)]
    -- Four times the product of the two lengths is at most the square of their sum.
    have hproduct : 4 * ((t : K) * u) ≤ (t + u) ^ 2 := by nlinarith [sq_nonneg ((t : K) - u)]
    nlinarith [mul_le_mul_of_nonneg_right hproduct (le_of_lt hstep)]
  constructor
  · refine lt_of_le_of_ne hnonneg (fun hzero => ?_)
    rw [← hzero, zero_mul] at hsquare
    exact absurd hsquare (ne_of_lt hvariance)
  · have hsquares : (2 * scale) ^ 2 ≤ (b - a) ^ 2 := by nlinarith
    exact le_trans (le_abs_self _) (sq_le_sq.mp hsquares)
end Step

section Detect

variable {a b scale threshold : K} {t u i m : Nat} {points : List (MetricPoint K)} {c : ChangePointCandidate K}

/-- What a candidate is at a split. -/
theorem candidateAt_some (hscale : 0 < scale) (h : candidateAt scale threshold points i = some c) :
    c.normalizedDelta = |shift (points.map MetricPoint.value) i| / scale := by
  unfold candidateAt at h
  split at h
  · cases h
  · rename_i point rest hdrop
    dsimp only at h
    rw [if_pos hscale] at h
    split at h
    · obtain rfl := Option.some.inj h
      rw [shift, ← List.map_drop, ← List.map_take, hdrop]
    · cases h

/-- A candidate that is ahead of all others comes out first. -/
theorem first_of_ahead {L : Type} [LinearOrder L] {c : ChangePointCandidate L} {front back : List (ChangePointCandidate L)}
    (h : ∀ other ∈ front ++ back, other.normalizedDelta < c.normalizedDelta) :
    ∃ rest, (front ++ c :: back).insertionSort CandidateLe = c :: rest ∧
      ∀ other ∈ rest, other.normalizedDelta < c.normalizedDelta := by
  have : Std.Total (CandidateLe (K := L)) := ⟨fun a b => by
    obtain hlt | heq | hlt := lt_trichotomy a.normalizedDelta b.normalizedDelta
    · exact .inr (.inl hlt)
    · exact (le_total a.observedAt b.observedAt).imp (fun hle => .inr ⟨heq, hle⟩) (fun hle => .inr ⟨heq.symm, hle⟩)
    · exact .inl (.inl hlt)⟩
  have : IsTrans (ChangePointCandidate L) CandidateLe := ⟨fun a b d hab hbd => by
    obtain hab | ⟨hab, htime⟩ := hab
    · obtain hbd | ⟨hbd, -⟩ := hbd
      · exact .inl (lt_trans hbd hab)
      · exact .inl (hbd ▸ hab)
    · obtain hbd | ⟨hbd, htime'⟩ := hbd
      · exact .inl (hab ▸ hbd)
      · exact .inr ⟨hab.trans hbd, le_trans htime htime'⟩⟩
  have hperm : ((front ++ c :: back).insertionSort CandidateLe).Perm (c :: (front ++ back)) :=
    (List.perm_insertionSort _ _).trans List.perm_middle
  have hsorted := List.pairwise_insertionSort CandidateLe (front ++ c :: back)
  cases hout : (front ++ c :: back).insertionSort CandidateLe with
  | nil =>
    rw [hout] at hperm
    exact absurd hperm.nil_eq (by simp)
  | cons first rest =>
    rw [hout] at hperm hsorted
    obtain rfl : first = c := by
      by_contra hne
      have hfirst : first ∈ front ++ back :=
        (List.mem_cons.mp (hperm.mem_iff.mp List.mem_cons_self)).resolve_left hne
      have hin : c ∈ rest := (List.mem_cons.mp (hperm.mem_iff.mpr List.mem_cons_self)).resolve_left (Ne.symm hne)
      obtain hlt | ⟨heq, -⟩ := (List.pairwise_cons.mp hsorted).1 c hin
      · exact absurd hlt (lt_asymm (h first hfirst))
      · exact absurd heq (ne_of_lt (h first hfirst))
    exact ⟨rest, rfl, fun other hother => h other (hperm.cons_inv.mem_iff.mp hother)⟩

variable [IsStrictOrderedRing K]

/-- A split at which the means differ enough has a candidate. -/
theorem candidateAt_here (hscale : 0 < scale) {point : MetricPoint K} (hpoint : points[i]? = some point)
    (henough : threshold * scale ≤ |shift (points.map MetricPoint.value) i|) :
    ∃ c, candidateAt scale threshold points i = some c ∧ c.observedAt = point.observedAt := by
  obtain ⟨hi, hget⟩ := List.getElem?_eq_some_iff.mp hpoint
  have hdrop := List.drop_eq_getElem_cons hi
  rw [hget] at hdrop
  have hnormalized : threshold ≤ |mean ((point :: points.drop (i + 1)).map MetricPoint.value) -
      mean ((points.take i).map MetricPoint.value)| / scale := by
    rw [le_div_iff₀ hscale, ← hdrop, List.map_drop, List.map_take]
    exact henough
  unfold candidateAt
  rw [hdrop]
  dsimp only
  rw [if_pos hscale, if_pos hnormalized]
  exact ⟨_, rfl, rfl⟩

/-- The first candidate of a clean step is the point where it is taken, and any other has a smaller delta. -/
theorem clean_step_detected (roots : Roots K) (series : MetricSeries K) (a b : K) (t u : Nat)
    (hvalues : series.points.map MetricPoint.value = step a b t u) (hab : a ≠ b) (m : Nat) (hlow : 3 ≤ m)
    (hhigh : m ≤ 100) (ht : m ≤ t) (hu : m ≤ u) (threshold : K) (hpos : 0 < threshold) (htwo : threshold ≤ 2) :
    ∃ result first rest point, metricChangePointDetect roots series m threshold = .ok result ∧
      result.candidates = first :: rest ∧ series.points[t]? = some point ∧ first.observedAt = point.observedAt ∧
      (∀ other ∈ rest, other.normalizedDelta < first.normalizedDelta) ∧ result.candidates.length ≤ 5 := by
  have hlength : series.points.length = t + u := by
    have hcount := congrArg List.length hvalues
    simpa [step] using hcount
  have ht' : 0 < t := by omega
  have hu' : 0 < u := by omega
  obtain ⟨hscale, hhalf⟩ := pstdev_step roots hab ht' hu'
  generalize hdeviation : pstdev roots (step a b t u) = scale at hscale hhalf
  obtain ⟨point, hpoint⟩ : ∃ point, series.points[t]? = some point :=
    ⟨_, List.getElem?_eq_getElem (show t < series.points.length by omega)⟩
  have hstep : 0 < |b - a| := abs_pos.mpr (sub_ne_zero.mpr hab.symm)
  have henough : threshold * scale ≤ |shift (series.points.map MetricPoint.value) t| := by
    rw [hvalues, shift_here ht' hu']
    exact le_trans (mul_le_mul_of_nonneg_right htwo (le_of_lt hscale)) hhalf
  obtain ⟨c, hc, htime⟩ := candidateAt_here hscale hpoint henough
  have hdelta : c.normalizedDelta = |b - a| / scale := by
    rw [candidateAt_some hscale hc, hvalues, shift_here ht' hu']
  -- The splits before and after the step, and the step among them.
  have hrange : List.range' m (t + u - m + 1 - m) =
      List.range' m (t - m) ++ t :: List.range' (t + 1) (u - m) := by
    rw [show t + u - m + 1 - m = (t - m) + (1 + (u - m)) by omega, ← List.range'_append_1, Nat.add_comm 1,
      List.range'_succ, show m + (t - m) = t by omega]
  have hother : ∀ i, m ≤ i → i < t + u → i ≠ t → ∀ other,
      candidateAt scale threshold series.points i = some other → other.normalizedDelta < c.normalizedDelta := by
    intro i hmi hi hne other hsome
    rw [candidateAt_some hscale hsome, hvalues, hdelta]
    exact div_lt_div_of_pos_right (shift_lt hab (by omega) hi ht' hu' hne) hscale
  have hothers : ∀ other ∈ (List.range' m (t - m)).filterMap (candidateAt scale threshold series.points) ++
      (List.range' (t + 1) (u - m)).filterMap (candidateAt scale threshold series.points),
      other.normalizedDelta < c.normalizedDelta := by
    intro other hmem
    obtain hmem | hmem := List.mem_append.mp hmem
    · obtain ⟨i, hi, hsome⟩ := List.mem_filterMap.mp hmem
      have hi := List.mem_range'_1.mp hi
      exact hother i (by omega) (by omega) (by omega) other hsome
    · obtain ⟨i, hi, hsome⟩ := List.mem_filterMap.mp hmem
      have hi := List.mem_range'_1.mp hi
      exact hother i (by omega) (by omega) (by omega) other hsome
  obtain ⟨rest, hsorted, hrest⟩ := first_of_ahead hothers
  refine ⟨⟨c :: rest.take 4, true⟩, c, rest.take 4, point, ?_, rfl, hpoint, htime,
    fun other hmem => hrest other (List.mem_of_mem_take hmem), ?_⟩
  · unfold metricChangePointDetect
    rw [if_neg (not_not_intro ⟨hlow, hhigh⟩),
      if_neg (not_not_intro ⟨hpos, le_trans htwo (by norm_num)⟩)]
    dsimp only
    rw [decide_eq_true (show m * 2 ≤ series.points.length by omega), if_pos rfl, hlength, hrange, hvalues, hdeviation,
      List.filterMap_append, List.filterMap_cons_some hc, hsorted, List.take_succ_cons]
  · rw [List.length_cons, List.length_take]
    omega

end Detect

noncomputable def realRoots : Roots ℝ where
  sqrt := Real.sqrt
  sqrt_nonneg := Real.sqrt_nonneg
  mul_self_sqrt := fun _ => Real.mul_self_sqrt

noncomputable def errorRatio : MetricSeries ℝ where
  evidenceRef := "evd_00000000000000000000000001"
  signalKind := "error_ratio"
  points := [⟨0, 1⟩, ⟨60, 1⟩, ⟨120, 1⟩, ⟨180, 3⟩, ⟨240, 3⟩, ⟨300, 3⟩, ⟨360, 3⟩]
  atLeast := by decide
  atMost := by decide
  chronological := by simp

theorem error_ratio_detected :
    ∃ result first rest point, metricChangePointDetect realRoots errorRatio 3 2 = .ok result ∧
      result.candidates = first :: rest ∧ errorRatio.points[3]? = some point ∧ first.observedAt = point.observedAt ∧
      (∀ other ∈ rest, other.normalizedDelta < first.normalizedDelta) ∧ result.candidates.length ≤ 5 :=
  clean_step_detected realRoots errorRatio 1 3 3 4 rfl (by norm_num) 3 (by decide) (by decide) (by decide) (by decide)
    2 (by norm_num) (le_refl 2)

end Solvan.Compute
