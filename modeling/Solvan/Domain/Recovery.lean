import Solvan.Domain.Verification

/-! What a verdict of recovery rests on, and when that is what it is to rest on. -/
namespace Solvan.Verification

variable {V : Type u} {e : Evidence V} {r : SignalRequirement V}

theorem dedup_append_filter {α : Type v} [DecidableEq α] (xs ys : List α) :
    (xs ++ ys).dedup = (xs.filter (fun x => decide (x ∉ ys))).dedup ++ ys.dedup := by
  induction xs with
  | nil => rfl
  | cons x xs ih =>
    by_cases hlater : x ∈ xs ++ ys
    · rw [List.cons_append, List.dedup_cons_of_mem hlater, ih]
      by_cases hys : x ∈ ys
      · simp [hys]
      · have hxs : x ∈ xs.filter (fun x => decide (x ∉ ys)) :=
          List.mem_filter.mpr ⟨(List.mem_append.mp hlater).resolve_right hys, by simpa using hys⟩
        rw [List.filter_cons_of_pos (by simpa using hys), List.dedup_cons_of_mem hxs]
    · rw [List.mem_append, not_or] at hlater
      have hxs : x ∉ xs.filter (fun x => decide (x ∉ ys)) := fun hx => hlater.1 (List.mem_filter.mp hx).1
      rw [List.cons_append, List.dedup_cons_of_notMem (by simpa using hlater), ih,
        List.filter_cons_of_pos (by simpa using hlater.2), List.dedup_cons_of_notMem hxs, List.cons_append]

theorem latest_append {α : Type v} {count : Nat} {xs ys : List α} (hle : ys.length ≤ count)
    (henough : count - ys.length ≤ xs.length) :
    latest count (xs ++ ys) = latest (count - ys.length) xs ++ ys := by
  have hdrop : (xs ++ ys).length - count = xs.length - (count - ys.length) := by
    rw [List.length_append]
    omega
  rw [latest, latest, hdrop, List.drop_append_of_le_length (Nat.sub_le _ _)]

/-- The times in the window are in the order of time. -/
theorem times_ascending (signalKey : String) : (times (e.inWindow signalKey)).Pairwise (· < ·) := by
  have htotal : Std.Total (fun a b : SignalSample V => a.observedAt ≤ b.observedAt) :=
    ⟨fun a b => le_total _ _⟩
  have htrans : IsTrans (SignalSample V) (fun a b => a.observedAt ≤ b.observedAt) := ⟨fun _ _ _ => le_trans⟩
  have hsorted : (e.inWindow signalKey).Pairwise (fun a b => a.observedAt ≤ b.observedAt) :=
    List.Pairwise.filter _ (List.pairwise_insertionSort _ _)
  have hweak : (times (e.inWindow signalKey)).Pairwise (· ≤ ·) :=
    (List.pairwise_map.mpr hsorted).sublist (List.dedup_sublist _)
  exact hweak.imp₂ (fun _ _ hle hne => lt_of_le_of_ne hle hne) (List.nodup_dedup _)

/-- The last deliveries that count towards a requirement. -/
def Evidence.counted (e : Evidence V) (r : SignalRequirement V) : List (SignalSample V) :=
  latest r.sustainedSamples (e.inWindow r.signalKey)

/-- The samples in the window at none of the times of these. -/
def Evidence.older (e : Evidence V) (r : SignalRequirement V) : List (SignalSample V) :=
  (e.inWindow r.signalKey).filter (fun sample =>
    decide (sample.observedAt ∉ (e.counted r).map SignalSample.observedAt))

/-- How many of the last deliveries repeat a time. -/
def Evidence.repeats (e : Evidence V) (r : SignalRequirement V) : Nat :=
  r.sustainedSamples - (times (e.counted r)).length

/-- The times in the window are those of the last deliveries and, before them, those of
the older samples. -/
theorem times_split : times (e.inWindow r.signalKey) = times (e.older r) ++ times (e.counted r) := by
  have hsplit := List.take_append_drop ((e.inWindow r.signalKey).length - r.sustainedSamples)
    (e.inWindow r.signalKey)
  have hcounted : (e.inWindow r.signalKey).drop
      ((e.inWindow r.signalKey).length - r.sustainedSamples) = e.counted r := rfl
  rw [hcounted] at hsplit
  have holder : (e.older r).map SignalSample.observedAt =
      (((e.inWindow r.signalKey).take ((e.inWindow r.signalKey).length - r.sustainedSamples)).map
        SignalSample.observedAt).filter
          (fun at_ => decide (at_ ∉ (e.counted r).map SignalSample.observedAt)) := by
    rw [List.filter_map, Evidence.older]
    conv_lhs => rw [← hsplit, List.filter_append]
    have hnone : (e.counted r).filter (fun sample =>
        decide (sample.observedAt ∉ (e.counted r).map SignalSample.observedAt)) = [] :=
      List.filter_eq_nil_iff.mpr (fun sample hsample => by simpa using ⟨sample, hsample, rfl⟩)
    rw [hnone, List.append_nil]
    rfl
  conv_lhs => rw [times, ← hsplit, List.map_append, dedup_append_filter]
  rw [times, times, holder]

theorem counted_times_le (h : r.sustainedSamples ≤ (e.inWindow r.signalKey).length) :
    (times (e.counted r)).length ≤ r.sustainedSamples := by
  have hdedup := (List.dedup_sublist ((e.counted r).map SignalSample.observedAt)).length_le
  have hcounted : (e.counted r).length = r.sustainedSamples := by
    rw [Evidence.counted, latest, List.length_drop]
    omega
  rw [List.length_map, hcounted] at hdedup
  exact hdedup

section recovery

variable [LT V] [LE V] [DecidableLT V] [DecidableLE V]

/-- What a verdict of recovery is to rest on: enough times of observation, the latest of
them all good. -/
structure Evidence.Sustained (e : Evidence V) (r : SignalRequirement V) : Prop where
  enough : r.sustainedSamples ≤ (times (e.inWindow r.signalKey)).length
  good : ∀ sample ∈ e.inWindow r.signalKey,
    sample.observedAt ∈ latest r.sustainedSamples (times (e.inWindow r.signalKey)) →
      r.accepts sample = true
  consistent : Consistent (e.inWindow r.signalKey)

def Evidence.Recovered (e : Evidence V) : Prop := (∀ r ∈ e.requirements, e.Sustained r) ∧ e.Probed

/-- For every repeat there is one more time of observation before, and all of these are
good. -/
def Evidence.Covered (e : Evidence V) (r : SignalRequirement V) : Prop :=
  e.repeats r ≤ (times (e.older r)).length ∧
    ∀ sample ∈ e.older r, sample.observedAt ∈ latest (e.repeats r) (times (e.older r)) →
      r.accepts sample = true

/-- Good deliveries are good observations exactly where older ones make up for the
repeats. -/
theorem sustained_iff (h : e.Delivered r) : e.Sustained r ↔ e.Covered r := by
  have hle := counted_times_le h.enough
  have hlength : (times (e.inWindow r.signalKey)).length =
      (times (e.older r)).length + (times (e.counted r)).length := by
    rw [times_split, List.length_append]
  constructor
  · rintro ⟨henough, hgood, -⟩
    have hspare : e.repeats r ≤ (times (e.older r)).length := by
      unfold Evidence.repeats
      omega
    refine ⟨hspare, fun sample hsample htime => hgood sample (List.mem_filter.mp hsample).1 ?_⟩
    rw [times_split, latest_append hle hspare]
    exact List.mem_append_left _ htime
  · rintro ⟨hspare, hgood⟩
    refine ⟨?_, fun sample hsample htime => ?_, h.consistent⟩
    · unfold Evidence.repeats at hspare
      omega
    · rw [times_split, latest_append hle hspare] at htime
      rcases List.mem_append.mp htime with hold | hlast
      · -- A time of an older sample is none of the last deliveries'.
        obtain ⟨other, hother, hsame⟩ := mem_times.mp (mem_latest hold)
        refine hgood sample (List.mem_filter.mpr ⟨hsample, ?_⟩) hold
        rw [← hsame]
        exact (List.mem_filter.mp hother).2
      · obtain ⟨last, hlast, hsame⟩ := mem_times.mp hlast
        have hvalue := h.consistent last (mem_latest hlast) sample hsample hsame
        have haccepted := h.good last hlast
        unfold SignalRequirement.accepts at haccepted ⊢
        rwa [hvalue] at haccepted

/-- Without repeats among the last deliveries there is nothing to make up for. -/
theorem covered_of_distinct (h : r.sustainedSamples ≤ (e.inWindow r.signalKey).length)
    (hdistinct : ((e.counted r).map SignalSample.observedAt).Nodup) : e.Covered r := by
  have hrepeats : e.repeats r = 0 := by
    rw [Evidence.repeats, times, List.Nodup.dedup hdistinct, List.length_map, Evidence.counted, latest,
      List.length_drop]
    omega
  refine ⟨hrepeats ▸ Nat.zero_le _, fun sample _ htime => ?_⟩
  rw [hrepeats, latest, Nat.sub_zero, List.drop_length] at htime
  cases htime

/-- A verdict of recovery rests on sustained observations exactly if, where every check
passes, older observations make up for the repeats among the last deliveries. -/
theorem verified_recovered_iff [DecidableEq V] (e : Evidence V) :
    (e.verified → e.Recovered) ↔ (e.Passing → ∀ r ∈ e.requirements, e.Covered r) := by
  rw [verified_iff]
  refine forall_congr' (fun h => ?_)
  constructor
  · exact fun hrecovered r hr => (sustained_iff (h.delivered r hr)).mp (hrecovered.1 r hr)
  · exact fun hcovered =>
      ⟨fun r hr => (sustained_iff (h.delivered r hr)).mpr (hcovered r hr), h.probed⟩

end recovery

/-- One observation, delivered twice, for a signal that has to be good for two samples. -/
def repeatedDelivery : Evidence Int where
  requirements := [⟨"http_5xx_ratio", .lte, 1, 2, ratio_named, two_positive⟩]
  samples := [⟨"http_5xx_ratio", 180, 0⟩, ⟨"http_5xx_ratio", 180, 0⟩]
  windowStart := 0
  windowEnd := 300
  syntheticReceipt := some ⟨300, true, true, "synthetic-1"⟩

/-- The observation's second delivery counts as a second sample. -/
theorem repeated_delivery_verified :
    evaluateVerification repeatedDelivery = .ok ⟨.verified, ["ALL_REQUIRED_SIGNALS_PASSED"]⟩ ∧
      ¬repeatedDelivery.Recovered := by
  refine ⟨by decide, fun hrecovered => ?_⟩
  have henough := (hrecovered.1 _ List.mem_cons_self).enough
  revert henough
  decide

end Solvan.Verification
