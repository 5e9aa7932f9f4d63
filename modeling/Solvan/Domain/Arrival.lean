import Solvan.Domain.Verification

/-! The verdict on a recovery does not depend on the order in which its samples arrived. -/
namespace Solvan.Verification

variable {V : Type u} {e : Evidence V} {samples : List (SignalSample V)} {signalKey : String}

/-- The same evidence, with the samples in another order. -/
def Evidence.reordered (e : Evidence V) (samples : List (SignalSample V)) : Evidence V :=
  { e with samples := samples }

theorem signalSamples_reordered (h : e.samples.Perm samples) :
    (e.signalSamples signalKey).Perm ((e.reordered samples).signalSamples signalKey) :=
  (List.perm_insertionSort _ _).trans ((h.filter _).trans (List.perm_insertionSort _ _).symm)

theorem inWindow_reordered (h : e.samples.Perm samples) :
    (e.inWindow signalKey).Perm ((e.reordered samples).inWindow signalKey) :=
  (signalSamples_reordered h).filter _

/-- The samples of a window come in the order of their times. -/
theorem inWindow_sorted : (e.inWindow signalKey).Pairwise (fun a b => a.observedAt ≤ b.observedAt) :=
  List.Pairwise.filter _ (List.pairwise_insertionSort _ _)

theorem inWindow_key {sample : SignalSample V} (h : sample ∈ e.inWindow signalKey) :
    sample.signalKey = signalKey := by
  have hsamples := (List.mem_insertionSort _).mp (List.mem_of_mem_filter h)
  simpa using (List.mem_filter.mp hsamples).2

/-- Where no two samples at one time disagree, the window is the same list in any order of arrival. -/
theorem inWindow_eq (h : e.samples.Perm samples) (hconsistent : Consistent (e.inWindow signalKey)) :
    e.inWindow signalKey = (e.reordered samples).inWindow signalKey := by
  refine List.Perm.eq_of_pairwise (fun a b ha hb hab hba => ?_) inWindow_sorted inWindow_sorted
    (inWindow_reordered h)
  have hb' := (inWindow_reordered h).mem_iff.mpr hb
  have htime : a.observedAt = b.observedAt := le_antisymm hab hba
  have hkey : a.signalKey = b.signalKey := (inWindow_key ha).trans (inWindow_key hb').symm
  have hvalue : a.value = b.value := hconsistent a ha b hb' htime
  obtain ⟨_, _, _⟩ := a
  obtain ⟨_, _, _⟩ := b
  simp only [SignalSample.mk.injEq]
  exact ⟨hkey, htime, hvalue⟩

theorem consistent_perm {window window' : List (SignalSample V)} (h : window.Perm window') :
    Consistent window ↔ Consistent window' := by
  unfold Consistent
  simp only [h.mem_iff]

variable [DecidableEq V]

theorem contradictory_perm {window window' : List (SignalSample V)} (h : window.Perm window') :
    contradictory window = contradictory window' := by
  have hsame := consistent_perm h
  rw [← contradictory_iff, ← contradictory_iff] at hsame
  cases hleft : contradictory window <;> cases hright : contradictory window' <;> simp_all

variable [LT V] [LE V] [DecidableLT V] [DecidableLE V]

/-- What is made of a requirement is made of it in any order of arrival: the last samples of the window are only
asked for where the window is one list. -/
theorem assess_reordered (h : e.samples.Perm samples) (r : SignalRequirement V) :
    (e.reordered samples).assess r = e.assess r := by
  have hsamples : ((e.reordered samples).signalSamples r.signalKey).isEmpty =
      (e.signalSamples r.signalKey).isEmpty := (signalSamples_reordered h).symm.isEmpty_eq
  have hwindow := @inWindow_reordered V e samples r.signalKey h
  unfold Evidence.assess
  simp only [hsamples, hwindow.symm.isEmpty_eq, hwindow.symm.length_eq, contradictory_perm hwindow.symm]
  cases hcontradictory : contradictory (e.inWindow r.signalKey) with
  | true => rfl
  | false => rw [inWindow_eq h (contradictory_iff.mp hcontradictory)]

/-- The verdict and its codes are the same in any order of arrival. -/
theorem evaluateVerification_reordered (h : e.samples.Perm samples) :
    evaluateVerification (e.reordered samples) = evaluateVerification e := by
  have hfindings : (e.reordered samples).findings = e.findings := by
    unfold Evidence.findings
    rw [show (e.reordered samples).assess = e.assess from funext (assess_reordered h)]
    rfl
  unfold evaluateVerification
  rw [hfindings]
  rfl

/-- Two samples of one time, before a later one that fails. -/
def tiedDelivery : Evidence Int where
  requirements := [⟨"http_5xx_ratio", .lte, 1, 2, ratio_named, two_positive⟩]
  samples := [⟨"http_5xx_ratio", 180, 0⟩, ⟨"http_5xx_ratio", 180, 0⟩, ⟨"http_5xx_ratio", 240, 2⟩]
  windowStart := 0
  windowEnd := 300
  syntheticReceipt := some ⟨300, true, true, "synthetic-1"⟩

theorem tied_delivery_reordered :
    evaluateVerification (tiedDelivery.reordered tiedDelivery.samples.reverse) = evaluateVerification tiedDelivery :=
  evaluateVerification_reordered (List.reverse_perm _).symm

end Solvan.Verification
