import Mathlib.Data.List.Dedup
import Mathlib.Data.List.Sort

/-! The verdict on a recovery: what the signals and the synthetic probe have to show.
Values are whatever the comparators compare; no law is asked of these. -/
namespace Solvan.Verification

inductive Comparator where
  | gt | gte | lt | lte
deriving DecidableEq, Repr

inductive VerificationVerdict where
  | verified | failed | inconclusive
deriving DecidableEq, Repr

structure SignalRequirement (V : Type u) where
  signalKey : String
  comparator : Comparator
  threshold : V
  sustainedSamples : Nat
  named : signalKey ≠ ""
  positive : 1 ≤ sustainedSamples

theorem ratio_named : "http_5xx_ratio" ≠ "" := by decide

theorem two_positive : 1 ≤ 2 := by decide

structure SignalSample (V : Type u) where
  signalKey : String
  observedAt : Int
  value : V

structure SyntheticReceipt where
  observedAt : Int
  succeeded : Bool
  isolatedFixture : Bool
  idempotencyKey : String
deriving DecidableEq, Repr

structure VerificationResult where
  verdict : VerificationVerdict
  rationaleCodes : List String
deriving DecidableEq, Repr

/-- What `evaluate_verification` is given. -/
structure Evidence (V : Type u) where
  requirements : List (SignalRequirement V)
  samples : List (SignalSample V)
  windowStart : Int
  windowEnd : Int
  syntheticReceipt : Option SyntheticReceipt

/-- What comes of one requirement, or of the receipt. -/
inductive Finding where
  | met
  | inconclusive (code : String)
  | failure (code : String)
deriving DecidableEq, Repr

def Finding.inconclusive? : Finding → Option String
  | .inconclusive code => some code
  | _ => none

def Finding.failure? : Finding → Option String
  | .failure code => some code
  | _ => none

variable {V : Type u} {e : Evidence V} {window : List (SignalSample V)}

/-- The last so many of a list. -/
def latest {α : Type v} (count : Nat) (l : List α) : List α := l.drop (l.length - count)

/-- The observation times of some samples, each once. -/
def times (samples : List (SignalSample V)) : List Int := (samples.map SignalSample.observedAt).dedup

/-- The samples of a signal, by time of observation. -/
def Evidence.signalSamples (e : Evidence V) (signalKey : String) : List (SignalSample V) :=
  (e.samples.filter (fun sample => sample.signalKey == signalKey)).insertionSort
    (fun a b => a.observedAt ≤ b.observedAt)

def Evidence.within (e : Evidence V) (at_ : Int) : Bool :=
  decide (e.windowStart ≤ at_) && decide (at_ ≤ e.windowEnd)

def Evidence.inWindow (e : Evidence V) (signalKey : String) : List (SignalSample V) :=
  (e.signalSamples signalKey).filter (fun sample => e.within sample.observedAt)

/-- A receipt of a probe that succeeded in the window. -/
def Evidence.Probed (e : Evidence V) : Prop :=
  ∃ receipt, e.syntheticReceipt = some receipt ∧ e.within receipt.observedAt = true ∧
    receipt.isolatedFixture = true ∧ receipt.idempotencyKey ≠ "" ∧ receipt.succeeded = true

/-- What `evaluate_verification` makes of the receipt. -/
def Evidence.assessReceipt (e : Evidence V) : Finding :=
  match e.syntheticReceipt with
  | none => .inconclusive "SYNTHETIC_MISSING"
  | some receipt =>
    if !e.within receipt.observedAt then .inconclusive "SYNTHETIC_STALE"
    else if !receipt.isolatedFixture || receipt.idempotencyKey == "" then
      .inconclusive "SYNTHETIC_INVALID"
    else if !receipt.succeeded then .failure "SYNTHETIC_FAILED"
    else .met

theorem receipt_met_iff : e.assessReceipt = .met ↔ e.Probed := by
  unfold Evidence.assessReceipt Evidence.Probed
  cases e.syntheticReceipt with
  | none => simp
  | some receipt =>
    constructor
    · intro h
      simp only at h
      split_ifs at h with hwithin hvalid hsucceeded
      simp only [Bool.or_eq_true, Bool.not_eq_true', beq_iff_eq, not_or, Bool.not_eq_false] at *
      exact ⟨receipt, rfl, hwithin, hvalid.1, hvalid.2, hsucceeded⟩
    · rintro ⟨_, heq, hwithin, hisolated, hkey, hsucceeded⟩
      cases heq
      simp [hwithin, hisolated, hkey, hsucceeded]

theorem findings_met_iff {findings : List Finding} :
    findings.filterMap Finding.inconclusive? = [] ∧ findings.filterMap Finding.failure? = [] ↔
      ∀ finding ∈ findings, finding = .met := by
  rw [List.filterMap_eq_nil_iff, List.filterMap_eq_nil_iff, ← forall₂_and]
  refine forall₂_congr (fun finding _ => ?_)
  cases finding <;> simp [Finding.inconclusive?, Finding.failure?]

theorem mem_latest {α : Type v} {count : Nat} {l : List α} {a : α} (h : a ∈ latest count l) : a ∈ l :=
  List.mem_of_mem_drop h

theorem mem_times {at_ : Int} : at_ ∈ times window ↔ ∃ sample ∈ window, sample.observedAt = at_ := by
  rw [times, List.mem_dedup, List.mem_map]

/-- No two samples at one time disagree. -/
def Consistent (window : List (SignalSample V)) : Prop :=
  ∀ a ∈ window, ∀ b ∈ window, a.observedAt = b.observedAt → a.value = b.value

section verdict

variable [DecidableEq V]

/-- Some time has more than one value. -/
def contradictory (window : List (SignalSample V)) : Bool :=
  (times window).any (fun at_ =>
    decide (1 < ((window.filter (fun sample => sample.observedAt == at_)).map
      SignalSample.value).dedup.length))

theorem dedup_length_le_one {α : Type v} [DecidableEq α] {l : List α} :
    l.dedup.length ≤ 1 ↔ ∀ a ∈ l, ∀ b ∈ l, a = b := by
  constructor
  · intro hlength a ha b hb
    rw [← List.mem_dedup] at ha hb
    match hdedup : l.dedup with
    | [] =>
      rw [hdedup] at ha
      cases ha
    | [c] =>
      rw [hdedup, List.mem_singleton] at ha hb
      rw [ha, hb]
    | c :: d :: rest =>
      rw [hdedup] at hlength
      simp at hlength
  · intro hall
    match hdedup : l.dedup with
    | [] => exact Nat.zero_le _
    | [c] => exact le_rfl
    | c :: d :: rest =>
      have hnodup := List.nodup_dedup l
      rw [hdedup] at hnodup
      have hsame := hall c (List.mem_dedup.mp (hdedup ▸ List.mem_cons_self)) d
        (List.mem_dedup.mp (hdedup ▸ List.mem_cons_of_mem _ List.mem_cons_self))
      exact absurd (hsame ▸ List.mem_cons_self) (List.nodup_cons.mp hnodup).1

theorem contradictory_iff : contradictory window = false ↔ Consistent window := by
  unfold contradictory
  simp only [List.any_eq_false, decide_eq_true_eq, not_lt, dedup_length_le_one, List.mem_map,
    List.mem_filter, beq_iff_eq]
  constructor
  · intro h a ha b hb htime
    exact h a.observedAt (mem_times.mpr ⟨a, ha, rfl⟩) _ ⟨a, ⟨ha, rfl⟩, rfl⟩ _ ⟨b, ⟨hb, htime.symm⟩, rfl⟩
  · rintro h at_ - _ ⟨a, ⟨ha, rfl⟩, rfl⟩ _ ⟨b, ⟨hb, htime⟩, rfl⟩
    exact h a ha b hb htime.symm

variable [LT V] [LE V] [DecidableLT V] [DecidableLE V] {r : SignalRequirement V}

/-- `_compare` -/
def compare (value : V) (comparator : Comparator) (threshold : V) : Bool :=
  match comparator with
  | .gt => decide (threshold < value)
  | .gte => decide (threshold ≤ value)
  | .lt => decide (value < threshold)
  | .lte => decide (value ≤ threshold)

/-- Whether a sample is what a requirement wants. -/
def SignalRequirement.accepts (r : SignalRequirement V) (sample : SignalSample V) : Bool :=
  compare sample.value r.comparator r.threshold

/-- What the loop of `evaluate_verification` makes of a requirement. -/
def Evidence.assess (e : Evidence V) (r : SignalRequirement V) : Finding :=
  let inWindow := e.inWindow r.signalKey
  if (e.signalSamples r.signalKey).isEmpty then .inconclusive ("MISSING:" ++ r.signalKey)
  else if inWindow.isEmpty then .inconclusive ("STALE:" ++ r.signalKey)
  else if contradictory inWindow then .inconclusive ("CONTRADICTORY:" ++ r.signalKey)
  else if inWindow.length < r.sustainedSamples then .inconclusive ("INSUFFICIENT:" ++ r.signalKey)
  else if !(latest r.sustainedSamples inWindow).all r.accepts then
    .failure ("THRESHOLD_FAILED:" ++ r.signalKey)
  else .met

def Evidence.findings (e : Evidence V) : List Finding := e.requirements.map e.assess ++ [e.assessReceipt]

/-- `evaluate_verification`, or the text of the `VerificationError` it raises. -/
def evaluateVerification (e : Evidence V) : Except String VerificationResult :=
  if e.windowEnd ≤ e.windowStart then .error "verification window must have positive duration"
  else if e.requirements.isEmpty then .error "verification requires at least one signal"
  else
    let inconclusive := e.findings.filterMap Finding.inconclusive?
    let failures := e.findings.filterMap Finding.failure?
    if !inconclusive.isEmpty then .ok ⟨.inconclusive, inconclusive ++ failures⟩
    else if !failures.isEmpty then .ok ⟨.failed, failures⟩
    else .ok ⟨.verified, ["ALL_REQUIRED_SIGNALS_PASSED"]⟩

def Evidence.verified (e : Evidence V) : Prop :=
  ∃ codes, evaluateVerification e = .ok ⟨.verified, codes⟩

/-- What the verdict does rest on: enough deliveries, the last of them all good. -/
structure Evidence.Delivered (e : Evidence V) (r : SignalRequirement V) : Prop where
  enough : r.sustainedSamples ≤ (e.inWindow r.signalKey).length
  good : ∀ sample ∈ latest r.sustainedSamples (e.inWindow r.signalKey), r.accepts sample = true
  consistent : Consistent (e.inWindow r.signalKey)

structure Evidence.Passing (e : Evidence V) : Prop where
  positive : e.windowStart < e.windowEnd
  required : e.requirements ≠ []
  delivered : ∀ r ∈ e.requirements, e.Delivered r
  probed : e.Probed

/-- A requirement is met by enough deliveries of which the last are good. -/
theorem assess_met_iff : e.assess r = .met ↔ e.Delivered r := by
  unfold Evidence.assess
  constructor
  · intro h
    simp only at h
    split_ifs at h with _ _ hcontradictory hshort hbad
    refine ⟨not_lt.mp hshort, ?_, contradictory_iff.mp (by simpa using hcontradictory)⟩
    simpa using hbad
  · intro h
    have hlength := h.enough
    have hpositive := r.positive
    have hwindow : (e.inWindow r.signalKey).isEmpty = false := by
      rw [List.isEmpty_eq_false_iff, ← List.length_pos_iff]
      omega
    have hsamples : (e.signalSamples r.signalKey).isEmpty = false := by
      rw [List.isEmpty_eq_false_iff] at hwindow ⊢
      intro hnone
      rw [Evidence.inWindow, hnone] at hwindow
      exact hwindow rfl
    have hgood : (latest r.sustainedSamples (e.inWindow r.signalKey)).all r.accepts = true :=
      List.all_eq_true.mpr h.good
    simp [hsamples, hwindow, contradictory_iff.mpr h.consistent, not_lt.mpr hlength, hgood]

/-- The verdict of recovery is given exactly where nothing is found against it. -/
theorem verified_iff : e.verified ↔ e.Passing := by
  have hmet : (∀ finding ∈ e.findings, finding = .met) ↔
      (∀ r ∈ e.requirements, e.Delivered r) ∧ e.Probed := by
    simp only [Evidence.findings, List.mem_append, List.mem_map, List.mem_singleton]
    constructor
    · intro h
      exact ⟨fun r hr => assess_met_iff.mp (h _ (.inl ⟨r, hr, rfl⟩)), receipt_met_iff.mp (h _ (.inr rfl))⟩
    · rintro ⟨hdelivered, hprobed⟩ finding (⟨r, hr, rfl⟩ | rfl)
      · exact assess_met_iff.mpr (hdelivered r hr)
      · exact receipt_met_iff.mpr hprobed
  rw [← findings_met_iff] at hmet
  unfold Evidence.verified evaluateVerification
  constructor
  · rintro ⟨codes, h⟩
    simp only at h
    split_ifs at h with hwindow hrequired hinconclusive hfailures
    · cases h
    · cases h
    · obtain ⟨hdelivered, hprobed⟩ := hmet.mp ⟨by simpa using hinconclusive, by simpa using hfailures⟩
      exact ⟨not_le.mp hwindow, by simpa using hrequired, hdelivered, hprobed⟩
  · rintro ⟨hwindow, hrequired, hdelivered, hprobed⟩
    obtain ⟨hinconclusive, hfailures⟩ := hmet.mpr ⟨hdelivered, hprobed⟩
    refine ⟨["ALL_REQUIRED_SIGNALS_PASSED"], ?_⟩
    simp [not_le.mpr hwindow, hrequired, hinconclusive, hfailures]

end verdict

end Solvan.Verification
