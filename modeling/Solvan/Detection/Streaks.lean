import Solvan.Detection.Rules
import Mathlib.Data.List.Chain

namespace Solvan.Detection

variable {rule : DetectionRule} {table table' : List Row} {run earlier : List DetectionEvaluation}
  {windowStart windowEnd : Int} {observed : Observed} {inserted sustained : Bool}

/-- A run, newest window first: every window matched, and neighbours are at
most one and a half intervals apart. -/
def IsRun (rule : DetectionRule) (run : List DetectionEvaluation) : Prop :=
  (∀ e ∈ run, e.thresholdMatched = true) ∧ run.IsChain (fun a b => rule.consecutive a b = true)

/-- The newest window is number `sustained_windows` of a run that no earlier
window extends. -/
def CompletesRun (rule : DetectionRule) (history : List DetectionEvaluation) : Prop :=
  ∃ run earlier, history = run ++ earlier ∧ run.length = rule.sustainedWindows ∧
    IsRun rule run ∧ ∀ e ∈ earlier.head?, ¬ IsRun rule (run ++ [e])

/-- A full run stands just behind a matching window that is too old to belong
to it. -/
def MaskedByGap (rule : DetectionRule) (history : List DetectionEvaluation) : Prop :=
  ∃ run e earlier, history = run ++ e :: earlier ∧ run.length = rule.sustainedWindows ∧
    IsRun rule run ∧ e.thresholdMatched = true ∧ ¬ IsRun rule (run ++ [e])

/-- Everything recorded for a rule, newest window first. -/
def history (table : List Row) (rule : DetectionRule) : List DetectionEvaluation :=
  ((table.filter (·.ofRule rule)).map Row.evaluation).reverse

/-- Tables in which one rule's windows arrived in increasing order of their
ends. Repeated ends and the calls of other rules may stand anywhere between. -/
inductive Recorded (rule : DetectionRule) : List Row → Prop where
  | fresh {table : List Row} (h : ∀ r ∈ table, r.ofRule rule = false) : Recorded rule table
  | record {table table' : List Row} {windowStart windowEnd : Int} {observed : Observed}
      {inserted sustained : Bool} (h : Recorded rule table)
      (later : ∀ r ∈ table, r.ofRule rule = true → r.evaluation.windowEnd ≤ windowEnd)
      (call : recordEvaluation table rule windowStart windowEnd observed =
        .ok (table', inserted, sustained)) : Recorded rule table'
  | other {table table' : List Row} {rule' : DetectionRule} {windowStart windowEnd : Int}
      {observed : Observed} {inserted sustained : Bool} (h : Recorded rule table)
      (apart : rule'.ruleId ≠ rule.ruleId ∨ rule'.version ≠ rule.version)
      (call : recordEvaluation table rule' windowStart windowEnd observed =
        .ok (table', inserted, sustained)) : Recorded rule table'

/-- All a successful call does: it decides the window, stores it unless its
end is taken, and reports the edge of what the look-back then finds. -/
theorem recordEvaluation_ok
    (h : recordEvaluation table rule windowStart windowEnd observed =
      .ok (table', inserted, sustained)) :
    ∃ matched, rule.matches observed = .ok matched ∧
      (∀ row, row = ⟨rule.ruleId, rule.version,
          ⟨windowStart, windowEnd, observed, matched⟩⟩ →
        (inserted = true ∧ table' = table ++ [row] ∧
          ∀ r ∈ table, r.ofRule rule = true → r.evaluation.windowEnd ≠ windowEnd) ∨
        (inserted = false ∧ table' = table)) ∧
      sustained = sustainedEdge rule (lookBack table' rule windowEnd (rule.sustainedWindows + 1)) := by
  unfold recordEvaluation at h
  cases hm : rule.matches observed with
  | error e => rw [hm] at h; cases h
  | ok matched =>
    rw [hm] at h
    by_cases hw : windowEnd < windowStart
    · simp [hw, bind, Except.bind, throw, throwThe, MonadExceptOf.throw] at h
    · simp only [bind, Except.bind, hw, ↓reduceIte, pure, Except.pure, Except.ok.injEq,
        Prod.mk.injEq] at h
      obtain ⟨ht, hi, hs⟩ := h
      refine ⟨matched, rfl, ?_, ?_⟩
      · rintro row rfl
        cases hk : table.any (fun r => r.ofRule rule && r.evaluation.windowEnd == windowEnd) with
        | true => right; simp_all
        | false =>
          left
          refine ⟨by simp_all, by simp_all, ?_⟩
          intro r hr ho he
          have := List.any_eq_false.mp hk r hr
          simp [ho, he] at this
      · rw [← hs, ht]

theorem filter_row (rule' : DetectionRule) (e : DetectionEvaluation) :
    List.filter (·.ofRule rule) [(⟨rule'.ruleId, rule'.version, e⟩ : Row)] =
      if rule'.ruleId = rule.ruleId ∧ rule'.version = rule.version then
        [⟨rule'.ruleId, rule'.version, e⟩] else [] := by
  by_cases h : rule'.ruleId = rule.ruleId ∧ rule'.version = rule.version
  · simp [Row.ofRule, h]
  · simp only [h, ↓reduceIte]
    simpa [Row.ofRule] using h

/-- Windows recorded in order are stored in order, each end once. -/
theorem Recorded.ascending (h : Recorded rule table) :
    (table.filter (·.ofRule rule)).Pairwise
      (fun a b => a.evaluation.windowEnd < b.evaluation.windowEnd) := by
  induction h with
  | fresh h => rw [List.filter_eq_nil_iff.mpr (by simpa using h)]; exact .nil
  | record h later call ih =>
    obtain ⟨matched, -, hcase, -⟩ := recordEvaluation_ok call
    rcases hcase _ rfl with ⟨-, rfl, hnew⟩ | ⟨-, rfl⟩
    · rw [List.filter_append, List.pairwise_append]
      simp only [filter_row, and_self, ↓reduceIte, List.mem_singleton]
      refine ⟨ih, List.pairwise_singleton _ _, ?_⟩
      rintro a ha b rfl
      obtain ⟨hm, ho⟩ := List.mem_filter.mp ha
      exact lt_of_le_of_ne (later a hm ho) (hnew a hm ho)
    · exact ih
  | other h apart call ih =>
    obtain ⟨matched, -, hcase, -⟩ := recordEvaluation_ok call
    rcases hcase _ rfl with ⟨-, rfl, -⟩ | ⟨-, rfl⟩
    · rw [List.filter_append, filter_row, if_neg (by tauto), List.append_nil]
      exact ih
    · exact ih

/-- Distinct keys leave a descending sort only one outcome. -/
theorem sort_descending {rows : List DetectionEvaluation}
    (h : rows.Pairwise (fun a b => a.windowEnd < b.windowEnd)) :
    rows.insertionSort NewerFirst = rows.reverse := by
  have hstrict : rows.reverse.Pairwise (fun a b => b.windowEnd < a.windowEnd) :=
    List.pairwise_reverse.mpr h
  have hinj : ∀ a ∈ rows, ∀ b ∈ rows, a.windowEnd = b.windowEnd → a = b :=
    fun a ha b hb he => List.inj_on_of_nodup_map
      ((List.pairwise_map.mpr h).imp (fun hlt => ne_of_lt hlt)) ha hb he
  have htotal : Std.Total NewerFirst := ⟨fun a b => le_total b.windowEnd a.windowEnd⟩
  have htrans : IsTrans _ NewerFirst := ⟨fun a b c hab hbc => le_trans hbc hab⟩
  have hweak : rows.reverse.Pairwise NewerFirst := hstrict.imp (fun h => le_of_lt h)
  refine List.Perm.eq_of_pairwise ?_ (List.pairwise_insertionSort NewerFirst rows) hweak ?_
  · intro a b ha hb hab hba
    exact hinj a ((List.mem_insertionSort _).mp ha) b (List.mem_reverse.mp hb)
      (le_antisymm hba hab)
  · exact (List.perm_insertionSort _ _).trans (List.reverse_perm _).symm

/-- The look-back of a table kept in order is the newest part of its history. -/
theorem lookBack_eq_take {count : Nat}
    (ordered : (table.filter (·.ofRule rule)).Pairwise
      (fun a b => a.evaluation.windowEnd < b.evaluation.windowEnd))
    (latest : ∀ r ∈ table, r.ofRule rule = true → r.evaluation.windowEnd ≤ windowEnd) :
    lookBack table rule windowEnd count = (history table rule).take count := by
  have hfilter : table.filter
      (fun r => r.ofRule rule && decide (r.evaluation.windowEnd ≤ windowEnd)) =
      table.filter (·.ofRule rule) := by
    apply List.filter_congr
    intro r hr
    cases ho : r.ofRule rule with
    | false => rfl
    | true => simpa using latest r hr ho
  unfold lookBack history
  simp only [hfilter, sort_descending (List.pairwise_map.mpr ordered)]

theorem zip_tail_all (p : α → α → Bool) (l : List α) :
    (l.zip l.tail).all (fun (a, b) => p a b) = true ↔ l.IsChain (fun a b => p a b = true) := by
  induction l with
  | nil => simp
  | cons a l ih =>
    cases l with
    | nil => simp
    | cons b l => simp [← ih]

/-- The streak test accepts exactly when the newest windows form a full run. -/
theorem sustainedStreak_iff {history : List DetectionEvaluation} :
    sustainedStreak rule history = true ↔
      rule.sustainedWindows ≤ history.length ∧
        IsRun rule (history.take rule.sustainedWindows) := by
  unfold sustainedStreak IsRun
  rw [← zip_tail_all]
  by_cases hl : history.length < rule.sustainedWindows
  · simp [hl]
  · cases hm : (history.take rule.sustainedWindows).all (·.thresholdMatched) with
    | false => simp_all
    | true => simp_all

/-- One window more than a run is all the edge looks at. -/
theorem sustainedEdge_take (history : List DetectionEvaluation) :
    sustainedEdge rule (history.take (rule.sustainedWindows + 1)) = sustainedEdge rule history := by
  have hs : sustainedStreak rule (history.take (rule.sustainedWindows + 1)) =
      sustainedStreak rule history := by
    rw [Bool.eq_iff_iff, sustainedStreak_iff, sustainedStreak_iff, List.take_take,
      Nat.min_eq_left (Nat.le_succ _), List.length_take]
    exact and_congr_left fun _ => by omega
  unfold sustainedEdge
  rw [hs, List.getElem?_take_of_lt (Nat.lt_succ_self _)]

/-- The edge in terms of runs: a full run with no matching window behind it. -/
theorem sustainedEdge_iff {history : List DetectionEvaluation} :
    sustainedEdge rule history = true ↔
      ∃ run earlier, history = run ++ earlier ∧ run.length = rule.sustainedWindows ∧
        IsRun rule run ∧ ∀ e ∈ earlier.head?, e.thresholdMatched = false := by
  have hprior : (history.drop rule.sustainedWindows).head? = history[rule.sustainedWindows]? :=
    List.head?_drop
  constructor
  · intro h
    simp only [sustainedEdge, Bool.and_eq_true, sustainedStreak_iff] at h
    obtain ⟨⟨hl, hr⟩, hp⟩ := h
    refine ⟨history.take rule.sustainedWindows, history.drop rule.sustainedWindows,
      (List.take_append_drop _ _).symm, by simpa using hl, hr, ?_⟩
    intro e he
    rw [hprior] at he
    simpa [Option.mem_def.mp he] using hp
  · rintro ⟨run, earlier, rfl, hl, hr, hp⟩
    simp only [sustainedEdge, Bool.and_eq_true, sustainedStreak_iff]
    rw [← hl, List.take_left, List.getElem?_append_right (le_refl _), Nat.sub_self]
    refine ⟨⟨by simp, hr⟩, ?_⟩
    cases earlier with
    | nil => rfl
    | cons e earlier => simpa using hp e rfl

/-- A call that stores a new last window finds it at the head of the history
and reports the edge of that history. -/
theorem Recorded.newest (h : Recorded rule table)
    (later : ∀ r ∈ table, r.ofRule rule = true → r.evaluation.windowEnd ≤ windowEnd)
    (call : recordEvaluation table rule windowStart windowEnd observed =
      .ok (table', true, sustained)) :
    sustained = sustainedEdge rule (history table' rule) := by
  obtain ⟨matched, -, hcase, hs⟩ := recordEvaluation_ok call
  have hlatest : ∀ r ∈ table', r.ofRule rule = true → r.evaluation.windowEnd ≤ windowEnd := by
    rcases hcase _ rfl with ⟨-, rfl, -⟩ | ⟨hfalse, -⟩
    · intro r hr ho
      rcases List.mem_append.mp hr with hr | hr
      · exact later r hr ho
      · rw [List.mem_singleton.mp hr]
    · cases hfalse
  rw [hs, lookBack_eq_take (h.record later call).ascending hlatest, sustainedEdge_take]

theorem isRun_append_matched {e : DetectionEvaluation} (h : IsRun rule (run ++ [e])) :
    e.thresholdMatched = true :=
  h.1 e (by simp)

/-- Each complete run is reported, and nothing else is, unless a window too
old to belong to the run matched just before it: there the run is missed. -/
theorem edge_reported_iff (h : Recorded rule table)
    (later : ∀ r ∈ table, r.ofRule rule = true → r.evaluation.windowEnd ≤ windowEnd)
    (call : recordEvaluation table rule windowStart windowEnd observed =
      .ok (table', true, sustained)) :
    (sustained = true ↔ CompletesRun rule (history table' rule)) ↔
      ¬ MaskedByGap rule (history table' rule) := by
  rw [h.newest later call]
  constructor
  · rintro hexact ⟨run, e, earlier, hh, hl, hr, hm, hn⟩
    have hc : CompletesRun rule (history table' rule) :=
      ⟨run, e :: earlier, hh, hl, hr, by simpa using hn⟩
    obtain ⟨run', earlier', hh', hl', -, hp⟩ := sustainedEdge_iff.mp (hexact.mpr hc)
    obtain ⟨rfl, rfl⟩ := List.append_inj (hh.symm.trans hh') (hl.trans hl'.symm)
    simp [hp e rfl] at hm
  · intro hmask
    rw [sustainedEdge_iff]
    constructor
    · rintro ⟨run, earlier, hh, hl, hr, hp⟩
      refine ⟨run, earlier, hh, hl, hr, ?_⟩
      intro e he hrun
      have hm := isRun_append_matched hrun
      simp [hp e he] at hm
    · rintro ⟨run, earlier, hh, hl, hr, hp⟩
      refine ⟨run, earlier, hh, hl, hr, ?_⟩
      intro e he
      cases hm : e.thresholdMatched with
      | false => rfl
      | true =>
        obtain ⟨rest, rfl⟩ : ∃ rest, earlier = e :: rest := List.head?_eq_some_iff.mp he
        exact absurd ⟨run, e, rest, hh, hl, hr, hm, hp e he⟩ hmask

section Example

def twoWindows : DetectionRule :=
  ⟨"rule", 1, 20000, .gt, 5, 2, by decide, by decide, by decide⟩

def window (second : Int) : DetectionEvaluation :=
  ⟨(second - 20) * 1000000, second * 1000000, .finite 9, true⟩

def storedWindows (seconds : List Int) : List Row :=
  seconds.map (fun second => ⟨"rule", 1, window second⟩)

theorem recorded_zero : Recorded twoWindows (storedWindows [0]) := by
  have call : recordEvaluation [] twoWindows (-20000000) 0 (.finite 9) =
      .ok (storedWindows [0], true, false) := by decide
  exact .record (.fresh (by simp)) (by simp) call

theorem recorded_gap : Recorded twoWindows (storedWindows [0, 100]) := by
  have call : recordEvaluation (storedWindows [0]) twoWindows 80000000 100000000 (.finite 9) =
      .ok (storedWindows [0, 100], true, false) := by decide
  exact .record recorded_zero (by decide) call

/-- Matches at 0 s, 100 s and 120 s with a 20 s interval: the last completes a
run of two that the match at 0 s does not belong to, and it is not reported. -/
theorem run_after_gap_missed :
    ¬ ∀ (rule : DetectionRule) (table table' : List Row) (windowStart windowEnd : Int)
      (observed : Observed) (sustained : Bool), Recorded rule table →
      (∀ r ∈ table, r.ofRule rule = true → r.evaluation.windowEnd ≤ windowEnd) →
      recordEvaluation table rule windowStart windowEnd observed = .ok (table', true, sustained) →
      (sustained = true ↔ CompletesRun rule (history table' rule)) := by
  intro h
  have hiff := h twoWindows _ (storedWindows [0, 100, 120]) 100000000 120000000 (.finite 9) false
    recorded_gap (by decide) (by decide)
  have hc : CompletesRun twoWindows (history (storedWindows [0, 100, 120]) twoWindows) :=
    ⟨[window 120, window 100], [window 0], by decide, rfl,
      by unfold IsRun; decide, by unfold IsRun; decide⟩
  exact absurd (hiff.mpr hc) (by decide)

/-- The same rule reports a run with nothing matching before it. -/
theorem edge_reported_fresh_run :
    (true = true ↔ CompletesRun twoWindows (history (storedWindows [0, 20]) twoWindows)) ↔
      ¬ MaskedByGap twoWindows (history (storedWindows [0, 20]) twoWindows) := by
  have call : recordEvaluation (storedWindows [0]) twoWindows 0 20000000 (.finite 9) =
      .ok (storedWindows [0, 20], true, true) := by decide
  exact edge_reported_iff recorded_zero (by decide) call

end Example

end Solvan.Detection
