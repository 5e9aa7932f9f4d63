import Mathlib.Data.List.Sort
import Mathlib.Data.Rat.Defs
import Solvan.Domain.Values

namespace Solvan.Detection

inductive Comparator where
  | gt | gte | lt | lte
deriving DecidableEq, Repr

/-- A double as the comparison sees it. A finite one is its exact rational. -/
inductive Observed where
  | finite (value : Rat)
  | infinite (negative : Bool)
  | nan
deriving DecidableEq, Repr

inductive DetectionError where
  | observedNotFinite
  | windowReversed
deriving DecidableEq, Repr

/-- The fields of a rule that deciding and counting windows reads, with the
bounds its constructor enforces. -/
structure DetectionRule where
  ruleId : String
  version : Nat
  evaluationIntervalMs : Nat
  comparator : Comparator
  threshold : Rat
  sustainedWindows : Nat
  version_pos : 1 ≤ version
  windows_pos : 1 ≤ sustainedWindows
  interval_bounds : 20000 ≤ evaluationIntervalMs ∧ evaluationIntervalMs ≤ 30000

/-- `DetectionRule.matches` -/
def DetectionRule.matches (rule : DetectionRule) : Observed → Except DetectionError Bool
  | .finite value => .ok <|
      match rule.comparator with
      | .gt => decide (value > rule.threshold)
      | .gte => decide (value ≥ rule.threshold)
      | .lt => decide (value < rule.threshold)
      | .lte => decide (value ≤ rule.threshold)
  | _ => .error .observedNotFinite

structure DetectionEvaluation where
  windowStart : Int
  windowEnd : Int
  observedValue : Observed
  thresholdMatched : Bool
deriving DecidableEq, Repr

/-- `timedelta(milliseconds=evaluation_interval_ms * 1.5)`, in microseconds. -/
def DetectionRule.maximumGap (rule : DetectionRule) : Int := rule.evaluationIntervalMs * 1500

/-- The gap test between two neighbours of a newest-first list. -/
def DetectionRule.consecutive (rule : DetectionRule) (newer older : DetectionEvaluation) : Bool :=
  decide (0 < newer.windowEnd - older.windowEnd) &&
    decide (newer.windowEnd - older.windowEnd ≤ rule.maximumGap)

/-- `sustained_streak` -/
def sustainedStreak (rule : DetectionRule) (newestFirst : List DetectionEvaluation) : Bool :=
  if newestFirst.length < rule.sustainedWindows then false
  else
    let selected := newestFirst.take rule.sustainedWindows
    if !selected.all (·.thresholdMatched) then false
    else (selected.zip selected.tail).all (fun (newer, older) => rule.consecutive newer older)

/-- A row of `detection_evaluations`. -/
structure Row where
  ruleId : String
  ruleVersion : Nat
  evaluation : DetectionEvaluation
deriving DecidableEq, Repr

def Row.ofRule (rule : DetectionRule) (row : Row) : Bool :=
  row.ruleId == rule.ruleId && row.ruleVersion == rule.version

/-- `ORDER BY window_end DESC` -/
def NewerFirst (a b : DetectionEvaluation) : Prop := b.windowEnd ≤ a.windowEnd

instance : DecidableRel NewerFirst := fun a b => inferInstanceAs (Decidable (b.windowEnd ≤ a.windowEnd))

/-- The look-back query: rows of the rule up to `windowEnd`, newest first. -/
def lookBack (table : List Row) (rule : DetectionRule) (windowEnd : Int) (count : Nat) :
    List DetectionEvaluation :=
  let rows := table.filter (fun r => r.ofRule rule && decide (r.evaluation.windowEnd ≤ windowEnd))
  ((rows.map Row.evaluation).insertionSort NewerFirst).take count

/-- The edge `record_evaluation` reports: a streak now, and no match just before it. -/
def sustainedEdge (rule : DetectionRule) (evaluations : List DetectionEvaluation) : Bool :=
  let sustained := sustainedStreak rule evaluations
  let priorWasMatched :=
    match evaluations[rule.sustainedWindows]? with
    | some prior => prior.thresholdMatched
    | none => false
  sustained && !priorWasMatched

/-- `record_evaluation`: the table afterwards, and `(inserted, sustained)`. -/
def recordEvaluation (table : List Row) (rule : DetectionRule)
    (windowStart windowEnd : Int) (observedValue : Observed) :
    Except DetectionError (List Row × Bool × Bool) := do
  let matched ← rule.matches observedValue
  -- CHECK (window_end >= window_start) is enforced before ON CONFLICT is looked at
  if windowEnd < windowStart then throw .windowReversed
  let taken := table.any (fun r => r.ofRule rule && r.evaluation.windowEnd == windowEnd)
  let row : Row := ⟨rule.ruleId, rule.version, ⟨windowStart, windowEnd, observedValue, matched⟩⟩
  let table' := if taken then table else table ++ [row]
  let evaluations := lookBack table' rule windowEnd (rule.sustainedWindows + 1)
  return (table', !taken, sustainedEdge rule evaluations)

end Solvan.Detection
