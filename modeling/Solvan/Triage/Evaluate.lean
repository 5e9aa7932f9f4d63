import Solvan.Base.Json.Text
import Solvan.Base.Kleene
import Solvan.Base.Unfold
import Solvan.Triage.Expression

/-! Alert predicates: what an accepted expression comes to on what is known. -/
namespace Solvan.Triage

/-- A value of a source field or of a fact. -/
inductive Value where
  | none
  | bool (b : Bool)
  | int (n : Int)
  | float (x : Double)
  | str (s : String)
  | datetime (d : Datetime)
  | tuple (items : List Value)
  | mapping (fields : List (String × Value))
  /-- A value of another type. -/
  | other

abbrev Mapping := List (String × Value)

inductive Verdict where
  | true | false | inconclusive
deriving DecidableEq, Repr

structure FactFields where
  recordId : String
  recordKind : String
  recordHash : String
  values : Mapping

/-- `PredicateFact`, with what `__post_init__` asks of it -/
structure PredicateFact extends FactFields where
  identified : recordId ≠ "" ∧ recordKind ≠ ""
  typed : "sha256:".toList <+: recordHash.toList ∧ recordHash.length = 71

/-- `committed_facts`, by node ID -/
abbrev Facts := String → Option PredicateFact

structure NodeResult where
  nodeId : String
  kind : NodeKind
  verdict : Verdict
  reasonCode : String
  inputRefs : List String
  inputHash : String
deriving DecidableEq, Repr

structure Evaluation where
  verdict : Verdict
  onInconclusive : OnInconclusive
  nodeResults : List NodeResult
deriving DecidableEq, Repr

/-- What the code asks of the language: the hash of a JSON text with sorted keys, and the
times that texts stand for. -/
structure Language where
  sha256 : Json → String
  fromisoformat : String → Option Datetime

inductive EvaluationError where
  | value (text : String)
  | key
  | index
  | recursion
deriving DecidableEq, Repr

def NodeKind.text : NodeKind → String
  | .allOf => "ALL_OF"
  | .anyOf => "ANY_OF"
  | .not => "NOT"
  | .evidenceFact => "EVIDENCE_FACT"
  | .applicationFact => "APPLICATION_FACT"
  | .sourceField => "SOURCE_FIELD"
  | .withinDuration => "WITHIN_DURATION"
  | .constant => "CONSTANT"

def Verdict.text : Verdict → String
  | .true => "TRUE"
  | .false => "FALSE"
  | .inconclusive => "INCONCLUSIVE"

/-- `_result` -/
def result (lang : Language) (node : PredicateNode) (verdict : Verdict) (reasonCode : String)
    (refs hashes : List String) : NodeResult where
  nodeId := node.nodeId
  kind := node.kind
  verdict := verdict
  reasonCode := reasonCode
  inputRefs := refs
  inputHash := "sha256:" ++ lang.sha256 (.obj [("hashes", .arr (hashes.map .str)),
    ("node_id", .str node.nodeId), ("refs", .arr (refs.map .str))])

/-- `_resolve_path`, along the parts of the path -/
def resolveParts : List String → Value → Option Value
  | [], current => some current
  | part :: parts, .mapping fields => (fields.lookup part).bind (resolveParts parts)
  | _ :: _, _ => Option.none

/-- `_resolve_path` -/
def resolvePath (values : Mapping) (path : String) : Option Value :=
  resolveParts ((path.toList.splitOn '.').map String.ofList) (.mapping values)

/-- `_as_datetime` -/
def asDatetime (lang : Language) : Value → Option Datetime
  | .datetime d => if d.aware then some d else Option.none
  | .str s =>
    (lang.fromisoformat (String.ofList (s.toList.flatMap
      (fun c => if c = 'Z' then "+00:00".toList else [c])))).filter Datetime.aware
  | _ => Option.none

def Double.lt : Double → Double → Bool
  | .finite x, .finite y => decide (x < y)
  | .finite _, .posInf => true
  | .negInf, .finite _ => true
  | .negInf, .posInf => true
  | _, _ => false

def Double.eq : Double → Double → Bool
  | .finite x, .finite y => x == y
  | .posInf, .posInf => true
  | .negInf, .negInf => true
  | _, _ => false

/-- Numbers compare by what they stand for, a whole one with a double as well. -/
def Value.number : Value → Option Double
  | .int n => some (.finite n)
  | .float x => some x
  | _ => Option.none

def Expected.number : Expected → Option Double
  | .int n => some (.finite n)
  | .float x => some x
  | _ => none

def sameItems : List Value → List String → Bool
  | [], [] => Bool.true
  | .str s :: items, name :: names => s == name && sameItems items names
  | _, _ => Bool.false

/-- `observed == expected`, where they have one type -/
def equal : Value → Option Expected → Option Bool
  | .none, none => some Bool.true
  | .bool a, some (.bool b) => some (a == b)
  | .int m, some (.int n) => some (m == n)
  | .float x, some (.float y) => some (x.eq y)
  | .str s, some (.str t) => some (s == t)
  | .tuple items, some (.strs names) => some (sameItems items names)
  | _, _ => Option.none

/-- The numbers of an order comparison, where both sides are numbers. -/
def numbers (observed : Value) (expected : Option Expected) : Option (Double × Double) :=
  match observed.number, expected.bind Expected.number with
  | some x, some y => some (x, y)
  | _, _ => Option.none

/-- `_compare` -/
def compare (observed : Value) (comparator : Option Comparator) (expected : Option Expected) :
    Option Bool :=
  match comparator with
  | none => none
  | some .isIn =>
    match expected, observed with
    | some (.strs items), .str s => some (items.contains s)
    | some (.strs _), _ => some Bool.false
    | _, _ => none
  | some .lt => (numbers observed expected).map (fun pair => pair.1.lt pair.2)
  | some .lte => (numbers observed expected).map (fun pair => pair.1.lt pair.2 || pair.1.eq pair.2)
  | some .gt => (numbers observed expected).map (fun pair => pair.2.lt pair.1)
  | some .gte => (numbers observed expected).map (fun pair => pair.2.lt pair.1 || pair.1.eq pair.2)
  | some .eq => equal observed expected
  | some .ne => (equal observed expected).map (!·)

def allVerdict (verdicts : List Verdict) : Verdict :=
  if .false ∈ verdicts then .false
  else if .inconclusive ∈ verdicts then .inconclusive
  else .true

def anyVerdict (verdicts : List Verdict) : Verdict :=
  if .true ∈ verdicts then .true
  else if .inconclusive ∈ verdicts then .inconclusive
  else .false

def notVerdict : Verdict → Verdict
  | .true => .false
  | .false => .true
  | .inconclusive => .inconclusive

/-- The verdict of a branch; a NOT reads the first of its children. -/
def branchVerdict (kind : NodeKind) (verdicts : List Verdict) : Option Verdict :=
  match kind with
  | .allOf => some (allVerdict verdicts)
  | .anyOf => some (anyVerdict verdicts)
  | _ => verdicts.head?.map notVerdict

/-- `_branch_result` -/
def branchResult (lang : Language) (node : PredicateNode) (children : List NodeResult) :
    Option NodeResult :=
  (branchVerdict node.kind (children.map NodeResult.verdict)).map (fun verdict =>
    result lang node verdict (node.kind.text ++ "_" ++ verdict.text)
      (children.flatMap NodeResult.inputRefs) (children.map NodeResult.inputHash))

/-- What a leaf looks at: where it reads, and what it then names as its input. -/
def observe (lang : Language) (sourceFields : Mapping) (facts : Facts) (evaluatedAt : Datetime)
    (node : PredicateNode) : NodeResult :=
  let read (values : Mapping) (refs hashes : List String) : NodeResult :=
    match resolvePath values (node.fieldPath.getD "") with
    | none => result lang node .inconclusive "FIELD_UNAVAILABLE" refs hashes
    | some observed =>
      let compared (observed : Value) : NodeResult :=
        match compare observed node.comparator node.expectedValue with
        | none => result lang node .inconclusive "TYPE_MISMATCH" refs hashes
        | some Bool.true => result lang node .true "COMPARISON_TRUE" refs hashes
        | some Bool.false => result lang node .false "COMPARISON_FALSE" refs hashes
      if node.kind = .withinDuration then
        match asDatetime lang observed with
        | none => result lang node .inconclusive "TIME_VALUE_INVALID" refs hashes
        | some observedTime =>
          if evaluatedAt.instant < observedTime.instant then
            result lang node .inconclusive "TIME_VALUE_INVALID" refs hashes
          else
            compared (.bool
              (decide (evaluatedAt.instant - observedTime.instant ≤ node.durationMs.getD 0 * 1000)))
      else compared observed
  if node.kind = .sourceField then read sourceFields [] []
  else
    match facts node.nodeId with
    | none => result lang node .inconclusive "FACT_UNAVAILABLE" [] []
    | some fact =>
      if node.recordKind ≠ some fact.recordKind then
        result lang node .inconclusive "FACT_UNAVAILABLE" [] []
      else read fact.values [fact.recordId] [fact.recordHash]

/-- What a leaf comes to. -/
def leafResult (lang : Language) (sourceFields : Mapping) (facts : Facts) (evaluatedAt : Datetime)
    (node : PredicateNode) : NodeResult :=
  if node.kind = .constant then
    if node.constant = some Bool.true then result lang node .true "CONSTANT_TRUE" [] []
    else result lang node .false "CONSTANT_FALSE" [] []
  else observe lang sourceFields facts evaluatedAt node

/-- `_evaluate_node` -/
def evaluateNode (lang : Language) (sourceFields : Mapping) (facts : Facts) (evaluatedAt : Datetime)
    (node : PredicateNode) (children : List NodeResult) : Option NodeResult :=
  if node.kind.isBranch then branchResult lang node children
  else some (leafResult lang sourceFields facts evaluatedAt node)

/-- `evaluate_predicate_expression` -/
def evaluatePredicateExpression (lang : Language) (expression : PredicateExpression)
    (sourceFields : Mapping) (facts : Facts) (evaluatedAt : Datetime) :
    Except EvaluationError Evaluation :=
  if !evaluatedAt.aware then .error (.value "predicate evaluation time must be timezone-aware")
  else
    match Unfold.visit (byId expression.nodes) (fun node => node.children)
        (evaluateNode lang sourceFields facts evaluatedAt) (expression.nodes.length + 1)
        (fun _ => none) expression.rootNodeId with
    | .error .missing => .error .key
    | .error .failed => .error .index
    | .error .depth => .error .recursion
    | .ok (root, results) =>
      match expression.nodes.mapM (fun node => results node.nodeId) with
      | none => .error .key
      | some ordered => .ok ⟨root.verdict, expression.onInconclusive, ordered⟩

end Solvan.Triage
