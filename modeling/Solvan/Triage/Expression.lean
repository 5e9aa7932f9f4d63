import Mathlib.Algebra.Order.Ring.Rat
import Solvan.Base.Search
import Solvan.Domain.Values

/-! Alert predicates: what an expression has to be made of. -/
namespace Solvan.Triage

open Graph (Acyclic Closed)
open Search (Reach)

/-- A double. Zero has one sign here: nothing compares the two. -/
inductive Double where
  | nan | negInf | posInf
  | finite (q : Rat)
deriving DecidableEq

inductive NodeKind where
  | allOf | anyOf | not | evidenceFact | applicationFact | sourceField | withinDuration | constant
deriving DecidableEq, Repr

inductive Comparator where
  | eq | ne | lt | lte | gt | gte | isIn
deriving DecidableEq, Repr

/-- What a leaf compares with: `bool | int | float | str | tuple[str, ...]`. -/
inductive Expected where
  | bool (b : Bool)
  | int (n : Int)
  | float (x : Double)
  | str (s : String)
  | strs (items : List String)
deriving DecidableEq

/-- The fields of a `PredicateNodeV1`. -/
structure NodeFields where
  nodeId : String
  kind : NodeKind
  children : List String := []
  predicateRef : Option String := none
  comparator : Option Comparator := none
  recordKind : Option String := none
  fieldPath : Option String := none
  expectedValue : Option Expected := none
  durationMs : Option Int := none
  constant : Option Bool := none
deriving DecidableEq

/-- Whether a text is one character and then one or more of others, up to so many. -/
def shaped (first rest : Char → Bool) (most : Nat) (text : String) : Bool :=
  match text.toList with
  | [] => false
  | c :: cs => first c && cs.all rest && decide (1 ≤ cs.length ∧ cs.length ≤ most)

/-- `^[^*@]+@[^*@]+$` -/
def isPredicateRef (text : String) : Bool :=
  match text.toList.splitOn '@' with
  | [key, version] => !key.isEmpty && !version.isEmpty && !text.toList.contains '*'
  | _ => false

/-- What the declarations of the fields ask for. -/
def NodeFields.declared (node : NodeFields) : Bool :=
  shaped Char.isLower (fun c => c.isLower || c.isDigit || c == '_' || c == '-') 63 node.nodeId &&
    decide (node.children.length ≤ 32) &&
    node.predicateRef.all isPredicateRef &&
    node.recordKind.all (shaped Char.isUpper (fun c => c.isUpper || c.isDigit || c == '_') 63) &&
    node.fieldPath.all
      (shaped Char.isLower (fun c => c.isLower || c.isDigit || c == '_' || c == '.') 127) &&
    node.durationMs.all (fun ms => decide (1000 ≤ ms ∧ ms ≤ 604800000))

def NodeKind.isBranch : NodeKind → Bool
  | .allOf | .anyOf | .not => true
  | _ => false

/-- `branch_counts`, the upper end -/
def NodeKind.mostChildren : NodeKind → Nat
  | .not => 1
  | _ => 32

/-- `predicate_ref`, `comparator`, `record_kind`, `field_path`, `expected_value` and
`duration_ms` are all None. -/
def NodeFields.bare (node : NodeFields) : Bool :=
  node.predicateRef.isNone && node.comparator.isNone && node.recordKind.isNone &&
    node.fieldPath.isNone && node.expectedValue.isNone && node.durationMs.isNone

def NodeFields.closedNodeShape (node : NodeFields) : Except String Unit :=
  if node.kind.isBranch then
    if ¬(1 ≤ node.children.length ∧ node.children.length ≤ node.kind.mostChildren) then
      .error "predicate branch has an invalid child count"
    else if !node.bare || node.constant.isSome then
      .error "predicate branches cannot carry leaf operands"
    else .ok ()
  else if !node.children.isEmpty then .error "predicate leaves cannot carry child references"
  else if node.kind = .constant then
    if node.constant.isNone || !node.bare then .error "constant predicate shape is invalid"
    else .ok ()
  else if node.constant.isSome || node.comparator.isNone || node.fieldPath.isNone then
    .error "predicate leaf is incomplete"
  else if (node.kind = .evidenceFact ∨ node.kind = .applicationFact) ∧
      (node.predicateRef.isNone ∨ node.recordKind.isNone) then
    .error "committed-fact predicates require registry and record bindings"
  else if node.kind = .sourceField ∧ (node.predicateRef.isSome ∨ node.recordKind.isSome) then
    .error "source-field predicates cannot name an external fact validator"
  else if node.kind = .withinDuration ∧ node.durationMs.isNone then
    .error "duration predicates require a bounded duration"
  else if node.kind ≠ .withinDuration ∧ node.durationMs.isSome then
    .error "only duration predicates carry a duration"
  else .ok ()

structure PredicateNode extends NodeFields where
  fieldsOk : toNodeFields.declared = true
  shapeOk : toNodeFields.closedNodeShape = .ok ()
deriving DecidableEq

inductive OnInconclusive where
  | hold | manualReview | blocked
deriving DecidableEq, Repr

/-- The fields of a `PredicateExpressionV1`. -/
structure ExpressionFields where
  rootNodeId : String
  nodes : List PredicateNode
  onInconclusive : OnInconclusive

/-- Why an expression is not accepted. -/
inductive Refusal where
  | invalid (text : String)
  /-- The search runs deeper than there are nodes. -/
  | recursion
deriving DecidableEq, Repr

/-- `{node.node_id: node for node in nodes}`: of nodes with one ID, the last. -/
def byId (nodes : List PredicateNode) (nodeId : String) : Option PredicateNode :=
  nodes.reverse.find? (fun node => node.nodeId == nodeId)

/-- `by_id[node_id].children` -/
def childrenOf (nodes : List PredicateNode) (nodeId : String) : List String :=
  ((byId nodes nodeId).map (fun node => node.children)).getD []

/-- The IDs of the nodes, as they were declared. -/
def nodeIds (nodes : List PredicateNode) : List String := nodes.map (fun node => node.nodeId)

def ExpressionFields.closedAcyclicGraph (fields : ExpressionFields) : Except Refusal Unit :=
  let ids := nodeIds fields.nodes
  if ¬ids.Nodup ∨ fields.rootNodeId ∉ ids then
    .error (.invalid "predicate node IDs must be unique and include the root")
  else if fields.nodes.any (fun node => node.children.any (fun child => !ids.contains child)) then
    .error (.invalid "predicate references an unknown child")
  else
    match Search.visit (childrenOf fields.nodes) (ids.length + 1) [] [] fields.rootNodeId with
    | .error .cycle => .error (.invalid "predicate expression must be acyclic")
    | .error .fuel => .error .recursion
    | .ok visited =>
      if ids.all visited.contains then .ok ()
      else .error (.invalid "predicate expression cannot contain unreachable nodes")

/-- An accepted `PredicateExpressionV1`. -/
structure PredicateExpression extends ExpressionFields where
  count : 1 ≤ nodes.length ∧ nodes.length ≤ 128
  graphOk : toExpressionFields.closedAcyclicGraph = .ok ()

/-- `PredicateExpressionV1.model_validate` -/
def PredicateExpression.validate (fields : ExpressionFields) : Except Refusal PredicateExpression :=
  if hcount : 1 ≤ fields.nodes.length ∧ fields.nodes.length ≤ 128 then
    match hgraph : fields.closedAcyclicGraph with
    | .error refusal => .error refusal
    | .ok () => .ok ⟨fields, hcount, hgraph⟩
  else .error (.invalid "nodes")

/-- What an expression is: nodes that can be told apart, without cycles, that all serve
the root. -/
structure IsGraph (root : String) (nodes : List PredicateNode) : Prop where
  unique : (nodeIds nodes).Nodup
  rooted : root ∈ nodeIds nodes
  known : ∀ node ∈ nodes, ∀ child ∈ node.children, child ∈ nodeIds nodes
  acyclic : Acyclic (nodeIds nodes) (childrenOf nodes)
  reached : ∀ nodeId ∈ nodeIds nodes, Reach (nodeIds nodes) (childrenOf nodes) root nodeId

variable {nodes : List PredicateNode} {node : PredicateNode} {fields : ExpressionFields}

theorem byId_of_mem (unique : (nodeIds nodes).Nodup) (h : node ∈ nodes) :
    byId nodes node.nodeId = some node := by
  unfold byId
  have hmem : node ∈ nodes.reverse := List.mem_reverse.mpr h
  have hunique : (nodeIds nodes.reverse).Nodup := by
    rw [nodeIds, List.map_reverse]
    exact List.nodup_reverse.mpr unique
  cases hfind : nodes.reverse.find? (fun other => other.nodeId == node.nodeId) with
  | none =>
    have hnone := List.find?_eq_none.mp hfind node hmem
    simp at hnone
  | some other =>
    have hother := List.mem_of_find?_eq_some hfind
    have hid : other.nodeId = node.nodeId := by simpa using List.find?_some hfind
    rw [List.inj_on_of_nodup_map hunique hother hmem hid]

theorem byId_of_id (unique : (nodeIds nodes).Nodup) {nodeId : String} (h : nodeId ∈ nodeIds nodes) :
    ∃ node ∈ nodes, node.nodeId = nodeId ∧ byId nodes nodeId = some node := by
  obtain ⟨node, hnode, rfl⟩ := List.mem_map.mp h
  exact ⟨node, hnode, rfl, byId_of_mem unique hnode⟩

theorem closed_children (unique : (nodeIds nodes).Nodup)
    (known : ∀ node ∈ nodes, ∀ child ∈ node.children, child ∈ nodeIds nodes) :
    Closed (nodeIds nodes) (childrenOf nodes) := by
  intro nodeId hid child hchild
  obtain ⟨node, hnode, -, hfind⟩ := byId_of_id unique hid
  rw [childrenOf, hfind] at hchild
  exact known node hnode child hchild

/-- The checks let through what is such a graph, and nothing else. -/
theorem closedAcyclicGraph_iff :
    fields.closedAcyclicGraph = .ok () ↔ IsGraph fields.rootNodeId fields.nodes := by
  unfold ExpressionFields.closedAcyclicGraph
  simp only
  split
  · rename_i hids
    refine iff_of_false (by simp) (fun graph => ?_)
    rcases hids with hdup | hroot
    · exact hdup graph.unique
    · exact hroot graph.rooted
  · rename_i hids
    rw [not_or, not_not, not_not] at hids
    split
    · rename_i hunknown
      refine iff_of_false (by simp) (fun graph => ?_)
      simp only [List.any_eq_true, Bool.not_eq_true', List.contains_eq_mem, decide_eq_false_iff_not]
        at hunknown
      obtain ⟨node, hnode, child, hchild, hmissing⟩ := hunknown
      exact hmissing (graph.known node hnode child hchild)
    · rename_i hknown
      have hknown : ∀ node ∈ fields.nodes, ∀ child ∈ node.children, child ∈ nodeIds fields.nodes := by
        intro node hnode child hchild
        by_contra hmissing
        refine hknown (List.any_eq_true.mpr ⟨node, hnode, List.any_eq_true.mpr ⟨child, hchild, ?_⟩⟩)
        simp [hmissing]
      have hclosed := closed_children hids.1 hknown
      have hsearch := Search.visits_all_iff hclosed hids.2 (Nat.lt_succ_self (nodeIds fields.nodes).length)
      have hgraph : IsGraph fields.rootNodeId fields.nodes ↔
          ∃ visited, Search.visit (childrenOf fields.nodes) ((nodeIds fields.nodes).length + 1) [] []
            fields.rootNodeId = .ok visited ∧ ∀ a ∈ nodeIds fields.nodes, a ∈ visited := by
        rw [hsearch]
        exact ⟨fun graph => ⟨graph.acyclic, graph.reached⟩,
          fun graph => ⟨hids.1, hids.2, hknown, graph.1, graph.2⟩⟩
      rw [hgraph]
      split
      · rename_i hstop
        simp [hstop]
      · rename_i hstop
        simp [hstop]
      · rename_i visited hvisit
        have hall : (nodeIds fields.nodes).all visited.contains = true ↔
            ∀ a ∈ nodeIds fields.nodes, a ∈ visited := by simp
        rw [hvisit]
        split
        · rename_i hreached
          exact iff_of_true rfl ⟨visited, rfl, hall.mp hreached⟩
        · rename_i hreached
          refine iff_of_false (by simp) ?_
          rintro ⟨_, hsame, hmem⟩
          cases hsame
          exact hreached (hall.mpr hmem)

theorem PredicateExpression.isGraph (expression : PredicateExpression) :
    IsGraph expression.rootNodeId expression.nodes :=
  closedAcyclicGraph_iff.mp expression.graphOk

/-- An expression is accepted exactly where its nodes, as many as are allowed, form such
a graph. -/
theorem PredicateExpression.validate_iff :
    (∃ expression, PredicateExpression.validate fields = .ok expression ∧
      expression.toExpressionFields = fields) ↔
      (1 ≤ fields.nodes.length ∧ fields.nodes.length ≤ 128) ∧ IsGraph fields.rootNodeId fields.nodes := by
  unfold PredicateExpression.validate
  split
  · rename_i hcount
    rw [← closedAcyclicGraph_iff]
    split
    · rename_i hrefused
      simp [hrefused]
    · rename_i hok
      exact iff_of_true ⟨_, rfl, rfl⟩ ⟨hcount, hok⟩
  · rename_i hcount
    exact iff_of_false (by simp) (fun h => hcount h.1)

end Solvan.Triage
