import Mathlib.Data.List.Forall2
import Solvan.Triage.Evaluate

/-! Alert predicates: the evaluation of the shared graph is strong three-valued logic on the
tree that the graph stands for. -/
namespace Solvan.Triage

open Unfold (Unfolds)

/-- Where a verdict stands between false and true. -/
def Verdict.sign : Verdict → SignType
  | .true => 1
  | .false => -1
  | .inconclusive => 0

/-- The value of a node. A NOT has one child. -/
def kleeneNode (leaf : PredicateNode → SignType) (node : PredicateNode) (values : List SignType) :
    SignType :=
  match node.kind with
  | .allOf => Kleene.all values
  | .anyOf => Kleene.any values
  | .not => -values.headD 0
  | _ => leaf node

/-- The strong Kleene value of a tree. -/
def strongKleene (leaf : PredicateNode → SignType) (tree : Unfold.Tree PredicateNode) : SignType :=
  tree.fold (kleeneNode leaf)

/-- What a node of an expression stands for, nothing shared. -/
def PredicateExpression.Unfolds (expression : PredicateExpression) (nodeId : String)
    (tree : Unfold.Tree PredicateNode) : Prop :=
  Unfold.Unfolds (byId expression.nodes) (fun node => node.children) nodeId tree

variable {lang : Language} {expression : PredicateExpression} {sourceFields : Mapping}
  {facts facts' : Facts} {evaluatedAt : Datetime} {node : PredicateNode} {verdicts : List Verdict}

theorem Verdict.sign_inj {v w : Verdict} : v.sign = w.sign ↔ v = w := by
  cases v <;> cases w <;> decide

theorem mem_signs {v : Verdict} : v.sign ∈ verdicts.map Verdict.sign ↔ v ∈ verdicts := by
  simp only [List.mem_map, Verdict.sign_inj, exists_eq_right]

theorem allVerdict_sign : (allVerdict verdicts).sign = Kleene.all (verdicts.map Verdict.sign) := by
  have hfalse : -1 ∈ verdicts.map Verdict.sign ↔ Verdict.false ∈ verdicts := mem_signs (v := .false)
  have hunknown : 0 ∈ verdicts.map Verdict.sign ↔ Verdict.inconclusive ∈ verdicts :=
    mem_signs (v := .inconclusive)
  rw [Kleene.all_eq, allVerdict]
  simp only [hfalse, hunknown]
  split
  · rfl
  · split <;> rfl

theorem anyVerdict_sign : (anyVerdict verdicts).sign = Kleene.any (verdicts.map Verdict.sign) := by
  have htrue : 1 ∈ verdicts.map Verdict.sign ↔ Verdict.true ∈ verdicts := mem_signs (v := .true)
  have hunknown : 0 ∈ verdicts.map Verdict.sign ↔ Verdict.inconclusive ∈ verdicts :=
    mem_signs (v := .inconclusive)
  rw [Kleene.any_eq, anyVerdict]
  simp only [htrue, hunknown]
  split
  · rfl
  · split <;> rfl

theorem notVerdict_sign (v : Verdict) : (notVerdict v).sign = -v.sign := by
  cases v <;> rfl

@[simp] theorem result_verdict (verdict : Verdict) (reasonCode : String) (refs hashes : List String) :
    (result lang node verdict reasonCode refs hashes).verdict = verdict := rfl

@[simp] theorem result_nodeId (verdict : Verdict) (reasonCode : String) (refs hashes : List String) :
    (result lang node verdict reasonCode refs hashes).nodeId = node.nodeId := rfl

theorem leafResult_nodeId :
    (leafResult lang sourceFields facts evaluatedAt node).nodeId = node.nodeId := by
  unfold leafResult observe
  simp only
  repeat' split
  all_goals rfl

theorem branchResult_nodeId {children : List NodeResult} {r : NodeResult}
    (h : branchResult lang node children = some r) : r.nodeId = node.nodeId := by
  obtain ⟨verdict, -, rfl⟩ := Option.map_eq_some_iff.mp h
  rfl

/-- A verdict is that of the logic where the verdicts it rests on are. -/
theorem evaluateNode_sign {children : List NodeResult} {values : List SignType} {r : NodeResult}
    (hchildren : List.Forall₂ (fun child value => child.verdict.sign = value) children values)
    (h : evaluateNode lang sourceFields facts evaluatedAt node children = some r) :
    r.verdict.sign =
      kleeneNode (fun node => (leafResult lang sourceFields facts evaluatedAt node).verdict.sign) node
        values := by
  have hvalues : (children.map NodeResult.verdict).map Verdict.sign = values := by
    rw [List.map_map, ← List.forall₂_eq_eq_eq, List.forall₂_map_left_iff]
    exact hchildren
  subst hvalues
  unfold evaluateNode at h
  split at h
  · obtain ⟨verdict, hverdict, rfl⟩ := Option.map_eq_some_iff.mp h
    rw [result_verdict]
    unfold branchVerdict at hverdict
    unfold kleeneNode
    cases hkind : node.kind with
    | allOf =>
      rw [hkind] at hverdict
      cases hverdict
      exact allVerdict_sign
    | anyOf =>
      rw [hkind] at hverdict
      cases hverdict
      exact anyVerdict_sign
    | not =>
      rw [hkind] at hverdict
      obtain ⟨first, hfirst, rfl⟩ := Option.map_eq_some_iff.mp hverdict
      rw [notVerdict_sign, List.headD_eq_head?_getD, List.head?_map, hfirst]
      rfl
    | _ => simp_all [NodeKind.isBranch]
  · cases h
    unfold kleeneNode
    cases hkind : node.kind with
    | allOf | anyOf | not => simp_all [NodeKind.isBranch]
    | _ => rfl

/-- A branch has children. -/
theorem PredicateNode.branch_children (node : PredicateNode) (h : node.kind.isBranch = Bool.true) :
    1 ≤ node.children.length := by
  have hshape := node.shapeOk
  unfold NodeFields.closedNodeShape at hshape
  rw [if_pos h] at hshape
  split at hshape
  · cases hshape
  · rename_i hcount
    exact (not_not.mp hcount).1

theorem evaluateNode_total {children : List NodeResult}
    (hlength : children.length = node.children.length) :
    ∃ r, evaluateNode lang sourceFields facts evaluatedAt node children = some r := by
  unfold evaluateNode
  split
  · rename_i hbranch
    have hchildren := node.branch_children hbranch
    cases children with
    | nil => simp only [List.length_nil] at hlength; omega
    | cons child rest =>
      unfold branchResult branchVerdict
      split <;> exact ⟨_, rfl⟩
  · exact ⟨_, rfl⟩

theorem evaluateNode_nodeId {children : List NodeResult} {r : NodeResult}
    (h : evaluateNode lang sourceFields facts evaluatedAt node children = some r) :
    r.nodeId = node.nodeId := by
  unfold evaluateNode at h
  split at h
  · exact branchResult_nodeId h
  · cases h
    exact leafResult_nodeId

/-- What the tree of a node comes to, worked out node by node with nothing remembered. -/
structure Faithful (lang : Language) (expression : PredicateExpression) (sourceFields : Mapping)
    (facts : Facts) (evaluatedAt : Datetime) (node : PredicateNode) (r : NodeResult)
    (tree : Unfold.Tree PredicateNode) : Prop where
  stands : expression.Unfolds node.nodeId tree
  alone : ∀ tree', expression.Unfolds node.nodeId tree' → tree' = tree
  value : tree.run (evaluateNode lang sourceFields facts evaluatedAt) = some r
  named : r.nodeId = node.nodeId
  verdict : r.verdict.sign =
    strongKleene (fun node => (leafResult lang sourceFields facts evaluatedAt node).verdict.sign) tree

theorem Faithful.of_value {r : NodeResult} {tree : Unfold.Tree PredicateNode}
    (unique : (nodeIds expression.nodes).Nodup) (hnode : node ∈ expression.nodes)
    (stands : expression.Unfolds node.nodeId tree)
    (value : tree.run (evaluateNode lang sourceFields facts evaluatedAt) = some r) :
    Faithful lang expression sourceFields facts evaluatedAt node r tree where
  stands := stands
  alone _ h := h.unique stands
  value := value
  named := by
    obtain ⟨value', children⟩ := tree
    have hsame : byId expression.nodes node.nodeId = some value' := by
      unfold PredicateExpression.Unfolds at stands
      rw [Unfold.Unfolds] at stands
      exact stands.1
    obtain rfl := Option.some.inj ((byId_of_mem unique hnode).symm.trans hsame)
    rw [Unfold.Tree.run] at value
    obtain ⟨rs, -, hr⟩ := Option.bind_eq_some_iff.mp value
    exact evaluateNode_nodeId hr
  verdict := Unfold.Tree.run_rel (R := fun (r : NodeResult) value => r.verdict.sign = value)
    (g := kleeneNode (fun node => (leafResult lang sourceFields facts evaluatedAt node).verdict.sign))
    (fun _ _ _ _ => evaluateNode_sign) tree value

theorem mapM_forall₂ {α β : Type} {f : α → Option β} {P : α → β → Prop} {items : List α}
    (h : ∀ a ∈ items, ∃ b, f a = some b ∧ P a b) :
    ∃ values, items.mapM f = some values ∧ List.Forall₂ P items values := by
  induction items with
  | nil => exact ⟨[], rfl, .nil⟩
  | cons a rest ih =>
    obtain ⟨b, hb, hP⟩ := h a List.mem_cons_self
    obtain ⟨values, hvalues, hall⟩ := ih (fun c hc => h c (List.mem_cons_of_mem _ hc))
    refine ⟨b :: values, ?_, .cons hP hall⟩
    rw [List.mapM_cons, hb, hvalues]
    rfl

/-- An accepted expression evaluates, each node to what its tree comes to. -/
theorem evaluates (lang : Language) (expression : PredicateExpression) (sourceFields : Mapping)
    (facts : Facts) (haware : evaluatedAt.aware = Bool.true) :
    ∃ evaluation, evaluatePredicateExpression lang expression sourceFields facts evaluatedAt = .ok evaluation ∧
      evaluation.onInconclusive = expression.onInconclusive ∧
      (∃ node ∈ expression.nodes, node.nodeId = expression.rootNodeId ∧ ∃ r tree,
        evaluation.verdict = r.verdict ∧
          Faithful lang expression sourceFields facts evaluatedAt node r tree) ∧
      List.Forall₂ (fun node r => ∃ tree, Faithful lang expression sourceFields facts evaluatedAt node r tree)
        expression.nodes evaluation.nodeResults := by
  have graph := expression.isGraph
  have hknown : ∀ nodeId ∈ nodeIds expression.nodes, ∃ node, byId expression.nodes nodeId = some node :=
    fun nodeId hid => by
      obtain ⟨node, -, -, hfind⟩ := byId_of_id graph.unique hid
      exact ⟨node, hfind⟩
  have htotal : ∀ nodeId ∈ nodeIds expression.nodes, ∀ node, byId expression.nodes nodeId = some node →
      ∀ children : List NodeResult, children.length = node.children.length →
        ∃ r, evaluateNode lang sourceFields facts evaluatedAt node children = some r :=
    fun _ _ _ _ _ hlength => evaluateNode_total hlength
  obtain ⟨root, results, hvisit, hroot, hvalues⟩ := Unfold.visit_root
    (closed_children graph.unique graph.known) graph.acyclic hknown htotal graph.rooted (by rw [nodeIds, List.length_map]; exact Nat.lt_succ_self _)
  have hfaithful : ∀ node ∈ expression.nodes, ∃ r, results node.nodeId = some r ∧
      ∃ tree, Faithful lang expression sourceFields facts evaluatedAt node r tree := by
    intro node hnode
    obtain ⟨r, tree, hr, hstands, hvalue⟩ :=
      hvalues node.nodeId (graph.reached node.nodeId (List.mem_map_of_mem hnode))
    exact ⟨r, hr, tree, .of_value graph.unique hnode hstands hvalue⟩
  obtain ⟨ordered, hordered, hall⟩ := mapM_forall₂ hfaithful
  obtain ⟨node, hnode, hid, -⟩ := byId_of_id graph.unique graph.rooted
  obtain ⟨r, hr, tree, hrootTree⟩ := hfaithful node hnode
  rw [hid, hroot] at hr
  cases hr
  refine ⟨⟨root.verdict, expression.onInconclusive, ordered⟩, ?_, rfl, ⟨node, hnode, hid, root, tree, rfl,
    hrootTree⟩, hall⟩
  unfold evaluatePredicateExpression
  simp only [haware, Bool.not_true, Bool.false_eq_true, if_false, hvisit, hordered]

theorem nodeResults_nodeIds {nodes : List PredicateNode} {rs : List NodeResult}
    (h : List.Forall₂
      (fun node r => ∃ tree, Faithful lang expression sourceFields facts evaluatedAt node r tree) nodes rs) :
    rs.map NodeResult.nodeId = nodeIds nodes := by
  induction h with
  | nil => rfl
  | cons hfirst _ ih =>
    obtain ⟨tree, hfaithful⟩ := hfirst
    rw [List.map_cons, ih, hfaithful.named]
    rfl

/-- What is accepted is a graph without cycles, in which everything serves the root. It
evaluates, with a result for each node as they were declared, to the strong Kleene value of
the tree that it stands for; that values are remembered cannot be seen. -/
theorem predicate_expression_faithful (lang : Language) :
    (∀ fields, (∃ expression, PredicateExpression.validate fields = .ok expression ∧
      expression.toExpressionFields = fields) ↔
        (1 ≤ fields.nodes.length ∧ fields.nodes.length ≤ 128) ∧
          IsGraph fields.rootNodeId fields.nodes) ∧
    ∀ (expression : PredicateExpression) (sourceFields : Mapping) (facts : Facts) (evaluatedAt : Datetime),
      evaluatedAt.aware = Bool.true → ∃ evaluation,
        evaluatePredicateExpression lang expression sourceFields facts evaluatedAt = .ok evaluation ∧
        evaluation.nodeResults.map NodeResult.nodeId = nodeIds expression.nodes ∧
        (∃ tree, expression.Unfolds expression.rootNodeId tree ∧
          (∀ tree', expression.Unfolds expression.rootNodeId tree' → tree' = tree) ∧
          evaluation.verdict.sign = strongKleene
            (fun node => (leafResult lang sourceFields facts evaluatedAt node).verdict.sign) tree) ∧
        List.Forall₂
          (fun node r => ∃ tree, Faithful lang expression sourceFields facts evaluatedAt node r tree)
          expression.nodes evaluation.nodeResults := by
  refine ⟨fun fields => PredicateExpression.validate_iff, fun expression sourceFields facts evaluatedAt haware => ?_⟩
  obtain ⟨evaluation, hok, -, ⟨node, -, hid, r, tree, hverdict, hroot⟩, hall⟩ :=
    evaluates lang expression sourceFields facts haware
  refine ⟨evaluation, hok, nodeResults_nodeIds hall, ⟨tree, ?_, fun tree' h => ?_, ?_⟩, hall⟩
  · rw [← hid]
    exact hroot.stands
  · rw [← hid] at h
    exact hroot.alone tree' h
  · rw [hverdict]
    exact hroot.verdict

/-- One constant under a NOT and, twice, under an ANY_OF. -/
def sharedFields : ExpressionFields where
  rootNodeId := "root"
  nodes := [
    ⟨{ nodeId := "root", kind := .allOf, children := ["denied", "either"] }, rfl, rfl⟩,
    ⟨{ nodeId := "either", kind := .anyOf, children := ["leaf", "leaf"] }, rfl, rfl⟩,
    ⟨{ nodeId := "denied", kind := .not, children := ["leaf"] }, rfl, rfl⟩,
    ⟨{ nodeId := "leaf", kind := .constant, constant := some Bool.true }, rfl, rfl⟩]
  onInconclusive := .hold

def sharedExpression : PredicateExpression where
  toExpressionFields := sharedFields
  count := by decide
  graphOk := by decide

def evaluationTime : Datetime := ⟨0, some 0, Calendar.maxMicros_pos⟩

theorem shared_expression_faithful :
    (∃ expression, PredicateExpression.validate sharedFields = .ok expression ∧
      expression.toExpressionFields = sharedFields) ∧
    ∃ evaluation, evaluatePredicateExpression ⟨fun _ => "", fun _ => none⟩ sharedExpression []
        (fun _ => none) evaluationTime = .ok evaluation ∧
      evaluation.nodeResults.map NodeResult.nodeId = ["root", "either", "denied", "leaf"] := by
  have h := predicate_expression_faithful ⟨fun _ => "", fun _ => none⟩
  obtain ⟨evaluation, hok, hids, -⟩ := h.2 sharedExpression [] (fun _ => none) evaluationTime rfl
  exact ⟨(h.1 sharedFields).mpr ⟨by decide, sharedExpression.isGraph⟩, evaluation, hok, hids⟩

end Solvan.Triage
