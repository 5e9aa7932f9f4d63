import Solvan.Triage.Semantics

/-! Alert predicates: what evidence that comes late can change. -/
namespace Solvan.Triage

variable {lang : Language} {expression : PredicateExpression} {sourceFields : Mapping}
  {facts facts' : Facts} {evaluatedAt : Datetime} {node : PredicateNode}

/-- Facts for nodes that had none; those there were stay as they are. -/
def Facts.Extends (facts' facts : Facts) : Prop :=
  ∀ nodeId fact, facts nodeId = some fact → facts' nodeId = some fact

/-- A leaf that is decided has its fact, if it needs one. -/
theorem leafResult_extends (h : facts'.Extends facts)
    (hdecided : (leafResult lang sourceFields facts evaluatedAt node).verdict ≠ .inconclusive) :
    leafResult lang sourceFields facts' evaluatedAt node =
      leafResult lang sourceFields facts evaluatedAt node := by
  unfold leafResult at hdecided ⊢
  split
  · rfl
  · rename_i hkind
    rw [if_neg hkind] at hdecided
    unfold observe at hdecided ⊢
    simp only at hdecided ⊢
    split
    · rfl
    · rename_i hsource
      rw [if_neg hsource] at hdecided
      cases hfact : facts node.nodeId with
      | none =>
        rw [hfact] at hdecided
        exact absurd rfl hdecided
      | some fact => rw [h node.nodeId fact hfact]

theorem leaf_refines (h : facts'.Extends facts) (node : PredicateNode) :
    Kleene.Refines (leafResult lang sourceFields facts evaluatedAt node).verdict.sign
      (leafResult lang sourceFields facts' evaluatedAt node).verdict.sign := by
  intro hsign
  rw [leafResult_extends h (fun hverdict => hsign (by rw [hverdict]; rfl))]

/-- Every kind of node passes on what is known. -/
theorem kleeneNode_refines {leaf leaf' : PredicateNode → SignType}
    (hleaf : ∀ node, Kleene.Refines (leaf node) (leaf' node)) (node : PredicateNode)
    {values values' : List SignType} (h : List.Forall₂ Kleene.Refines values values') :
    Kleene.Refines (kleeneNode leaf node values) (kleeneNode leaf' node values') := by
  unfold kleeneNode
  split
  · exact .all h
  · exact .any h
  · cases h with
    | nil => exact fun _ => rfl
    | cons hfirst _ => exact hfirst.neg
  · exact hleaf node

theorem strongKleene_refines {leaf leaf' : PredicateNode → SignType}
    (hleaf : ∀ node, Kleene.Refines (leaf node) (leaf' node)) (tree : Unfold.Tree PredicateNode) :
    Kleene.Refines (strongKleene leaf tree) (strongKleene leaf' tree) :=
  Unfold.Tree.fold_rel (fun node _ _ h => kleeneNode_refines hleaf node h) tree

/-- A node that is decided stays so. -/
theorem Faithful.kept {r r' : NodeResult} {tree tree' : Unfold.Tree PredicateNode}
    (h : Faithful lang expression sourceFields facts evaluatedAt node r tree)
    (h' : Faithful lang expression sourceFields facts' evaluatedAt node r' tree')
    (hextends : facts'.Extends facts) (hdecided : r.verdict ≠ .inconclusive) : r'.verdict = r.verdict := by
  obtain rfl := h.alone tree' h'.stands
  rw [← Verdict.sign_inj, h'.verdict, h.verdict]
  refine strongKleene_refines (leaf_refines hextends) tree' ?_
  rw [← h.verdict]
  exact fun hzero => hdecided ((@Verdict.sign_inj r.verdict .inconclusive).mp hzero)

/-- Late evidence decides what was open, and reverses nothing: the root and every node keep
a verdict that was true or false. -/
theorem late_evidence_reverses_nothing (lang : Language) (expression : PredicateExpression)
    (sourceFields : Mapping) (hextends : facts'.Extends facts) (haware : evaluatedAt.aware = Bool.true) :
    ∃ before after,
      evaluatePredicateExpression lang expression sourceFields facts evaluatedAt = .ok before ∧
      evaluatePredicateExpression lang expression sourceFields facts' evaluatedAt = .ok after ∧
      List.Forall₂ (fun r r' => r'.nodeId = r.nodeId ∧
        (r.verdict ≠ .inconclusive → r'.verdict = r.verdict)) before.nodeResults after.nodeResults ∧
      (before.verdict ≠ .inconclusive → after.verdict = before.verdict) := by
  obtain ⟨before, hbefore, -, ⟨node, hnode, hid, r, tree, hr, hroot⟩, hall⟩ :=
    evaluates lang expression sourceFields facts haware
  obtain ⟨after, hafter, -, ⟨node', hnode', hid', r', tree', hr', hroot'⟩, hall'⟩ :=
    evaluates lang expression sourceFields facts' haware
  refine ⟨before, after, hbefore, hafter, ?_, fun hdecided => ?_⟩
  · -- Both runs give their results for the same nodes.
    generalize expression.nodes = nodes at hall hall'
    clear hbefore hafter hr hr'
    generalize before.nodeResults = rs at hall
    generalize after.nodeResults = rs' at hall'
    induction hall generalizing rs' with
    | nil =>
      cases hall'
      exact .nil
    | cons hfirst _ ih =>
      cases hall' with
      | cons hfirst' hrest' =>
        obtain ⟨tree, hfaithful⟩ := hfirst
        obtain ⟨tree', hfaithful'⟩ := hfirst'
        exact .cons ⟨hfaithful'.named.trans hfaithful.named.symm,
          hfaithful.kept hfaithful' hextends⟩ (ih _ hrest')
  · have hsame : node' = node := List.inj_on_of_nodup_map expression.isGraph.unique hnode' hnode
      (hid'.trans hid.symm)
    subst hsame
    rw [hr] at hdecided ⊢
    rw [hr']
    exact hroot.kept hroot' hextends hdecided

/-- A fact beside a constant, either of which is enough. -/
def eitherFields : ExpressionFields where
  rootNodeId := "root"
  nodes := [
    ⟨{ nodeId := "root", kind := .anyOf, children := ["fact", "known"] }, rfl, rfl⟩,
    ⟨{ nodeId := "fact", kind := .evidenceFact, predicateRef := some "confirmed@1"
       comparator := some .eq, recordKind := some "CONFIRMATION", fieldPath := some "confirmed"
       expectedValue := some (.bool Bool.true) }, rfl, rfl⟩,
    ⟨{ nodeId := "known", kind := .constant, constant := some Bool.true }, rfl, rfl⟩]
  onInconclusive := .hold

def eitherExpression : PredicateExpression where
  toExpressionFields := eitherFields
  count := by decide
  graphOk := by decide

def lateFact : PredicateFact where
  recordId := "record"
  recordKind := "CONFIRMATION"
  recordHash := "sha256:0000000000000000000000000000000000000000000000000000000000000000"
  values := [("confirmed", .bool Bool.false)]
  identified := by decide
  typed := by decide

theorem late_fact_reverses_nothing :
    ∃ before after,
      evaluatePredicateExpression ⟨fun _ => "", fun _ => none⟩ eitherExpression [] (fun _ => none)
        evaluationTime = .ok before ∧
      evaluatePredicateExpression ⟨fun _ => "", fun _ => none⟩ eitherExpression []
        (fun nodeId => if nodeId = "fact" then some lateFact else none) evaluationTime = .ok after ∧
      (before.verdict ≠ .inconclusive → after.verdict = before.verdict) := by
  have hextends : Facts.Extends (fun nodeId => if nodeId = "fact" then some lateFact else none)
      (fun _ => none) := fun _ _ h => (nomatch h)
  have haware : evaluationTime.aware = Bool.true := rfl
  obtain ⟨before, after, hbefore, hafter, -, hkept⟩ := late_evidence_reverses_nothing
    ⟨fun _ => "", fun _ => none⟩ eitherExpression [] hextends haware
  exact ⟨before, after, hbefore, hafter, hkept⟩

end Solvan.Triage
