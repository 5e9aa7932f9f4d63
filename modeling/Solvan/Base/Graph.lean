import Mathlib.Data.List.Basic
import Mathlib.Data.Set.Finite.List
import Mathlib.Logic.Relation
import Mathlib.Order.WellFounded

/-! Finite graphs given by a list of nodes and the nodes that each leads to. -/
namespace Graph

variable {α : Type u} {nodes : List α} {next : α → List α} {a b : α}

/-- A node leads to another. -/
def Edge (nodes : List α) (next : α → List α) (a b : α) : Prop := a ∈ nodes ∧ b ∈ next a

/-- A node is reached over one edge or more. -/
def Path (nodes : List α) (next : α → List α) : α → α → Prop := Relation.TransGen (Edge nodes next)

def Acyclic (nodes : List α) (next : α → List α) : Prop := ∀ a, ¬Path nodes next a a

/-- No edge leaves the nodes. -/
def Closed (nodes : List α) (next : α → List α) : Prop := ∀ a ∈ nodes, ∀ b ∈ next a, b ∈ nodes

/-- What a node has if all that it leads to have it, every node has. -/
theorem Acyclic.induction (h : Acyclic nodes next) (closed : Closed nodes next) {P : α → Prop}
    (step : ∀ a ∈ nodes, (∀ b ∈ next a, P b) → P a) : ∀ a ∈ nodes, P a := by
  have hfinite : Finite {a // a ∈ nodes} := (List.finite_toSet nodes).to_subtype
  have htrans : IsTrans {a // a ∈ nodes} (fun b a => Path nodes next a.1 b.1) :=
    ⟨fun _ _ _ hab hbc => Relation.TransGen.trans hbc hab⟩
  have hirrefl : Std.Irrefl (fun b a : {a // a ∈ nodes} => Path nodes next a.1 b.1) :=
    ⟨fun a => h a.1⟩
  have hwf := Finite.wellFounded_of_trans_of_irrefl
    (fun b a : {a // a ∈ nodes} => Path nodes next a.1 b.1)
  intro a ha
  refine hwf.induction (C := fun node => P node.1) ⟨a, ha⟩ (fun node ih => ?_)
  refine step node.1 node.2 (fun b hb => ?_)
  exact ih ⟨b, closed node.1 node.2 b hb⟩ (.single ⟨node.2, hb⟩)

/-- Where every node of some leads to one of them, there is a cycle. -/
theorem cycle_of_successors (closed : Closed nodes next) {P : α → Prop}
    (successor : ∀ a ∈ nodes, P a → ∃ b ∈ next a, P b) (ha : a ∈ nodes) (hP : P a) :
    ¬Acyclic nodes next := by
  intro acyclic
  refine acyclic.induction closed (P := fun a => ¬P a) (fun a ha ih hP => ?_) a ha hP
  obtain ⟨b, hb, hPb⟩ := successor a ha hP
  exact ih b hb hPb

theorem Path.mem (h : Path nodes next a b) : a ∈ nodes := by
  induction h with
  | single hedge => exact hedge.1
  | tail _ _ ih => exact ih

/-- Every node comes after all that it leads to. -/
def Sorted (next : α → List α) (order : List α) : Prop :=
  ∀ front a back, order = front ++ a :: back → ∀ b ∈ next a, b ∈ front

theorem Sorted.path {order front back : List α} (h : Sorted next order) (hpath : Path nodes next a b)
    (heq : order = front ++ a :: back) : b ∈ front := by
  induction hpath generalizing front back with
  | single hedge => exact h front a back heq _ hedge.2
  | tail _ hedge ih =>
    obtain ⟨front', back', rfl⟩ := List.append_of_mem (ih heq)
    have hbefore := h front' _ (back' ++ a :: back) (by rw [heq]; simp) _ hedge.2
    exact List.mem_append_left _ hbefore

/-- Nodes that are in such an order are on no cycle. -/
theorem Sorted.acyclic {order : List α} (h : Sorted next order) (hnodup : order.Nodup)
    (hall : ∀ a ∈ nodes, a ∈ order) : Acyclic nodes next := by
  intro a hcycle
  obtain ⟨front, back, rfl⟩ := List.append_of_mem (hall a hcycle.mem)
  have hbefore := h.path hcycle rfl
  rw [List.nodup_append] at hnodup
  exact hnodup.2.2 a hbefore a List.mem_cons_self rfl

theorem Sorted.snoc {order : List α} (h : Sorted next order) (ha : ∀ b ∈ next a, b ∈ order) :
    Sorted next (order ++ [a]) := by
  intro front c back heq
  rcases List.eq_nil_or_concat' back with rfl | ⟨back', last, rfl⟩
  · obtain ⟨rfl, hlast⟩ := List.append_inj' heq rfl
    cases hlast
    exact ha
  · rw [← List.cons_append, ← List.append_assoc] at heq
    exact h front c back' (List.append_inj' heq rfl).1

theorem Sorted.mem {order : List α} (h : Sorted next order) (ha : a ∈ order) :
    ∀ b ∈ next a, b ∈ order := by
  obtain ⟨front, back, rfl⟩ := List.append_of_mem ha
  exact fun b hb => List.mem_append_left _ (h front a back rfl b hb)

end Graph
