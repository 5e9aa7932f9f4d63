import Mathlib.Data.List.Sort
import Mathlib.Logic.Function.Basic
import Solvan.Base.Graph

/-! Nodes put in an order in which each comes after the nodes it depends on, always the
least that may come next. -/
namespace Kahn

open Graph (Acyclic Closed Path)

variable {α : Type u} [LinearOrder α] {nodes order order' front back : List α} {deps : α → List α}
  {a b : α}

/-- A node that may come next. -/
def Ready (nodes : List α) (deps : α → List α) (placed : List α) (a : α) : Prop :=
  a ∈ nodes ∧ a ∉ placed ∧ ∀ d ∈ deps a, d ∈ placed

/-- Every node is the least that could come in its place. -/
def Greedy (nodes : List α) (deps : α → List α) (order : List α) : Prop :=
  ∀ front a back, order = front ++ a :: back →
    Ready nodes deps front a ∧ ∀ b, Ready nodes deps front b → a ≤ b

/-- There is no node that may still come. -/
def Finished (nodes : List α) (deps : α → List α) (order : List α) : Prop :=
  ∀ a, ¬Ready nodes deps order a

theorem Greedy.nil : Greedy nodes deps [] := fun front a back h => by
  cases front <;> cases h

theorem Greedy.snoc (h : Greedy nodes deps order) (ready : Ready nodes deps order a)
    (least : ∀ b, Ready nodes deps order b → a ≤ b) : Greedy nodes deps (order ++ [a]) := by
  intro front c back heq
  rcases List.eq_nil_or_concat' back with rfl | ⟨back', last, rfl⟩
  · obtain ⟨rfl, hlast⟩ := List.append_inj' heq rfl
    cases hlast
    exact ⟨ready, least⟩
  · rw [← List.cons_append, ← List.append_assoc] at heq
    exact h front c back' (List.append_inj' heq rfl).1

theorem Greedy.ready (h : Greedy nodes deps order) (ha : a ∈ order) :
    ∃ front back, order = front ++ a :: back ∧ Ready nodes deps front a := by
  obtain ⟨front, back, rfl⟩ := List.append_of_mem ha
  exact ⟨front, back, rfl, (h front a back rfl).1⟩

theorem Greedy.subset (h : Greedy nodes deps order) (ha : a ∈ order) : a ∈ nodes := by
  obtain ⟨_, _, -, hready⟩ := h.ready ha
  exact hready.1

/-- What is placed comes after what it depends on. -/
theorem Greedy.deps_placed (h : Greedy nodes deps order) (ha : a ∈ order) : ∀ d ∈ deps a, d ∈ order := by
  obtain ⟨front, back, rfl, hready⟩ := h.ready ha
  exact fun d hd => List.mem_append_left _ (hready.2.2 d hd)

theorem Greedy.nodup (h : Greedy nodes deps order) : order.Nodup := by
  induction order using List.reverseRecOn with
  | nil => exact List.nodup_nil
  | append_singleton order a ih =>
    have hfront : Greedy nodes deps order := fun front b back heq =>
      h front b (back ++ [a]) (by rw [heq, List.append_assoc, List.cons_append])
    refine List.Nodup.append (ih hfront) (List.nodup_singleton a) (fun b hb hb' => ?_)
    rw [List.mem_singleton.mp hb'] at hb
    exact (h order a [] rfl).1.2.1 hb

/-- There is no choice about the order: it depends on which nodes there are and what each
depends on, not on how these are listed. -/
theorem Greedy.unique {nodes' : List α} {deps' : α → List α} (h : Greedy nodes deps order)
    (finished : Finished nodes deps order) (h' : Greedy nodes' deps' order')
    (finished' : Finished nodes' deps' order') (hnodes : ∀ a, a ∈ nodes ↔ a ∈ nodes')
    (hdeps : ∀ a ∈ nodes, ∀ d, d ∈ deps a ↔ d ∈ deps' a) : order = order' := by
  have hready : ∀ placed a, Ready nodes deps placed a ↔ Ready nodes' deps' placed a := by
    intro placed a
    unfold Ready
    rw [hnodes]
    refine and_congr_right (fun ha => and_congr_right (fun _ => ?_))
    exact forall_congr' (fun d => by rw [hdeps a ((hnodes a).mpr ha) d])
  -- One order cannot go on where the other ends, or go on with another node.
  have hall : ∀ rest rest' placed, placed ++ rest = order → placed ++ rest' = order' → rest = rest' := by
    intro rest
    induction rest with
    | nil =>
      intro rest' placed hrest hrest'
      cases rest' with
      | nil => rfl
      | cons b rest' =>
        rw [List.append_nil] at hrest
        exact absurd ((hready _ b).mpr (h' placed b rest' hrest'.symm).1) (hrest ▸ finished b)
    | cons a rest ih =>
      intro rest' placed hrest hrest'
      cases rest' with
      | nil =>
        rw [List.append_nil] at hrest'
        exact absurd ((hready _ a).mp (h placed a rest hrest.symm).1) (hrest' ▸ finished' a)
      | cons b rest' =>
        obtain ⟨ha, hleast⟩ := h placed a rest hrest.symm
        obtain ⟨hb, hleast'⟩ := h' placed b rest' hrest'.symm
        have hsame : a = b := le_antisymm (hleast b ((hready _ b).mpr hb)) (hleast' a ((hready _ a).mp ha))
        subst hsame
        rw [ih rest' (placed ++ [a]) (by rw [← hrest]; simp) (by rw [← hrest']; simp)]
  exact hall order order' [] rfl rfl

/-- All nodes are placed in the end exactly where there is no cycle. -/
theorem Greedy.all_placed_iff (h : Greedy nodes deps order) (finished : Finished nodes deps order)
    (closed : Closed nodes deps) : (∀ a ∈ nodes, a ∈ order) ↔ Acyclic nodes deps := by
  constructor
  · have sorted : Graph.Sorted deps order := fun front a back heq => (h front a back heq).1.2.2
    exact sorted.acyclic h.nodup
  · intro acyclic a ha
    by_contra hunplaced
    refine Graph.cycle_of_successors closed (P := fun a => a ∉ order) (fun a ha hunplaced => ?_) ha hunplaced
      acyclic
    by_contra hnone
    refine finished a ⟨ha, hunplaced, fun d hd => ?_⟩
    by_contra hd'
    exact hnone ⟨d, hd, hd'⟩

/-- The nodes that wait for nothing, what each node waits for, and those that are placed. -/
structure State (α : Type u) where
  ready : List α
  indegree : α → Int
  ordered : List α

/-- One of the nodes that a node waits for is placed. -/
def State.release (s : State α) (dependent : α) : State α where
  ready := if s.indegree dependent - 1 = 0 then s.ready ++ [dependent] else s.ready
  indegree := Function.update s.indegree dependent (s.indegree dependent - 1)
  ordered := s.ordered

/-- The node is placed, and those that depend on it are released. -/
def State.place (dependents : α → List α) (s : State α) (key : α) : State α :=
  ((dependents key).insertionSort (· ≤ ·)).foldl State.release
    { s with
      ready := s.ready.erase key
      ordered := s.ordered ++ [key] }

/-- Place the least node of those that wait for nothing until there are none; none where
that is not done in so many steps. -/
def State.loop (dependents : α → List α) : Nat → State α → Option (List α)
  | 0, s => if s.ready.isEmpty then some s.ordered else none
  | fuel + 1, s =>
    match s.ready.min? with
    | none => some s.ordered
    | some key => (s.place dependents key).loop dependents fuel

variable {s : State α} {dependents : α → List α}

theorem foldl_release {ds : List α} (hnodup : ds.Nodup) :
    (ds.foldl State.release s).ready = s.ready ++ ds.filter (fun d => decide (s.indegree d - 1 = 0)) ∧
      (∀ a, (ds.foldl State.release s).indegree a = if a ∈ ds then s.indegree a - 1 else s.indegree a) ∧
      (ds.foldl State.release s).ordered = s.ordered := by
  induction ds generalizing s with
  | nil => simp
  | cons d ds ih =>
    obtain ⟨hd, hds⟩ := List.nodup_cons.mp hnodup
    obtain ⟨hready, hindegree, hordered⟩ := @ih (s.release d) hds
    have hother : ∀ a ∈ ds, (s.release d).indegree a = s.indegree a := by
      intro a ha
      refine Function.update_of_ne ?_ _ _
      rintro rfl
      exact hd ha
    refine ⟨?_, fun a => ?_, hordered⟩
    · rw [List.foldl_cons, hready, List.filter_cons,
        List.filter_congr (fun a ha => by rw [hother a ha])]
      unfold State.release
      split <;> simp_all
    · rw [List.foldl_cons, hindegree]
      by_cases ha : a = d
      · subst ha
        simp [hd, State.release]
      · have hsame : (s.release d).indegree a = s.indegree a := Function.update_of_ne ha _ _
        simp [ha, hsame]

/-- What the loop keeps: the nodes that wait for nothing are those that may come next, and
each node waits for those of its dependencies that are not placed. -/
structure Sound (nodes : List α) (deps : α → List α) (s : State α) : Prop where
  greedy : Greedy nodes deps s.ordered
  ready : ∀ a, a ∈ s.ready ↔ Ready nodes deps s.ordered a
  nodup : s.ready.Nodup
  count : ∀ a ∈ nodes, s.indegree a = (deps a).countP (fun d => decide (d ∉ s.ordered))

/-- What each node is waited for by. -/
structure Dependents (nodes : List α) (deps : α → List α) (dependents : α → List α) : Prop where
  mem : ∀ d a, a ∈ dependents d ↔ a ∈ nodes ∧ d ∈ deps a
  nodup : ∀ d, (dependents d).Nodup

/-- No node depends twice on another, or on itself. -/
structure Plain (nodes : List α) (deps : α → List α) : Prop where
  once : ∀ a ∈ nodes, (deps a).Nodup
  irreflexive : ∀ a ∈ nodes, a ∉ deps a

theorem waits_succ {placed l : List α} {key : α} (hnodup : l.Nodup) (hkey : key ∉ placed) :
    l.countP (fun d => decide (d ∉ placed)) =
      l.countP (fun d => decide (d ∉ placed ++ [key])) + if key ∈ l then 1 else 0 := by
  induction l with
  | nil => rfl
  | cons d l ih =>
    obtain ⟨hd, hl⟩ := List.nodup_cons.mp hnodup
    rw [List.countP_cons, List.countP_cons, ih hl]
    by_cases hsame : d = key
    · subst hsame
      simp [hd, hkey]
    · have hne : key ≠ d := Ne.symm hsame
      have hrest : d ∈ placed ++ [key] ↔ d ∈ placed := by simp [hsame]
      have htail : key ∈ d :: l ↔ key ∈ l := by simp [hne]
      simp only [hrest, htail]
      omega

/-- The step of the loop. -/
theorem Sound.place (h : Sound nodes deps s) (plain : Plain nodes deps)
    (dep : Dependents nodes deps dependents) {key : α} (hkey : key ∈ s.ready)
    (least : ∀ b ∈ s.ready, key ≤ b) : Sound nodes deps (s.place dependents key) := by
  have hready := (h.ready key).mp hkey
  have hperm := List.perm_insertionSort (fun a b : α => a ≤ b) (dependents key)
  obtain ⟨hafter, hindegree, hordered⟩ := foldl_release (s := { s with
    ready := s.ready.erase key
    ordered := s.ordered ++ [key] }) (hperm.nodup_iff.mpr (dep.nodup key))
  have hmem : ∀ a, a ∈ (dependents key).insertionSort (· ≤ ·) ↔ a ∈ nodes ∧ key ∈ deps a := fun a => by
    rw [List.mem_insertionSort, dep.mem]
  -- A node that depends on this one waits for one node less.
  have hwaits : ∀ a ∈ nodes, s.indegree a =
      (deps a).countP (fun d => decide (d ∉ s.ordered ++ [key])) + if key ∈ deps a then 1 else 0 := by
    intro a ha
    rw [h.count a ha, waits_succ (plain.once a ha) hready.2.1]
    split <;> rfl
  have hfree : ∀ a ∈ nodes, key ∈ deps a →
      (s.indegree a - 1 = 0 ↔ ∀ d ∈ deps a, d ∈ s.ordered ++ [key]) := by
    intro a ha hdep
    have hnone : (deps a).countP (fun d => decide (d ∉ s.ordered ++ [key])) = 0 ↔
        ∀ d ∈ deps a, d ∈ s.ordered ++ [key] := by
      simp only [List.countP_eq_zero, decide_eq_true_eq, not_not]
    rw [← hnone, hwaits a ha, if_pos hdep]
    omega
  have hlate : ∀ a, key ∈ deps a → a ∉ s.ordered := fun a hdep hplaced =>
    hready.2.1 (h.greedy.deps_placed hplaced key hdep)
  refine ⟨?_, fun a => ?_, ?_, fun a ha => ?_⟩
  · rw [State.place, hordered]
    exact h.greedy.snoc hready (fun b hb => least b ((h.ready b).mpr hb))
  · rw [State.place, hafter, hordered, List.mem_append, h.nodup.mem_erase_iff, List.mem_filter, hmem,
      decide_eq_true_eq]
    constructor
    · rintro (⟨hne, hbefore⟩ | ⟨⟨ha, hdep⟩, hzero⟩)
      · obtain ⟨hnode, hunplaced, hdeps⟩ := (h.ready a).mp hbefore
        exact ⟨hnode, by simp [hunplaced, hne], fun d hd => List.mem_append_left _ (hdeps d hd)⟩
      · have hne : a ≠ key := by
          rintro rfl
          exact plain.irreflexive a ha hdep
        exact ⟨ha, by simp [hlate a hdep, hne], (hfree a ha hdep).mp hzero⟩
    · rintro ⟨ha, hunplaced, hdeps⟩
      rw [List.mem_append, not_or, List.mem_singleton] at hunplaced
      by_cases hdep : key ∈ deps a
      · exact .inr ⟨⟨ha, hdep⟩, (hfree a ha hdep).mpr hdeps⟩
      · refine .inl ⟨hunplaced.2, (h.ready a).mpr ⟨ha, hunplaced.1, fun d hd => ?_⟩⟩
        rcases List.mem_append.mp (hdeps d hd) with hplaced | hlast
        · exact hplaced
        · rw [List.mem_singleton.mp hlast] at hd
          exact absurd hd hdep
  · rw [State.place, hafter]
    refine List.Nodup.append (h.nodup.erase key)
      ((hperm.nodup_iff.mpr (dep.nodup key)).sublist List.filter_sublist) (fun a hbefore hnow => ?_)
    -- What is released now did wait for this node.
    obtain ⟨-, hdep⟩ := (hmem a).mp (List.mem_filter.mp hnow).1
    exact hready.2.1 (((h.ready a).mp (List.mem_of_mem_erase hbefore)).2.2 key hdep)
  · rw [State.place, hindegree, hordered]
    have hbefore := hwaits a ha
    simp only [hmem, ha, true_and]
    split
    · rename_i hdep
      rw [if_pos hdep] at hbefore
      omega
    · rename_i hdep
      rw [if_neg hdep] at hbefore
      omega

/-- With as many steps as there are nodes left the loop comes to its end. -/
theorem Sound.loop (h : Sound nodes deps s) (plain : Plain nodes deps)
    (dep : Dependents nodes deps dependents) {fuel : Nat}
    (enough : nodes.length ≤ s.ordered.length + fuel) :
    ∃ order, s.loop dependents fuel = some order ∧ Greedy nodes deps order ∧
      Finished nodes deps order := by
  induction fuel generalizing s with
  | zero =>
    have hnone : s.ready = [] := by
      refine List.eq_nil_iff_forall_not_mem.mpr (fun a ha => ?_)
      obtain ⟨hnode, hunplaced, -⟩ := (h.ready a).mp ha
      -- All nodes are placed already, and this one besides.
      have hsubset : ∀ b ∈ a :: s.ordered, b ∈ nodes := by
        intro b hb
        rcases List.mem_cons.mp hb with rfl | hb
        · exact hnode
        · exact h.greedy.subset hb
      have hlength := ((List.nodup_cons.mpr ⟨hunplaced, h.greedy.nodup⟩).subperm hsubset).length_le
      rw [List.length_cons] at hlength
      omega
    refine ⟨s.ordered, by simp [State.loop, hnone], h.greedy, fun a ha => ?_⟩
    have hmem := (h.ready a).mpr ha
    rw [hnone] at hmem
    cases hmem
  | succ fuel ih =>
    unfold State.loop
    cases hmin : s.ready.min? with
    | none =>
      refine ⟨s.ordered, rfl, h.greedy, fun a ha => ?_⟩
      have hmem := (h.ready a).mpr ha
      rw [List.min?_eq_none_iff.mp hmin] at hmem
      cases hmem
    | some key =>
      obtain ⟨hkey, hleast⟩ := List.min?_eq_some_iff.mp hmin
      refine ih (h.place plain dep hkey hleast) ?_
      have hordered : (s.place dependents key).ordered = s.ordered ++ [key] :=
        (foldl_release ((List.perm_insertionSort _ _).nodup_iff.mpr (dep.nodup key))).2.2
      rw [hordered, List.length_append, List.length_singleton]
      omega

/-- The state the loop begins with. -/
def State.start (nodes : List α) (deps : α → List α) : State α where
  ready := nodes.filter (fun a => decide (((deps a).length : Int) = 0))
  indegree a := (deps a).length
  ordered := []

theorem Sound.start (hnodup : nodes.Nodup) : Sound nodes deps (.start nodes deps) where
  greedy := .nil
  ready a := by
    simp only [State.start, List.mem_filter, decide_eq_true_eq, Ready, List.not_mem_nil, not_false_eq_true,
      true_and, Int.natCast_eq_zero, List.length_eq_zero_iff, imp_false]
    rw [List.eq_nil_iff_forall_not_mem]
  nodup := hnodup.filter _
  count a _ := by simp [State.start]

end Kahn
