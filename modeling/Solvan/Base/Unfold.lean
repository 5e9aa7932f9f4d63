import Mathlib.Logic.ExistsUnique
import Mathlib.Logic.Function.Basic
import Solvan.Base.Search

/-! Values of the nodes of a shared graph, each worked out once, and the trees that the
nodes stand for. -/
namespace Unfold

open Graph (Acyclic Closed Edge Path)
open Search (Reach)

/-- A node with the trees it leads to, nothing shared. -/
inductive Tree (ν : Type u) where
  | node (value : ν) (children : List (Tree ν))

variable {α : Type u} {ν : Type v} {β : Type w} {γ : Type x}

mutual

/-- The value of a tree, from the values of its children. -/
def Tree.fold (f : ν → List β → β) : Tree ν → β
  | .node value children => f value (foldAll f children)

def Tree.foldAll (f : ν → List β → β) : List (Tree ν) → List β
  | [] => []
  | tree :: rest => tree.fold f :: foldAll f rest

end

mutual

/-- The value of a tree, where the value of a node may fail. -/
def Tree.run (f : ν → List β → Option β) : Tree ν → Option β
  | .node value children => (runAll f children).bind (f value)

def Tree.runAll (f : ν → List β → Option β) : List (Tree ν) → Option (List β)
  | [] => some []
  | tree :: rest => (tree.run f).bind (fun value => (runAll f rest).map (value :: ·))

end

mutual

/-- A name stands for a tree: its node, with trees for all the names that this leads to. -/
def Unfolds (expand : α → Option ν) (next : ν → List α) : α → Tree ν → Prop
  | a, .node value children => expand a = some value ∧ UnfoldsAll expand next (next value) children

def UnfoldsAll (expand : α → Option ν) (next : ν → List α) : List α → List (Tree ν) → Prop
  | [], [] => True
  | a :: names, tree :: trees => Unfolds expand next a tree ∧ UnfoldsAll expand next names trees
  | [], _ :: _ => False
  | _ :: _, [] => False

end

/-- A relation that every node keeps holds between the values of a whole tree. -/
theorem Tree.fold_rel {f : ν → List β → β} {g : ν → List γ → γ} {R : β → γ → Prop}
    (step : ∀ n xs ys, List.Forall₂ R xs ys → R (f n xs) (g n ys)) (tree : Tree ν) :
    R (tree.fold f) (tree.fold g) := by
  refine Tree.rec (motive_1 := fun tree => R (tree.fold f) (tree.fold g))
    (motive_2 := fun trees => List.Forall₂ R (Tree.foldAll f trees) (Tree.foldAll g trees))
    (fun n children ih => ?_) .nil (fun tree rest htree hrest => ?_) tree
  · rw [Tree.fold, Tree.fold]
    exact step n _ _ ih
  · rw [Tree.foldAll, Tree.foldAll]
    exact .cons htree hrest

/-- The same for values that may fail: those that there are stand in the relation. -/
theorem Tree.run_rel {f : ν → List β → Option β} {g : ν → List γ → γ} {R : β → γ → Prop}
    (step : ∀ n xs ys x, List.Forall₂ R xs ys → f n xs = some x → R x (g n ys)) (tree : Tree ν)
    {x : β} (h : tree.run f = some x) : R x (tree.fold g) := by
  refine Tree.rec (motive_1 := fun tree => ∀ x, tree.run f = some x → R x (tree.fold g))
    (motive_2 := fun trees => ∀ xs, Tree.runAll f trees = some xs → List.Forall₂ R xs (Tree.foldAll g trees))
    (fun n children ih x h => ?_) (fun xs h => ?_) (fun tree rest htree hrest xs h => ?_) tree x h
  · rw [Tree.run] at h
    obtain ⟨xs, hxs, hx⟩ := Option.bind_eq_some_iff.mp h
    rw [Tree.fold]
    exact step n xs _ x (ih xs hxs) hx
  · rw [Tree.runAll] at h
    cases h
    exact .nil
  · rw [Tree.runAll] at h
    obtain ⟨x, hx, hxs⟩ := Option.bind_eq_some_iff.mp h
    obtain ⟨xs', hxs', rfl⟩ := Option.map_eq_some_iff.mp hxs
    rw [Tree.foldAll]
    exact .cons (htree x hx) (hrest xs' hxs')

variable {expand : α → Option ν} {next : ν → List α} {f : ν → List β → Option β} {nodes stack : List α}
  {a root : α} {fuel : Nat}

/-- A name stands for one tree at most. -/
theorem Unfolds.unique {tree tree' : Tree ν} (h : Unfolds expand next a tree)
    (h' : Unfolds expand next a tree') : tree = tree' := by
  refine Tree.rec
    (motive_1 := fun tree => ∀ a tree', Unfolds expand next a tree → Unfolds expand next a tree' → tree = tree')
    (motive_2 := fun trees => ∀ names trees', UnfoldsAll expand next names trees →
      UnfoldsAll expand next names trees' → trees = trees')
    (fun n children ih a tree' h h' => ?_) (fun names trees' h h' => ?_)
    (fun tree rest htree hrest names trees' h h' => ?_) tree a tree' h h'
  · obtain ⟨n', children'⟩ := tree'
    rw [Unfolds] at h h'
    obtain rfl : n = n' := Option.some.inj (h.1.symm.trans h'.1)
    rw [ih _ _ h.2 h'.2]
  · cases names with
    | nil =>
      cases trees' with
      | nil => rfl
      | cons tree' rest' => simp [UnfoldsAll] at h'
    | cons a names => simp [UnfoldsAll] at h
  · cases names with
    | nil => simp [UnfoldsAll] at h
    | cons a names =>
      cases trees' with
      | nil => simp [UnfoldsAll] at h'
      | cons tree' rest' =>
        rw [UnfoldsAll] at h h'
        rw [htree a tree' h.1 h'.1, hrest names rest' h.2 h'.2]

theorem runAll_length {names : List α} {trees : List (Tree ν)} {vs : List β}
    (h : UnfoldsAll expand next names trees) (hvs : Tree.runAll f trees = some vs) :
    vs.length = names.length := by
  induction trees generalizing names vs with
  | nil =>
    cases names with
    | nil =>
      rw [Tree.runAll] at hvs
      cases hvs
      rfl
    | cons a names => simp [UnfoldsAll] at h
  | cons tree rest ih =>
    cases names with
    | nil => simp [UnfoldsAll] at h
    | cons a names =>
      rw [UnfoldsAll] at h
      rw [Tree.runAll] at hvs
      obtain ⟨v, -, hrest⟩ := Option.bind_eq_some_iff.mp hvs
      obtain ⟨vs', hvs', rfl⟩ := Option.map_eq_some_iff.mp hrest
      rw [List.length_cons, List.length_cons, ih h.2 hvs']

/-- The names that a name leads to. -/
def edges (expand : α → Option ν) (next : ν → List α) (a : α) : List α := ((expand a).map next).getD []

/-- Why there is no value: nothing has the name, the value of a node failed, or the graph is
deeper than what the evaluation was prepared for. -/
inductive Stop where
  | missing | failed | depth
deriving DecidableEq, Repr

/-- The values that have been worked out. -/
abbrev Memo (α : Type u) (β : Type w) := α → Option β

def visitAll (visit : Memo α β → α → Except Stop (β × Memo α β)) :
    Memo α β → List α → Except Stop (List β × Memo α β)
  | memo, [] => .ok ([], memo)
  | memo, a :: rest =>
    match visit memo a with
    | .error stop => .error stop
    | .ok (value, memo) =>
      match visitAll visit memo rest with
      | .error stop => .error stop
      | .ok (values, memo) => .ok (value :: values, memo)

/-- The value of a name, worked out where it is first asked for. -/
def visit [DecidableEq α] (expand : α → Option ν) (next : ν → List α) (f : ν → List β → Option β) :
    Nat → Memo α β → α → Except Stop (β × Memo α β)
  | 0, _, _ => .error .depth
  | fuel + 1, memo, a =>
    match memo a with
    | some value => .ok (value, memo)
    | none =>
      match expand a with
      | none => .error .missing
      | some n =>
        match visitAll (visit expand next f fuel) memo (next n) with
        | .error stop => .error stop
        | .ok (values, memo) =>
          match f n values with
          | none => .error .failed
          | some value => .ok (value, Function.update memo a (some value))

/-- What is worked out is the value of a tree, and all it rests on is worked out too. -/
structure Sound (expand : α → Option ν) (next : ν → List α) (f : ν → List β → Option β) (memo : Memo α β) :
    Prop where
  value : ∀ a v, memo a = some v → ∃ tree, Unfolds expand next a tree ∧ tree.run f = some v
  closed : ∀ a v, memo a = some v → ∀ b ∈ edges expand next a, ∃ w, memo b = some w

/-- A further value has been worked out, and none given up. -/
structure Visited (expand : α → Option ν) (next : ν → List α) (f : ν → List β → Option β) (memo : Memo α β)
    (a : α) (v : β) (after : Memo α β) : Prop where
  sound : Sound expand next f after
  kept : ∀ b w, memo b = some w → after b = some w
  known : after a = some v
  value : ∃ tree, Unfolds expand next a tree ∧ tree.run f = some v

structure VisitedAll (expand : α → Option ν) (next : ν → List α) (f : ν → List β → Option β)
    (memo : Memo α β) (names : List α) (vs : List β) (after : Memo α β) : Prop where
  sound : Sound expand next f after
  kept : ∀ b w, memo b = some w → after b = some w
  known : ∀ b ∈ names, ∃ w, after b = some w
  value : ∃ trees, UnfoldsAll expand next names trees ∧ Tree.runAll f trees = some vs

theorem visitAll_total {visit : Memo α β → α → Except Stop (β × Memo α β)} {names : List α}
    (hvisit : ∀ memo, Sound expand next f memo → ∀ a ∈ names, ∃ v after,
      visit memo a = .ok (v, after) ∧ Visited expand next f memo a v after)
    {memo : Memo α β} (sound : Sound expand next f memo) :
    ∃ vs after, visitAll visit memo names = .ok (vs, after) ∧
      VisitedAll expand next f memo names vs after := by
  induction names generalizing memo with
  | nil => exact ⟨[], memo, rfl, sound, fun _ _ h => h, fun _ hb => (nomatch hb), [], trivial, rfl⟩
  | cons a rest ih =>
    obtain ⟨v, between, hfirst, visited⟩ := hvisit memo sound a List.mem_cons_self
    obtain ⟨vs, after, hrest, visitedAll⟩ :=
      ih (fun memo sound b hb => hvisit memo sound b (List.mem_cons_of_mem _ hb)) visited.sound
    obtain ⟨tree, htree, hv⟩ := visited.value
    obtain ⟨trees, htrees, hvs⟩ := visitedAll.value
    refine ⟨_, after, by rw [visitAll, hfirst]; simp only [hrest]; rfl, visitedAll.sound,
      fun b w h => visitedAll.kept b w (visited.kept b w h), fun b hb => ?_, tree :: trees,
      ⟨htree, htrees⟩, by rw [Tree.runAll, hv, hvs]; rfl⟩
    rcases List.mem_cons.mp hb with rfl | hb
    · exact ⟨_, visitedAll.kept b _ visited.known⟩
    · exact visitedAll.known b hb

variable [DecidableEq α]

theorem Sound.update {memo after : Memo α β} {n : ν} {vs : List β} {v : β} (hexpand : expand a = some n)
    (h : VisitedAll expand next f memo (next n) vs after) (hnew : memo a = none) (hv : f n vs = some v) :
    Visited expand next f memo a v (Function.update after a (some v)) := by
  obtain ⟨trees, htrees, hvs⟩ := h.value
  have hvalue : Unfolds expand next a (.node n trees) ∧ Tree.run f (.node n trees) = some v := by
    rw [Unfolds, Tree.run, hvs]
    exact ⟨⟨hexpand, htrees⟩, hv⟩
  have hedges : edges expand next a = next n := by simp [edges, hexpand]
  refine ⟨⟨fun b v hb => ?_, fun b v hb c hc => ?_⟩, fun b w hb => ?_, Function.update_self ..,
    _, hvalue⟩
  · by_cases hba : b = a
    · subst hba
      rw [Function.update_self] at hb
      obtain rfl := Option.some.inj hb
      exact ⟨_, hvalue⟩
    · rw [Function.update_of_ne hba] at hb
      exact h.sound.value b v hb
  · have hold : ∃ w, after c = some w := by
      by_cases hba : b = a
      · subst hba
        rw [hedges] at hc
        exact h.known c hc
      · rw [Function.update_of_ne hba] at hb
        exact h.sound.closed b v hb c hc
    by_cases hca : c = a
    · subst hca
      exact ⟨_, Function.update_self ..⟩
    · rw [Function.update_of_ne hca]
      exact hold
  · have hba : b ≠ a := fun hba => by rw [hba, hnew] at hb; cases hb
    rw [Function.update_of_ne hba]
    exact h.kept b w hb

/-- A visit with as much fuel as there are names that do not lead to this one. -/
theorem visit_total (closed : Closed nodes (edges expand next)) (acyclic : Acyclic nodes (edges expand next))
    (known : ∀ a ∈ nodes, ∃ n, expand a = some n)
    (total : ∀ a ∈ nodes, ∀ n, expand a = some n → ∀ vs, vs.length = (next n).length → ∃ v, f n vs = some v)
    {memo : Memo α β} (sound : Sound expand next f memo)
    (ha : a ∈ nodes) (hnodup : stack.Nodup)
    (hstack : ∀ b ∈ stack, b ∈ nodes ∧ Path nodes (edges expand next) b a)
    (enough : nodes.length < fuel + stack.length) :
    ∃ v after, visit expand next f fuel memo a = .ok (v, after) ∧ Visited expand next f memo a v after := by
  induction fuel generalizing memo stack a with
  | zero =>
    have hlength := (hnodup.subperm (fun b hb => (hstack b hb).1)).length_le
    omega
  | succ fuel ih =>
    unfold visit
    cases hmemo : memo a with
    | some value => exact ⟨value, memo, rfl, sound, fun _ _ h => h, hmemo, sound.value a value hmemo⟩
    | none =>
      obtain ⟨n, hn⟩ := known a ha
      have hedges : edges expand next a = next n := by simp [edges, hn]
      have hchildren : ∀ memo, Sound expand next f memo → ∀ b ∈ next n, ∃ v after,
          visit expand next f fuel memo b = .ok (v, after) ∧ Visited expand next f memo b v after := by
        intro memo sound b hb
        rw [← hedges] at hb
        refine ih sound (closed a ha b hb)
          (List.nodup_cons.mpr ⟨fun hmem => acyclic a (hstack a hmem).2, hnodup⟩) (fun c hc => ?_)
          (by rw [List.length_cons]; omega)
        rcases List.mem_cons.mp hc with rfl | hc
        · exact ⟨ha, .single ⟨ha, hb⟩⟩
        · exact ⟨(hstack c hc).1, (hstack c hc).2.tail ⟨ha, hb⟩⟩
      obtain ⟨vs, after, hvisit, visited⟩ := visitAll_total hchildren sound
      obtain ⟨trees, htrees, hvs⟩ := visited.value
      obtain ⟨v, hv⟩ := total a ha n hn vs (runAll_length htrees hvs)
      simp only [hn, hvisit, hv]
      exact ⟨_, _, rfl, Sound.update hn visited hmemo hv⟩

/-- Without cycles, the value of the root is that of the tree it stands for, and so is the
value of whatever the root reaches. -/
theorem visit_root (closed : Closed nodes (edges expand next)) (acyclic : Acyclic nodes (edges expand next))
    (known : ∀ a ∈ nodes, ∃ n, expand a = some n)
    (total : ∀ a ∈ nodes, ∀ n, expand a = some n → ∀ vs, vs.length = (next n).length → ∃ v, f n vs = some v)
    (hroot : root ∈ nodes)
    (enough : nodes.length < fuel) :
    ∃ v memo, visit expand next f fuel (fun _ => none) root = .ok (v, memo) ∧ memo root = some v ∧
      ∀ a, Reach nodes (edges expand next) root a →
        ∃ w tree, memo a = some w ∧ Unfolds expand next a tree ∧ tree.run f = some w := by
  have hnone : Sound expand next f (fun _ => none) :=
    ⟨fun _ _ h => (nomatch h), fun _ _ h => (nomatch h)⟩
  have hstack : ∀ b ∈ ([] : List α), b ∈ nodes ∧ Path nodes (edges expand next) b root :=
    fun _ hb => (nomatch hb)
  obtain ⟨v, memo, hvisit, visited⟩ := visit_total closed acyclic known total hnone hroot List.nodup_nil
    hstack (by simpa using enough)
  refine ⟨v, memo, hvisit, visited.known, fun a ha => ?_⟩
  have hknown : ∃ w, memo a = some w := by
    induction ha with
    | refl => exact ⟨v, visited.known⟩
    | tail _ hedge ih =>
      obtain ⟨w, hw⟩ := ih
      exact visited.sound.closed _ w hw _ hedge.2
  obtain ⟨w, hw⟩ := hknown
  obtain ⟨tree, htree, hvalue⟩ := visited.sound.value a w hw
  exact ⟨w, tree, hw, htree, hvalue⟩

end Unfold
