import Mathlib.Data.List.Nodup
import Solvan.Base.Graph

/-! Depth-first search that stops at the first cycle it runs into. -/
namespace Search

open Graph (Acyclic Closed Edge Path Sorted)

variable {α : Type u} [DecidableEq α] {nodes visiting visited children : List α} {next : α → List α}
  {a b root : α} {fuel : Nat}

/-- Why a search stops: a cycle, or a depth it was not prepared for. -/
inductive Stop where
  | cycle | fuel
deriving DecidableEq, Repr

/-- Visit one node after the other. -/
def visitAll (visit : List α → α → Except Stop (List α)) : List α → List α → Except Stop (List α)
  | visited, [] => .ok visited
  | visited, a :: rest =>
    match visit visited a with
    | .error stop => .error stop
    | .ok visited => visitAll visit visited rest

/-- Visit a node after all that it leads to, unless that was done. The nodes whose visit is
under way lead to this one. -/
def visit (next : α → List α) : Nat → List α → List α → α → Except Stop (List α)
  | 0, _, _, _ => .error .fuel
  | fuel + 1, visiting, visited, a =>
    if a ∈ visiting then .error .cycle
    else if a ∈ visited then .ok visited
    else
      match visitAll (visit next fuel (a :: visiting)) visited (next a) with
      | .error stop => .error stop
      | .ok visited => .ok (visited ++ [a])

/-- A node is reached over any number of edges. -/
def Reach (nodes : List α) (next : α → List α) : α → α → Prop := Relation.ReflTransGen (Edge nodes next)

/-- Nodes that have been visited. -/
structure Visited (next : α → List α) (visited : List α) : Prop where
  sorted : Sorted next visited
  nodup : visited.Nodup

/-- What visits add: the nodes asked for, and what else these reach, but none whose visit
is under way. -/
structure Added (nodes : List α) (next : α → List α) (visiting visited : List α) (asked : α → Prop)
    (after : List α) : Prop where
  done : Visited next after
  kept : ∀ b ∈ visited, b ∈ after
  met : ∀ a, asked a → a ∈ after
  new : ∀ b ∈ after, b ∈ visited ∨ b ∉ visiting ∧ ∃ a, asked a ∧ Reach nodes next a b

/-- What a search comes to. -/
def Outcome (nodes : List α) (next : α → List α) (visiting visited : List α) (asked : α → Prop) :
    Except Stop (List α) → Prop
  | .ok after => Added nodes next visiting visited asked after
  | .error .cycle => ¬Acyclic nodes next
  | .error .fuel => False

omit [DecidableEq α] in
theorem visitAll_outcome {visit : List α → α → Except Stop (List α)}
    (hvisit : ∀ visited, Visited next visited → ∀ a ∈ children,
      Outcome nodes next visiting visited (· = a) (visit visited a))
    (hvisited : Visited next visited) :
    Outcome nodes next visiting visited (· ∈ children) (visitAll visit visited children) := by
  induction children generalizing visited with
  | nil => exact ⟨hvisited, fun _ hb => hb, fun _ ha => (nomatch ha), fun b hb => .inl hb⟩
  | cons a rest ih =>
    have hfirst := hvisit visited hvisited a List.mem_cons_self
    unfold visitAll
    cases houtcome : visit visited a with
    | error stop =>
      rw [houtcome] at hfirst
      cases stop with
      | cycle => exact hfirst
      | fuel => exact hfirst
    | ok between =>
      rw [houtcome] at hfirst
      have hfirst : Added nodes next visiting visited (· = a) between := hfirst
      have hrest := ih (fun visited hvisited b hb => hvisit visited hvisited b (List.mem_cons_of_mem _ hb))
        hfirst.done
      simp only
      cases hafter : visitAll visit between rest with
      | error stop =>
        rw [hafter] at hrest
        cases stop with
        | cycle => exact hrest
        | fuel => exact hrest
      | ok after =>
        rw [hafter] at hrest
        have hrest : Added nodes next visiting between (· ∈ rest) after := hrest
        refine ⟨hrest.done, fun b hb => hrest.kept b (hfirst.kept b hb), fun b hb => ?_, fun b hb => ?_⟩
        · rcases List.mem_cons.mp hb with rfl | hb
          · exact hrest.kept b (hfirst.met b rfl)
          · exact hrest.met b hb
        · rcases hrest.new b hb with hbetween | ⟨hfree, c, hc, hreach⟩
          · rcases hfirst.new b hbetween with hold | ⟨hfree, c, rfl, hreach⟩
            · exact .inl hold
            · exact .inr ⟨hfree, c, List.mem_cons_self, hreach⟩
          · exact .inr ⟨hfree, c, List.mem_cons_of_mem _ hc, hreach⟩

/-- A visit with as much fuel as there are nodes that are not under way. -/
theorem visit_outcome (closed : Closed nodes next) (hvisited : Visited next visited) (ha : a ∈ nodes)
    (hnodup : visiting.Nodup) (hvisiting : ∀ b ∈ visiting, b ∈ nodes ∧ Path nodes next b a)
    (enough : nodes.length < fuel + visiting.length) :
    Outcome nodes next visiting visited (· = a) (visit next fuel visiting visited a) := by
  induction fuel generalizing visiting visited a with
  | zero =>
    have hlength := (hnodup.subperm (fun b hb => (hvisiting b hb).1)).length_le
    omega
  | succ fuel ih =>
    unfold visit
    split
    · -- A node that is under way leads to itself.
      rename_i hcycle
      exact fun acyclic => acyclic a (hvisiting a hcycle).2
    · rename_i hfree
      split
      · rename_i hdone
        exact ⟨hvisited, fun _ hb => hb, fun b hb => hb ▸ hdone, fun b hb => .inl hb⟩
      · rename_i hnew
        have heach : ∀ visited, Visited next visited → ∀ b ∈ next a, Outcome nodes next (a :: visiting)
            visited (· = b) (visit next fuel (a :: visiting) visited b) := by
          intro visited hvisited b hb
          refine ih hvisited (closed a ha b hb) (List.nodup_cons.mpr ⟨hfree, hnodup⟩) (fun c hc => ?_)
            (by rw [List.length_cons]; omega)
          rcases List.mem_cons.mp hc with rfl | hc
          · exact ⟨ha, .single ⟨ha, hb⟩⟩
          · exact ⟨(hvisiting c hc).1, (hvisiting c hc).2.tail ⟨ha, hb⟩⟩
        have hchildren := visitAll_outcome heach hvisited
        cases houtcome : visitAll (visit next fuel (a :: visiting)) visited (next a) with
        | error stop =>
          rw [houtcome] at hchildren
          cases stop with
          | cycle => exact hchildren
          | fuel => exact hchildren
        | ok after =>
          rw [houtcome] at hchildren
          have hchildren : Added nodes next (a :: visiting) visited (· ∈ next a) after := hchildren
          have hlast : a ∉ after := fun hmem => by
            rcases hchildren.new a hmem with hold | ⟨hunder, -⟩
            · exact hnew hold
            · exact hunder List.mem_cons_self
          refine ⟨⟨hchildren.done.sorted.snoc hchildren.met, ?_⟩,
            fun b hb => List.mem_append_left _ (hchildren.kept b hb),
            fun b hb => hb ▸ List.mem_append_right _ (List.mem_singleton_self _), fun b hb => ?_⟩
          · refine List.Nodup.append hchildren.done.nodup (List.nodup_singleton a) (fun b hb hb' => ?_)
            rw [List.mem_singleton.mp hb'] at hb
            exact hlast hb
          · rcases List.mem_append.mp hb with hb | hb
            · rcases hchildren.new b hb with hold | ⟨hunder, c, hc, hreach⟩
              · exact .inl hold
              · exact .inr ⟨fun hmem => hunder (List.mem_cons_of_mem _ hmem), a, rfl,
                  .head ⟨ha, hc⟩ hreach⟩
            · rw [List.mem_singleton.mp hb]
              exact .inr ⟨hfree, a, rfl, .refl⟩

/-- A search from a root visits every node exactly where there are no cycles and the root
reaches them all. -/
theorem visits_all_iff (closed : Closed nodes next) (hroot : root ∈ nodes)
    (enough : nodes.length < fuel) :
    (∃ visited, visit next fuel [] [] root = .ok visited ∧ ∀ a ∈ nodes, a ∈ visited) ↔
      Acyclic nodes next ∧ ∀ a ∈ nodes, Reach nodes next root a := by
  have hnone : Visited next [] := ⟨(fun front _ _ h => by cases front <;> cases h), List.nodup_nil⟩
  have hvisiting : ∀ b ∈ ([] : List α), b ∈ nodes ∧ Path nodes next b root := fun _ hb => (nomatch hb)
  have houtcome := visit_outcome closed hnone hroot List.nodup_nil hvisiting (by simpa using enough)
  constructor
  · rintro ⟨visited, hvisit, hall⟩
    rw [hvisit] at houtcome
    have hadded : Added nodes next [] [] (· = root) visited := houtcome
    refine ⟨hadded.done.sorted.acyclic hadded.done.nodup hall, fun a ha => ?_⟩
    rcases hadded.new a (hall a ha) with hnone | ⟨-, c, rfl, hreach⟩
    · cases hnone
    · exact hreach
  · rintro ⟨acyclic, hreach⟩
    cases hvisit : visit next fuel [] [] root with
    | error stop =>
      rw [hvisit] at houtcome
      cases stop with
      | cycle => exact absurd acyclic houtcome
      | fuel => exact houtcome.elim
    | ok visited =>
      rw [hvisit] at houtcome
      have hadded : Added nodes next [] [] (· = root) visited := houtcome
      refine ⟨visited, rfl, fun a ha => ?_⟩
      -- What is visited leads to nothing else.
      have hclosed : ∀ a, Reach nodes next root a → a ∈ visited := by
        intro a ha
        induction ha with
        | refl => exact hadded.met root rfl
        | tail _ hedge ih => exact hadded.done.sorted.mem ih _ hedge.2
      exact hclosed a (hreach a ha)

end Search
