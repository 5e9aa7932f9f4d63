import Mathlib.Data.List.Infix

/-! The parts of a list between separators. -/
namespace Split

variable {α : Type u} [DecidableEq α] {sep : α} {part list : List α}

/-- Where a part may stand: at an end of the list or next to a separator. -/
def Bounded (sep : α) (front back : List α) : Prop :=
  (front = [] ∨ ∃ before, front = before ++ [sep]) ∧ (back = [] ∨ ∃ after, back = sep :: after)

/-- The parts of a list are what holds no separator and is bounded by such or by the ends. -/
theorem mem_splitOn : part ∈ list.splitOn sep ↔
    sep ∉ part ∧ ∃ front back, list = front ++ part ++ back ∧ Bounded sep front back := by
  constructor
  · intro hpart
    generalize hsize : list.length = size
    induction size using Nat.strongRecOn generalizing list with
    | _ size ih =>
      by_cases hsep : sep ∈ list
      · obtain ⟨first, rest, hfirst, rfl⟩ : ∃ first rest, sep ∉ first ∧ list = first ++ sep :: rest :=
          List.eq_append_cons_of_mem hsep |>.imp fun first => by
            rintro ⟨rest, heq, hnot⟩
            exact ⟨rest, hnot, heq⟩
        rw [List.splitOn_append_cons_self, List.splitOn_eq_singleton hfirst, List.singleton_append,
          List.mem_cons] at hpart
        rcases hpart with rfl | hpart
        · exact ⟨hfirst, [], sep :: rest, rfl, .inl rfl, .inr ⟨rest, rfl⟩⟩
        · -- A part of the rest has the first part and a separator before it.
          have hless : rest.length < size := by
            rw [← hsize, List.length_append, List.length_cons]
            omega
          obtain ⟨hnot, front, back, rfl, hfront, hback⟩ := ih _ hless hpart rfl
          refine ⟨hnot, first ++ sep :: front, back, by simp, .inr ?_, hback⟩
          rcases hfront with rfl | ⟨before, rfl⟩
          · exact ⟨first, rfl⟩
          · exact ⟨first ++ sep :: before, by simp⟩
      · rw [List.splitOn_eq_singleton hsep, List.mem_singleton] at hpart
        subst hpart
        exact ⟨hsep, [], [], by simp, .inl rfl, .inl rfl⟩
  · rintro ⟨hnot, front, back, rfl, hfront, hback⟩
    have htail : part ∈ (part ++ back).splitOn sep := by
      rcases hback with rfl | ⟨after, rfl⟩
      · rw [List.append_nil, List.splitOn_eq_singleton hnot]
        exact List.mem_singleton_self part
      · rw [List.splitOn_append_cons_self, List.splitOn_eq_singleton hnot]
        exact List.mem_cons_self
    rcases hfront with rfl | ⟨before, rfl⟩
    · exact htail
    · rw [List.append_assoc, List.append_assoc, List.singleton_append, List.splitOn_append_cons_self]
      exact List.mem_append_right _ htail

end Split
