import Mathlib.Data.Finset.Card
import Mathlib.Data.List.Sort

/-! Items picked one after the other, each once, until there are as many as are wanted. -/
namespace Solvan.Base

variable {α : Type} {lt : α → α → Prop} {limit : Nat} {before picked : List α} {item e : α}

/-- An item is picked if it is a new one and there is room. -/
def pick [DecidableEq α] (limit : Nat) (picked : List α) (item : α) : List α :=
  if item ∉ picked ∧ picked.length < limit then picked ++ [item] else picked

/-- What is picked of the items that came before: different ones, and the foremost where there is no more room. -/
structure Picked (lt : α → α → Prop) (limit : Nat) (before picked : List α) : Prop where
  nodup : picked.Nodup
  sub : ∀ e ∈ picked, e ∈ before
  length_le : picked.length ≤ limit
  foremost : ∀ e ∈ before, e ∈ picked ∨ picked.length = limit ∧ ∀ x ∈ picked, lt x e

theorem Picked.nil : Picked lt limit [] [] where
  nodup := List.nodup_nil
  sub := nofun
  length_le := Nat.zero_le _
  foremost := nofun

/-- Where there is room left, everything is picked. -/
theorem Picked.all (h : Picked lt limit before picked) (hroom : picked.length < limit) (he : e ∈ before) :
    e ∈ picked := by
  obtain hin | ⟨hfull, -⟩ := h.foremost e he
  · exact hin
  · exact absurd hroom (by omega)

/-- A stable sort by one relation of a list that another sorts is sorted by the two, the second where the first ties. -/
theorem sorted_twice {r s : α → α → Prop} [DecidableRel r] [Std.Total r] [IsTrans α r] {l : List α}
    (h : l.Pairwise s) : (l.insertionSort r).Pairwise (fun a b => r a b ∧ (r b a → s a b)) := by
  induction l with
  | nil => exact List.Pairwise.nil
  | cons a l ih =>
    obtain ⟨ha, hl⟩ := List.pairwise_cons.mp h
    have hs : ∀ b ∈ l.insertionSort r, s a b := fun b hb => ha b ((List.mem_insertionSort _).mp hb)
    have hsorted := ih hl
    show ((l.insertionSort r).orderedInsert r a).Pairwise _
    generalize l.insertionSort r = sorted at hs hsorted
    induction sorted with
    | nil => exact List.pairwise_singleton _ _
    | cons b sorted ihsorted =>
      obtain ⟨hb, hrest⟩ := List.pairwise_cons.mp hsorted
      rw [List.orderedInsert_cons]
      split
      · rename_i hab
        refine List.pairwise_cons.mpr ⟨fun c hc => ?_, hsorted⟩
        obtain rfl | hc' := List.mem_cons.mp hc
        · exact ⟨hab, fun _ => hs c hc⟩
        · exact ⟨trans_of r hab (hb c hc').1, fun _ => hs c hc⟩
      · rename_i hab
        have hba : r b a := (Std.Total.total (r := r) a b).resolve_left hab
        refine List.pairwise_cons.mpr ⟨fun c hc => ?_, ihsorted (fun c hc => hs c (List.mem_cons_of_mem _ hc)) hrest⟩
        obtain rfl | hc' := (List.mem_orderedInsert r).mp hc
        · exact ⟨hba, fun hback => absurd hback hab⟩
        · exact hb c hc'

variable [DecidableEq α]

theorem Picked.pick (h : Picked lt limit before picked) (hlast : ∀ x ∈ before, x = item ∨ lt x item) :
    Picked lt limit (before ++ [item]) (pick limit picked item) := by
  unfold Base.pick
  split
  · rename_i hnew
    refine ⟨?_, fun e he => ?_, ?_, fun e he => ?_⟩
    · refine List.nodup_append.mpr ⟨h.nodup, List.nodup_singleton _, fun a ha b hb heq => hnew.1 ?_⟩
      rw [← List.mem_singleton.mp hb, ← heq]
      exact ha
    · obtain hmem | hmem := List.mem_append.mp he
      · exact List.mem_append_left _ (h.sub e hmem)
      · exact List.mem_append_right _ hmem
    · rw [List.length_append, List.length_singleton]
      exact hnew.2
    · refine .inl ?_
      obtain hmem | hmem := List.mem_append.mp he
      · obtain hin | ⟨hfull, -⟩ := h.foremost e hmem
        · exact List.mem_append_left _ hin
        · exact absurd hnew.2 (by omega)
      · exact List.mem_append_right _ hmem
  · rename_i hnot
    refine ⟨h.nodup, fun e he => List.mem_append_left _ (h.sub e he), h.length_le, fun e he => ?_⟩
    obtain hmem | hmem := List.mem_append.mp he
    · exact h.foremost e hmem
    · obtain rfl := List.mem_singleton.mp hmem
      by_cases hin : e ∈ picked
      · exact .inl hin
      · have hroom : ¬picked.length < limit := fun hroom => hnot ⟨hin, hroom⟩
        refine .inr ⟨Nat.le_antisymm h.length_le (Nat.le_of_not_lt hroom), fun x hx => ?_⟩
        obtain rfl | hlt := hlast x (h.sub x hx)
        · exact absurd hx hin
        · exact hlt

/-- The items of a sorted list, picked from the first on. -/
theorem picked_foldl {items : List α} (h : Picked lt limit before picked)
    (hsorted : (before ++ items).Pairwise (fun a b => a = b ∨ lt a b)) :
    Picked lt limit (before ++ items) (items.foldl (pick limit) picked) := by
  induction items generalizing before picked with
  | nil => simpa using h
  | cons item items ih =>
    have hsplit : before ++ item :: items = before ++ [item] ++ items := by simp
    rw [hsplit] at hsorted ⊢
    refine ih (h.pick (fun x hx => ?_)) hsorted
    have hpair := (List.pairwise_append.mp (List.pairwise_append.mp hsorted).1).2.2
    exact hpair x hx item (List.mem_singleton_self _)

variable [DecidableRel lt]

/-- How many different items come before another. -/
def ahead (lt : α → α → Prop) [DecidableRel lt] (items : List α) (e : α) : Nat :=
  (items.toFinset.filter (fun x => lt x e)).card

/-- What is picked are the items that fewer different ones come before than are wanted. -/
theorem Picked.mem_iff (h : Picked lt limit before picked) (hasymm : ∀ a b, lt a b → ¬lt b a) :
    e ∈ picked ↔ e ∈ before ∧ ahead lt before e < limit := by
  constructor
  · intro he
    refine ⟨h.sub e he, ?_⟩
    have hsubset : before.toFinset.filter (fun x => lt x e) ⊆ picked.toFinset.erase e := by
      intro x hx
      obtain ⟨hmem, hlt⟩ := Finset.mem_filter.mp hx
      refine Finset.mem_erase.mpr ⟨fun heq => hasymm x e hlt (heq ▸ heq ▸ hlt), List.mem_toFinset.mpr ?_⟩
      obtain hin | ⟨-, hbefore⟩ := h.foremost x (List.mem_toFinset.mp hmem)
      · exact hin
      · exact absurd (hbefore e he) (hasymm x e hlt)
    refine Nat.lt_of_le_of_lt (Finset.card_le_card hsubset) ?_
    have hcard := Finset.card_erase_lt_of_mem (List.mem_toFinset.mpr he)
    rw [List.toFinset_card_of_nodup h.nodup] at hcard
    exact Nat.lt_of_lt_of_le hcard h.length_le
  · rintro ⟨hmem, hfew⟩
    obtain hin | ⟨hfull, hbefore⟩ := h.foremost e hmem
    · exact hin
    · have hsubset : picked.toFinset ⊆ before.toFinset.filter (fun x => lt x e) := by
        intro x hx
        have hx := List.mem_toFinset.mp hx
        exact Finset.mem_filter.mpr ⟨List.mem_toFinset.mpr (h.sub x hx), hbefore x hx⟩
      have hcard := Finset.card_le_card hsubset
      rw [List.toFinset_card_of_nodup h.nodup, hfull] at hcard
      exact absurd hfew (Nat.not_lt.mpr hcard)

end Solvan.Base
