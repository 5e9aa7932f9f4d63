import Solvan.Base.Paging

/-! A reader that follows a growing store behind a cursor: when items put into the
store between its reads reach it, each once. -/
namespace Feed

open Paging (Ordered after mem_after)

variable {α : Type u} {κ : Type v} [LinearOrder κ] {key : α → κ}

/-- What is stored, how far the reader has come, and what it has read. -/
structure State (α : Type u) (κ : Type v) where
  rows : List α
  cursor : κ
  seen : List α

inductive Move (α : Type u) where
  | append (batch : List α)
  | read (count : Nat)

variable {s t : State α κ} {move : Move α} {moves : List (Move α)} {a : α} {count : Nat}

/-- What lies behind the cursor, in the order of the keys. -/
def State.pending (key : α → κ) (s : State α κ) : List α :=
  (after key s.cursor s.rows).insertionSort (fun a b => key a ≤ key b)

def State.page (key : α → κ) (s : State α κ) (count : Nat) : List α := (s.pending key).take count

/-- The reader goes on from the last item of its page. -/
def State.next (key : α → κ) (s : State α κ) : Move α → State α κ
  | .append batch => { s with rows := s.rows ++ batch }
  | .read count =>
    { s with
      cursor := ((s.page key count).getLast?.map key).getD s.cursor
      seen := s.seen ++ s.page key count }

def State.run (key : α → κ) (s : State α κ) (moves : List (Move α)) : State α κ :=
  moves.foldl (State.next key) s

/-- Everything that some moves put into the store. -/
def appended (moves : List (Move α)) : List α :=
  moves.flatMap (fun | .append batch => batch | .read _ => [])

/-- Nothing is put into the store behind the reader's back. -/
def Timely (key : α → κ) : State α κ → List (Move α) → Prop
  | _, [] => True
  | s, .append batch :: moves =>
    (∀ a ∈ batch, s.cursor < key a) ∧ Timely key (s.next key (.append batch)) moves
  | s, .read count :: moves => Timely key (s.next key (.read count)) moves

@[simp] theorem run_nil : s.run key [] = s := rfl

@[simp] theorem run_cons : s.run key (move :: moves) = (s.next key move).run key moves := rfl

theorem run_append (others : List (Move α)) :
    s.run key (moves ++ others) = (s.run key moves).run key others := List.foldl_append

theorem run_rows : (s.run key moves).rows = s.rows ++ appended moves := by
  induction moves generalizing s with
  | nil => exact (List.append_nil _).symm
  | cons move moves ih =>
    rw [run_cons, ih]
    cases move with
    | append batch => simp [State.next, appended]
    | read count => simp [State.next, appended]

theorem mem_pending : a ∈ s.pending key ↔ a ∈ s.rows ∧ s.cursor < key a := by
  rw [State.pending, List.mem_insertionSort, mem_after]

theorem mem_of_mem_page (h : a ∈ s.page key count) : a ∈ s.rows ∧ s.cursor < key a :=
  mem_pending.mp (List.mem_of_mem_take h)

/-- A sort by distinct keys. -/
theorem ordered_sort {rows : List α} (hkeys : (rows.map key).Nodup) :
    Ordered key (rows.insertionSort (fun a b => key a ≤ key b)) := by
  have htotal : Std.Total (fun a b : α => key a ≤ key b) := ⟨fun a b => le_total _ _⟩
  have htrans : IsTrans α (fun a b => key a ≤ key b) := ⟨fun _ _ _ => le_trans⟩
  have hweak := List.pairwise_insertionSort (fun a b => key a ≤ key b) rows
  have hperm := List.perm_insertionSort (fun a b => key a ≤ key b) rows
  have hne := List.pairwise_map.mp ((hperm.map key).nodup_iff.mpr hkeys)
  exact hweak.imp₂ (fun _ _ hle hne => lt_of_le_of_ne hle hne) hne

theorem ordered_pending (hkeys : (s.rows.map key).Nodup) : Ordered key (s.pending key) :=
  ordered_sort (hkeys.sublist (List.filter_sublist.map key))

/-- A sort by anything that puts smaller keys first is the sort by distinct keys. -/
theorem sort_unique {rows sorted : List α} (hkeys : (rows.map key).Nodup) (hperm : sorted.Perm rows)
    (hsorted : sorted.Pairwise (fun a b => key a ≤ key b)) :
    sorted = rows.insertionSort (fun a b => key a ≤ key b) := by
  refine List.Perm.eq_of_pairwise ?_ hsorted ((ordered_sort hkeys).imp le_of_lt)
    (hperm.trans (List.perm_insertionSort _ _).symm)
  intro a b ha hb hab hba
  exact List.inj_on_of_nodup_map hkeys (hperm.mem_iff.mp ha) ((List.mem_insertionSort _).mp hb)
    (le_antisymm hab hba)

theorem cursor_le (key : α → κ) (s : State α κ) (move : Move α) : s.cursor ≤ (s.next key move).cursor := by
  cases move with
  | append batch => exact le_rfl
  | read count =>
    simp only [State.next]
    cases hlast : (s.page key count).getLast? with
    | none => exact le_rfl
    | some last => exact (mem_of_mem_page (List.mem_of_getLast? hlast)).2.le

/-- The reader has read only what is stored and what it has passed, nothing twice. -/
structure Read (key : α → κ) (s : State α κ) : Prop where
  keys : (s.rows.map key).Nodup
  passed : ∀ a ∈ s.seen, a ∈ s.rows ∧ key a ≤ s.cursor
  once : s.seen.Nodup

/-- An item on the reader's page is not behind the cursor it goes on from. -/
theorem page_le (hkeys : (s.rows.map key).Nodup) (h : a ∈ s.page key count) :
    key a ≤ (s.next key (.read count)).cursor := by
  simp only [State.next]
  cases hlast : (s.page key count).getLast? with
  | none =>
    rw [List.getLast?_eq_none_iff] at hlast
    rw [hlast] at h
    cases h
  | some last =>
    obtain ⟨front, hfront⟩ := List.getLast?_eq_some_iff.mp hlast
    have hordered : Ordered key (front ++ [last]) :=
      hfront ▸ List.Pairwise.sublist (List.take_sublist _ _) (ordered_pending hkeys)
    rw [hfront] at h
    rcases List.mem_append.mp h with hmem | hmem
    · exact ((List.pairwise_append.mp hordered).2.2 a hmem last (List.mem_singleton_self _)).le
    · exact (List.mem_singleton.mp hmem) ▸ le_rfl

theorem Read.next (h : Read key s) (hkeys : ((s.next key move).rows.map key).Nodup) :
    Read key (s.next key move) := by
  refine ⟨hkeys, ?_, ?_⟩
  · cases move with
    | append batch => exact fun a ha => ⟨List.mem_append_left _ (h.passed a ha).1, (h.passed a ha).2⟩
    | read count =>
      intro a ha
      rcases List.mem_append.mp ha with hseen | hpage
      · exact ⟨(h.passed a hseen).1, (h.passed a hseen).2.trans (cursor_le key s _)⟩
      · exact ⟨(mem_of_mem_page hpage).1, page_le h.keys hpage⟩
  · cases move with
    | append batch => exact h.once
    | read count =>
      have hpage : (s.page key count).Nodup :=
        ((ordered_pending h.keys).imp (fun hlt => ne_of_apply_ne key hlt.ne)).sublist (List.take_sublist _ _)
      refine List.Nodup.append h.once hpage (fun a hseen ha => ?_)
      exact absurd (mem_of_mem_page ha).2 (not_lt.mpr (h.passed a hseen).2)

/-- Of what is stored, the reader has read all that it has passed. -/
def Whole (key : α → κ) (s : State α κ) : Prop := ∀ a ∈ s.rows, key a ≤ s.cursor → a ∈ s.seen

theorem Whole.read (h : Whole key s) (hkeys : (s.rows.map key).Nodup) :
    Whole key (s.next key (.read count)) := by
  intro a ha hle
  by_cases hpassed : key a ≤ s.cursor
  · exact List.mem_append_left _ (h a ha hpassed)
  · -- What is not on the page comes after its last item.
    refine List.mem_append_right _ ?_
    have hpending : a ∈ s.pending key := mem_pending.mpr ⟨ha, not_le.mp hpassed⟩
    rw [← List.take_append_drop count (s.pending key)] at hpending
    rcases List.mem_append.mp hpending with hpage | hrest
    · exact hpage
    · exfalso
      simp only [State.next] at hle
      cases hlast : (s.page key count).getLast? with
      | none =>
        rw [hlast] at hle
        exact hpassed hle
      | some last =>
        rw [hlast] at hle
        have hordered := ordered_pending hkeys
        rw [← List.take_append_drop count (s.pending key)] at hordered
        have hlt := (List.pairwise_append.mp hordered).2.2 last (List.mem_of_getLast? hlast) a hrest
        exact absurd hle (not_le.mpr hlt)

/-- An item that the reader has passed without reading it. -/
def Lost (key : α → κ) (s : State α κ) (a : α) : Prop := a ∈ s.rows ∧ key a ≤ s.cursor ∧ a ∉ s.seen

theorem Lost.next (h : Lost key s a) : Lost key (s.next key move) a := by
  obtain ⟨hrow, hle, hunseen⟩ := h
  refine ⟨?_, hle.trans (cursor_le key s move), ?_⟩
  · cases move with
    | append batch => exact List.mem_append_left _ hrow
    | read count => exact hrow
  · cases move with
    | append batch => exact hunseen
    | read count =>
      intro hseen
      rcases List.mem_append.mp hseen with hold | hpage
      · exact hunseen hold
      · exact absurd (mem_of_mem_page hpage).2 (not_lt.mpr hle)

theorem Lost.run (h : Lost key s a) : Lost key (s.run key moves) a := by
  induction moves generalizing s with
  | nil => exact h
  | cons move moves ih => exact ih h.next

theorem keys_next (hkeys : ((s.rows ++ appended (move :: moves)).map key).Nodup) :
    (((s.next key move).rows ++ appended moves).map key).Nodup := by
  have hrows : (s.run key (move :: moves)).rows = s.rows ++ appended (move :: moves) := run_rows
  rw [run_cons, run_rows] at hrows
  rwa [hrows]

omit [LinearOrder κ] in
theorem keys_left {rest : List α} (hkeys : ((s.rows ++ rest).map key).Nodup) : (s.rows.map key).Nodup :=
  hkeys.sublist ((List.sublist_append_left _ _).map key)

theorem Read.run (h : Read key s) (hkeys : ((s.rows ++ appended moves).map key).Nodup) :
    Read key (s.run key moves) := by
  induction moves generalizing s with
  | nil => exact h
  | cons move moves ih => exact ih (h.next (keys_left (keys_next hkeys))) (keys_next hkeys)

/-- As long as nothing comes too late, nothing is passed by. -/
theorem Whole.run (h : Whole key s) (hread : Read key s)
    (hkeys : ((s.rows ++ appended moves).map key).Nodup) (timely : Timely key s moves) :
    Whole key (s.run key moves) := by
  induction moves generalizing s with
  | nil => exact h
  | cons move moves ih =>
    have hnext := hread.next (keys_left (keys_next hkeys))
    cases move with
    | append batch =>
      refine ih (fun a ha hle => ?_) hnext (keys_next hkeys) timely.2
      rcases List.mem_append.mp ha with hrow | hnew
      · exact h a hrow hle
      · exact absurd (timely.1 a hnew) (not_lt.mpr hle)
    | read count => exact ih (h.read hread.keys) hnext (keys_next hkeys) timely

/-- What comes too late is lost for good. -/
theorem lost_of_late (hread : Read key s) (hkeys : ((s.rows ++ appended moves).map key).Nodup)
    (late : ¬Timely key s moves) : ∃ a, Lost key (s.run key moves) a := by
  induction moves generalizing s with
  | nil => exact absurd trivial late
  | cons move moves ih =>
    have hnext := hread.next (keys_left (keys_next hkeys))
    cases move with
    | append batch =>
      by_cases hbatch : ∀ a ∈ batch, s.cursor < key a
      · exact ih hnext (keys_next hkeys) (fun timely => late ⟨hbatch, timely⟩)
      · push Not at hbatch
        obtain ⟨a, ha, hle⟩ := hbatch
        refine ⟨a, Lost.run (s := s.next key (.append batch)) ⟨List.mem_append_right _ ha, hle, ?_⟩⟩
        -- It was not stored before, so it has not been read either.
        intro hseen
        have hrow := (hread.passed a hseen).1
        have hboth := keys_left (keys_next hkeys)
        rw [State.next, List.map_append, List.nodup_append] at hboth
        exact hboth.2.2 (key a) (List.mem_map_of_mem hrow) (key a) (List.mem_map_of_mem ha) rfl
    | read count => exact ih hnext (keys_next hkeys) late

/-- A reader that has come to the end of the store has read every item once exactly
if nothing was put in behind its back. -/
theorem read_all_iff (hread : Read key s) (hwhole : Whole key s)
    (hkeys : ((s.rows ++ appended moves).map key).Nodup)
    (drained : (s.run key moves).pending key = []) :
    (s.run key moves).seen.Perm (s.run key moves).rows ↔ Timely key s moves := by
  have hfinal := hread.run hkeys
  constructor
  · intro hperm
    by_contra late
    obtain ⟨a, hrow, -, hunseen⟩ := lost_of_late hread hkeys late
    exact hunseen (hperm.mem_iff.mpr hrow)
  · intro timely
    refine (List.perm_ext_iff_of_nodup hfinal.once hfinal.keys.of_map).mpr (fun a => ?_)
    refine ⟨fun ha => (hfinal.passed a ha).1, fun ha => ?_⟩
    refine hwhole.run hread hkeys timely a ha ?_
    by_contra hbehind
    have hpending := mem_pending.mpr ⟨ha, not_le.mp hbehind⟩
    rw [drained] at hpending
    cases hpending

end Feed
