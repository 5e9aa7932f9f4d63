import Mathlib.Data.List.Basic

/-! Pages that are followed to the end, each by the cursor the page before it gave. -/
namespace Pages

variable {τ : Type u} {π : Type v} {α : Type w} {read : τ → Option π} {next : π → Option τ}
  {rows : π → List α} {n : Nat} {good : α → Prop} {behind : τ → List α → Prop} {c c' : τ}
  {page : π} {pages : List π} {rest : List α} {last : α}

/-- The pages from a cursor on, until one gives no cursor. -/
inductive Reads (read : τ → Option π) (next : π → Option τ) : τ → List π → Prop where
  | last {c : τ} {page : π} (hread : read c = some page) (hnext : next page = none) : Reads read next c [page]
  | more {c c' : τ} {page : π} {pages : List π} (hread : read c = some page) (hnext : next page = some c')
      (rest : Reads read next c' pages) : Reads read next c (page :: pages)

/-- The cursors that are given on the way. -/
inductive Given (read : τ → Option π) (next : π → Option τ) : τ → τ → Prop where
  | first {c c' : τ} {page : π} (hread : read c = some page) (hnext : next page = some c') : Given read next c c'
  | later {c c' c'' : τ} {page : π} (hread : read c = some page) (hnext : next page = some c')
      (rest : Given read next c' c'') : Given read next c c''

theorem Reads.readable (h : Reads read next c pages) : ∃ page, read c = some page := by
  cases h with
  | last hread => exact ⟨_, hread⟩
  | more hread => exact ⟨_, hread⟩

/-- Each page was read from some cursor. -/
theorem Reads.served (h : Reads read next c pages) : ∀ page ∈ pages, ∃ c', read c' = some page := by
  induction h with
  | last hread hnext => exact List.forall_mem_singleton.mpr ⟨_, hread⟩
  | more hread hnext _ ih => exact List.forall_mem_cons.mpr ⟨⟨_, hread⟩, ih⟩

/-- Where the end is reached, no cursor given on the way was refused. -/
theorem Reads.given (h : Reads read next c pages) (hgiven : Given read next c c') :
    ∃ page, read c' = some page := by
  induction hgiven generalizing pages with
  | first hread hnext =>
    cases h with
    | last hread' hnext' =>
      obtain rfl := Option.some.inj (hread.symm.trans hread')
      cases hnext.symm.trans hnext'
    | more hread' hnext' rest =>
      obtain rfl := Option.some.inj (hread.symm.trans hread')
      obtain rfl := Option.some.inj (hnext.symm.trans hnext')
      exact rest.readable
  | later hread hnext _ ih =>
    cases h with
    | last hread' hnext' =>
      obtain rfl := Option.some.inj (hread.symm.trans hread')
      cases hnext.symm.trans hnext'
    | more hread' hnext' rest =>
      obtain rfl := Option.some.inj (hread.symm.trans hread')
      obtain rfl := Option.some.inj (hnext.symm.trans hnext')
      exact ih rest

/-- A cursor that stands before some rows reads `n` of them, and its page gives
a cursor that stands before the others exactly where the page's last row is good. -/
structure Serves (read : τ → Option π) (next : π → Option τ) (rows : π → List α) (n : Nat)
    (good : α → Prop) (behind : τ → List α → Prop) : Prop where
  short : ∀ {c : τ} {rest : List α}, behind c rest → rest.length ≤ n →
    ∃ page, read c = some page ∧ rows page = rest ∧ next page = none
  long : ∀ {c : τ} {rest : List α} {last : α}, behind c rest → n < rest.length → rest[n - 1]? = some last → good last →
    ∃ page c', read c = some page ∧ rows page = rest.take n ∧ next page = some c' ∧
      behind c' (rest.drop n)
  stuck : ∀ {c : τ} {rest : List α} {last : α}, behind c rest → n < rest.length → rest[n - 1]? = some last → ¬good last →
    ∀ page, read c = some page → ∃ c', next page = some c' ∧ read c' = none

/-- The rows that end a page and are not the last ones. -/
def Ends (good : α → Prop) (n : Nat) (rest : List α) : Prop :=
  ∀ k last, (k + 1) * n < rest.length → rest[(k + 1) * n - 1]? = some last → good last

theorem ends_of_short (h : rest.length ≤ n) : Ends good n rest := by
  intro k last hlong
  have hle : n ≤ (k + 1) * n := Nat.le_mul_of_pos_left n (Nat.succ_pos k)
  omega

theorem ends_drop (positive : 0 < n) (hlong : n < rest.length) (hlast : rest[n - 1]? = some last) :
    Ends good n rest ↔ good last ∧ Ends good n (rest.drop n) := by
  have hshift : ∀ k, (k + 1 + 1) * n = n + (k + 1) * n := fun k => by
    rw [Nat.succ_mul, Nat.add_comm]
  have hpos : ∀ k, 0 < (k + 1) * n := fun k => Nat.mul_pos (Nat.succ_pos k) positive
  have hplace : ∀ k, n + (k + 1) * n - 1 = n + ((k + 1) * n - 1) := fun k => by
    have hk := hpos k
    omega
  constructor
  · intro h
    refine ⟨h 0 last (by simpa using hlong) (by simpa using hlast), fun k other hk hother => ?_⟩
    rw [List.length_drop] at hk
    rw [List.getElem?_drop] at hother
    exact h (k + 1) other (by rw [hshift]; omega) (by rw [hshift, hplace]; exact hother)
  · rintro ⟨hgood, hrest⟩ k other hk hother
    cases k with
    | zero =>
      rw [Nat.zero_add, Nat.one_mul, hlast] at hother
      exact Option.some.inj hother ▸ hgood
    | succ k =>
      rw [hshift] at hk hother
      rw [hplace] at hother
      exact hrest k other (by rw [List.length_drop]; omega) (by rw [List.getElem?_drop]; exact hother)

theorem ends_map {β : Type w} (g : α → β) {good : β → Prop} :
    Ends good n (rest.map g) ↔ Ends (fun row => good (g row)) n rest := by
  simp only [Ends, List.length_map, List.getElem?_map, Option.map_eq_some_iff]
  constructor
  · exact fun h k last hk hlast => h k (g last) hk ⟨last, hlast, rfl⟩
  · rintro h k last hk ⟨row, hrow, rfl⟩
    exact h k row hk hrow

/-- A page without a cursor is the last, for all that is left is on it. -/
theorem Serves.read_last (h : Serves read next rows n good behind) (hbehind : behind c rest)
    (hread : read c = some page) (hnext : next page = none) : rest.length ≤ n ∧ rows page = rest := by
  by_cases hshort : rest.length ≤ n
  · obtain ⟨page', hpage, hrows, -⟩ := h.short hbehind hshort
    obtain rfl := Option.some.inj (hread.symm.trans hpage)
    exact ⟨hshort, hrows⟩
  · have hlong : n < rest.length := by omega
    have hlast := List.getElem?_eq_getElem (show n - 1 < rest.length by omega)
    by_cases hgood : good rest[n - 1]
    · obtain ⟨page', c', hpage, -, hgives, -⟩ := h.long hbehind hlong hlast hgood
      obtain rfl := Option.some.inj (hread.symm.trans hpage)
      cases hnext.symm.trans hgives
    · obtain ⟨c', hgives, -⟩ := h.stuck hbehind hlong hlast hgood _ hread
      cases hnext.symm.trans hgives

/-- A page with a cursor that is read in its turn is `n` rows, the last of them good. -/
theorem Serves.read_more (h : Serves read next rows n good behind) (hbehind : behind c rest)
    (hread : read c = some page) (hnext : next page = some c') (hreadable : ∃ page', read c' = some page') :
    ∃ last, n < rest.length ∧ rest[n - 1]? = some last ∧ good last ∧ rows page = rest.take n ∧
      behind c' (rest.drop n) := by
  by_cases hshort : rest.length ≤ n
  · obtain ⟨page', hpage, -, hnone⟩ := h.short hbehind hshort
    obtain rfl := Option.some.inj (hread.symm.trans hpage)
    cases hnext.symm.trans hnone
  · have hlong : n < rest.length := by omega
    have hlast := List.getElem?_eq_getElem (show n - 1 < rest.length by omega)
    by_cases hgood : good rest[n - 1]
    · obtain ⟨page', c'', hpage, hrows, hgives, hnew⟩ := h.long hbehind hlong hlast hgood
      obtain rfl := Option.some.inj (hread.symm.trans hpage)
      obtain rfl := Option.some.inj (hnext.symm.trans hgives)
      exact ⟨_, hlong, hlast, hgood, hrows, hnew⟩
    · obtain ⟨c'', hgives, hnone⟩ := h.stuck hbehind hlong hlast hgood _ hread
      obtain rfl := Option.some.inj (hnext.symm.trans hgives)
      obtain ⟨page', hpage⟩ := hreadable
      cases hnone.symm.trans hpage

/-- The pages are all the rows, in their order. -/
theorem Serves.rows_eq (h : Serves read next rows n good behind) (hbehind : behind c rest)
    (hreads : Reads read next c pages) : pages.flatMap rows = rest := by
  induction hreads generalizing rest with
  | last hread hnext =>
    rw [List.flatMap_cons, List.flatMap_nil, List.append_nil, (h.read_last hbehind hread hnext).2]
  | more hread hnext hrest ih =>
    obtain ⟨last, -, -, -, hrows, hnew⟩ := h.read_more hbehind hread hnext hrest.readable
    rw [List.flatMap_cons, hrows, ih hnew, List.take_append_drop]

/-- The end is reached exactly where all rows that end a page are good. -/
theorem Serves.reads_iff (h : Serves read next rows n good behind) (hbehind : behind c rest)
    (positive : 0 < n) : (∃ pages, Reads read next c pages) ↔ Ends good n rest := by
  constructor
  · rintro ⟨pages, hreads⟩
    induction hreads generalizing rest with
    | last hread hnext => exact ends_of_short (h.read_last hbehind hread hnext).1
    | more hread hnext hrest ih =>
      obtain ⟨last, hlong, hlast, hgood, -, hnew⟩ := h.read_more hbehind hread hnext hrest.readable
      exact (ends_drop positive hlong hlast).mpr ⟨hgood, ih hnew⟩
  · intro hends
    generalize hsize : rest.length = size
    induction size using Nat.strongRecOn generalizing c rest with
    | _ size ih =>
      by_cases hshort : rest.length ≤ n
      · obtain ⟨page, hpage, -, hnone⟩ := h.short hbehind hshort
        exact ⟨_, .last hpage hnone⟩
      · have hlong : n < rest.length := by omega
        have hlast := List.getElem?_eq_getElem (show n - 1 < rest.length by omega)
        obtain ⟨hgood, hothers⟩ := (ends_drop positive hlong hlast).mp hends
        obtain ⟨page, c', hpage, -, hgives, hnew⟩ := h.long hbehind hlong hlast hgood
        have hless : (rest.drop n).length < size := by
          rw [List.length_drop]
          omega
        obtain ⟨pages, hpages⟩ := ih _ hless hnew hothers rfl
        exact ⟨_, .more hpage hgives hpages⟩

end Pages
