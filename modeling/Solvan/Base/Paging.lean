import Mathlib.Data.List.Basic
import Mathlib.Data.List.Nodup
import Mathlib.Data.List.Sort
import Mathlib.Order.Defs.LinearOrder

/-! Logs read page by page: rows in the order of a key, a cursor into them, and
readers who see some of the rows only. -/
namespace Paging

variable {α : Type u} {κ : Type v} [LinearOrder κ] {key : α → κ} {rows : List α} {c c' c'' : κ}
  {vis : α → Bool} {n fuel : Nat} {a : α}

/-- Rows in the order of their keys, no two of which are the same. -/
def Ordered (key : α → κ) (rows : List α) : Prop := rows.Pairwise (fun a b => key a < key b)

/-- The rows behind a cursor. -/
def after (key : α → κ) (c : κ) (rows : List α) : List α := rows.filter (fun a => decide (c < key a))

/-- The rows of an interval between two cursors. -/
def between (key : α → κ) (c c' : κ) (rows : List α) : List α :=
  rows.filter (fun a => decide (c < key a ∧ key a ≤ c'))

theorem mem_after : a ∈ after key c rows ↔ a ∈ rows ∧ c < key a := by
  simp [after]

theorem mem_between : a ∈ between key c c' rows ↔ a ∈ rows ∧ c < key a ∧ key a ≤ c' := by
  simp [between]

theorem Ordered.filter (h : Ordered key rows) (p : α → Bool) : Ordered key (rows.filter p) :=
  List.Pairwise.filter p h

/-- What lies behind the last of some rows is what follows them. -/
theorem Ordered.after_last {front back : List α} {last : α}
    (h : Ordered key (front ++ last :: back)) :
    after key (key last) (front ++ last :: back) = back := by
  have hrows := List.pairwise_append.mp h
  have hback := List.pairwise_cons.mp hrows.2.1
  have hfront : front.filter (fun a => decide (key last < key a)) = [] := by
    refine List.filter_eq_nil_iff.mpr (fun a ha => ?_)
    have hlt := hrows.2.2 a ha last List.mem_cons_self
    simpa using le_of_lt hlt
  have hall : back.filter (fun a => decide (key last < key a)) = back :=
    List.filter_eq_self.mpr (fun a ha => by simpa using hback.1 a ha)
  unfold after
  rw [List.filter_append, hfront, List.filter_cons, hall]
  simp

/-- One interval after the other is one interval. -/
theorem Ordered.between_append (h : Ordered key rows) (hc : c ≤ c') (hc' : c' ≤ c'') :
    between key c c' rows ++ between key c' c'' rows = between key c c'' rows := by
  induction rows with
  | nil => rfl
  | cons a rows ih =>
    obtain ⟨hhead, htail⟩ := List.pairwise_cons.mp h
    have hrest := ih htail
    unfold between at hrest ⊢
    by_cases hle : key a ≤ c'
    · have hnot : ¬(c' < key a ∧ key a ≤ c'') := fun hboth => not_lt.mpr hle hboth.1
      have hsame : (c < key a ∧ key a ≤ c'') ↔ (c < key a ∧ key a ≤ c') :=
        ⟨fun hboth => ⟨hboth.1, hle⟩, fun hboth => ⟨hboth.1, le_trans hle hc'⟩⟩
      simp only [List.filter_cons, hnot, hsame, decide_false, Bool.false_eq_true, if_false]
      split
      · rw [List.cons_append, hrest]
      · exact hrest
    · -- Nothing from here on belongs to the first interval.
      have hnone : (a :: rows).filter (fun a => decide (c < key a ∧ key a ≤ c')) = [] := by
        refine List.filter_eq_nil_iff.mpr (fun b hb => ?_)
        have hlarge : c' < key b := by
          rcases List.mem_cons.mp hb with rfl | hb
          · exact not_le.mp hle
          · exact lt_trans (not_le.mp hle) (hhead b hb)
        simp [not_le.mpr hlarge]
      rw [hnone, List.nil_append]
      refine List.filter_congr (fun b hb => ?_)
      have hlarge : c' < key b := by
        rcases List.mem_cons.mp hb with rfl | hb
        · exact not_le.mp hle
        · exact lt_trans (not_le.mp hle) (hhead b hb)
      simp [hlarge, lt_of_le_of_lt hc hlarge]

theorem Ordered.eq_of_key (h : Ordered key rows) {b : α} (ha : a ∈ rows) (hb : b ∈ rows)
    (hkey : key a = key b) : a = b := by
  have hkeys : (rows.map key).Nodup := List.pairwise_map.mpr (h.imp (fun hlt => hlt.ne))
  exact List.inj_on_of_nodup_map hkeys ha hb hkey

/-- Rows in the order of their keys are in one order. -/
theorem Ordered.eq_of_perm {rows' : List α} (h : Ordered key rows) (h' : Ordered key rows')
    (hperm : rows.Perm rows') : rows = rows' :=
  hperm.eq_of_pairwise (fun _ _ _ _ hlt hlt' => absurd hlt (lt_asymm hlt')) h h'

theorem ordered_mergeSort (hnodup : (rows.map key).Nodup) :
    Ordered key (rows.mergeSort (fun a b => decide (key a ≤ key b))) := by
  have hsorted := @List.pairwise_mergeSort α (fun a b => decide (key a ≤ key b))
    (fun a b c hab hbc => by simpa using le_trans (of_decide_eq_true hab) (of_decide_eq_true hbc))
    (fun a b => by simpa using le_total (key a) (key b)) rows
  have hkeys := ((List.mergeSort_perm rows (fun a b : α => decide (key a ≤ key b))).map key).nodup_iff.mpr hnodup
  refine (hsorted.and (List.pairwise_map.mp hkeys)).imp (fun h => ?_)
  exact lt_of_le_of_ne (of_decide_eq_true h.1) h.2

/-- The rows of a filter in order are the ordered rows of the filter. -/
theorem mergeSort_filter (hnodup : (rows.map key).Nodup) (p : α → Bool) :
    (rows.filter p).mergeSort (fun a b => decide (key a ≤ key b)) =
      (rows.mergeSort (fun a b => decide (key a ≤ key b))).filter p := by
  have hsub : ((rows.filter p).map key).Nodup := hnodup.sublist (List.filter_sublist.map key)
  refine (ordered_mergeSort hsub).eq_of_perm ((ordered_mergeSort hnodup).filter p) ?_
  exact (List.mergeSort_perm _ _).trans ((List.mergeSort_perm _ _).symm.filter p)

theorem Ordered.after_suffix (h : Ordered key rows) (c : κ) :
    ∃ front, rows = front ++ after key c rows := by
  induction rows with
  | nil => exact ⟨[], rfl⟩
  | cons a rows ih =>
    obtain ⟨hhead, htail⟩ := List.pairwise_cons.mp h
    by_cases hlt : c < key a
    · have hall : after key c (a :: rows) = a :: rows :=
        List.filter_eq_self.mpr (fun b hb => by
          rcases List.mem_cons.mp hb with rfl | hb
          · simpa using hlt
          · simpa using lt_trans hlt (hhead b hb))
      exact ⟨[], by rw [hall, List.nil_append]⟩
    · obtain ⟨front, heq⟩ := ih htail
      have hskip : after key c (a :: rows) = after key c rows := by
        simp [after, hlt]
      exact ⟨a :: front, by rw [hskip, List.cons_append, ← heq]⟩

/-- An interval and what lies behind it. -/
theorem Ordered.between_append_after (h : Ordered key rows) (hc : c ≤ c') :
    between key c c' rows ++ after key c' rows = after key c rows := by
  rcases List.eq_nil_or_concat' rows with rfl | ⟨front, last, rfl⟩
  · rfl
  · -- The last row bounds all the others, so the rest of the log is an interval too.
    have hbound : ∀ a ∈ front ++ [last], key a ≤ max c' (key last) := by
      intro a ha
      rcases List.mem_append.mp ha with ha | ha
      · have hlt := (List.pairwise_append.mp h).2.2 a ha last (List.mem_singleton_self _)
        exact le_trans hlt.le (le_max_right _ _)
      · rw [List.mem_singleton.mp ha]
        exact le_max_right _ _
    have hafter : ∀ b, after key b (front ++ [last]) =
        between key b (max c' (key last)) (front ++ [last]) := fun b =>
      List.filter_congr (fun a ha => by simp [hbound a ha])
    rw [hafter, hafter]
    exact h.between_append hc (le_max_left _ _)

/-- The first rows behind a cursor are an interval, and the others lie behind it. -/
theorem Ordered.page (h : Ordered key rows)
    (hlast : ((after key c rows).take n).getLast? = some a) :
    between key c (key a) rows = (after key c rows).take n ∧
      after key (key a) rows = (after key c rows).drop n := by
  obtain ⟨front, hfront⟩ := List.getLast?_eq_some_iff.mp hlast
  obtain ⟨before, hbefore⟩ := h.after_suffix c
  have hrows : rows = (before ++ front) ++ a :: (after key c rows).drop n := by
    rw [List.append_assoc, List.append_cons, ← hfront, List.take_append_drop]
    exact hbefore
  have hbehind : after key (key a) rows = (after key c rows).drop n := by
    have hall := Ordered.after_last (hrows ▸ h)
    rwa [← hrows] at hall
  have hin : a ∈ after key c rows :=
    List.mem_of_mem_take (hfront ▸ List.mem_append_right _ (List.mem_singleton_self a))
  refine ⟨?_, hbehind⟩
  have hsplit := h.between_append_after (le_of_lt (mem_after.mp hin).2)
  rw [hbehind] at hsplit
  exact List.append_cancel_right (hsplit.trans (List.take_append_drop n _).symm)

/-- The rows of a filter that lie in an interval. -/
theorem between_filter (p : α → Bool) :
    (between key c c' rows).filter p = between key c c' (rows.filter p) := by
  unfold between
  rw [List.filter_filter, List.filter_filter]
  exact List.filter_congr (fun _ _ => Bool.and_comm _ _)

/-- What lies behind a cursor is what is left once the rows up to it are dropped. -/
theorem Ordered.after_eq_drop (h : Ordered key rows) (c : κ) :
    after key c rows = rows.drop (rows.countP (fun a => decide (key a ≤ c))) := by
  induction rows with
  | nil => rfl
  | cons a rows ih =>
    obtain ⟨hhead, htail⟩ := List.pairwise_cons.mp h
    by_cases hle : key a ≤ c
    · rw [List.countP_cons_of_pos (by simpa using hle), List.drop_succ_cons, ← ih htail]
      simp [after, not_lt.mpr hle]
    · have hlt : c < key a := not_le.mp hle
      have hnone : rows.countP (fun b => decide (key b ≤ c)) = 0 :=
        List.countP_eq_zero.mpr (fun b hb => by simpa using lt_trans hlt (hhead b hb))
      rw [List.countP_cons_of_neg (by simpa using hlt), hnone, List.drop_zero]
      refine List.filter_eq_self.mpr (fun b hb => ?_)
      rcases List.mem_cons.mp hb with rfl | hb
      · simpa using hlt
      · simpa using lt_trans hlt (hhead b hb)

theorem countP_between (hc : c ≤ c') : rows.countP (fun a => decide (key a ≤ c')) =
    rows.countP (fun a => decide (key a ≤ c)) + (between key c c' rows).length := by
  induction rows with
  | nil => rfl
  | cons a rows ih =>
    unfold between at ih ⊢
    by_cases hle : key a ≤ c
    · have hle' : key a ≤ c' := le_trans hle hc
      simp only [List.countP_cons, List.filter_cons, hle, hle', not_lt.mpr hle, decide_true,
        false_and, decide_false, Bool.false_eq_true, if_true, if_false, ih]
      omega
    · have hlt : c < key a := not_le.mp hle
      by_cases hle' : key a ≤ c'
      · simp only [List.countP_cons, List.filter_cons, hle, hlt, hle', and_true, decide_true,
          decide_false, Bool.false_eq_true, if_true, if_false, List.length_cons, ih]
        omega
      · simp only [List.countP_cons, List.filter_cons, hle, hle', and_false, decide_false,
          Bool.false_eq_true, if_false, ih]
        omega

variable {β : Type w} {f : α → Option β} {key' : β → κ}

theorem Ordered.filterMap (h : Ordered key rows) (hkey : ∀ a b, f a = some b → key' b = key a) :
    Ordered key' (rows.filterMap f) := by
  refine List.pairwise_filterMap.mpr (h.imp (fun {a a'} hlt b hb b' hb' => ?_))
  rw [hkey a b hb, hkey a' b' hb']
  exact hlt

theorem filterMap_after (hkey : ∀ a b, f a = some b → key' b = key a) :
    (after key c rows).filterMap f = after key' c (rows.filterMap f) := by
  unfold after
  rw [List.filterMap_filter, List.filter_filterMap]
  refine List.filterMap_congr (fun a _ => ?_)
  cases hf : f a with
  | none => simp
  | some b => simp [hkey a b hf, Option.filter_some]

theorem filterMap_between (hkey : ∀ a b, f a = some b → key' b = key a) :
    (between key c c' rows).filterMap f = between key' c c' (rows.filterMap f) := by
  unfold between
  rw [List.filterMap_filter, List.filter_filterMap]
  refine List.filterMap_congr (fun a _ => ?_)
  cases hf : f a with
  | none => simp
  | some b => simp [hkey a b hf, Option.filter_some]

/-- Page after page of `n` rows, of which the hidden ones are left out, until a
page has less than `n`; none where there is not fuel enough. -/
def fetch (vis : α → Bool) (n : Nat) : Nat → List α → Option (List α)
  | 0, _ => none
  | fuel + 1, rows =>
    let page := (rows.take n).filter vis
    if n ≤ page.length then (fetch vis n fuel (rows.drop n)).map (page ++ ·) else some page

/-- After the pages that hide nothing, and the first one that does, there is
nothing more to see. -/
def Unbroken (vis : α → Bool) (n : Nat) (rows : List α) : Prop :=
  ∀ k, (∀ a ∈ rows.take (k * n), vis a = true) →
    (∃ a ∈ (rows.drop (k * n)).take n, vis a = false) →
    ∀ a ∈ rows.drop ((k + 1) * n), vis a = false

/-- A page that is as long as it may be hides nothing. -/
theorem full_page (full : n ≤ ((rows.take n).filter vis).length) :
    (rows.take n).filter vis = rows.take n ∧ (rows.take n).length = n := by
  have hle := List.length_filter_le vis (rows.take n)
  have htake := List.length_take_le n rows
  refine ⟨List.filter_sublist.eq_of_length (by omega), by omega⟩

theorem unbroken_drop (full : ∀ a ∈ rows.take n, vis a = true) :
    Unbroken vis n rows ↔ Unbroken vis n (rows.drop n) := by
  have hsplit : ∀ k, rows.take ((k + 1) * n) = rows.take n ++ (rows.drop n).take (k * n) := by
    intro k
    rw [Nat.succ_mul, Nat.add_comm, List.take_add]
  have hdrop : ∀ k, rows.drop ((k + 1) * n) = (rows.drop n).drop (k * n) := by
    intro k
    rw [List.drop_drop, Nat.succ_mul, Nat.add_comm]
  constructor
  · intro h k hseen hhidden
    rw [← hdrop] at hhidden ⊢
    refine h (k + 1) (fun a ha => ?_) hhidden
    rw [hsplit] at ha
    rcases List.mem_append.mp ha with ha | ha
    · exact full a ha
    · exact hseen a ha
  · intro h k hseen hhidden
    cases k with
    | zero =>
      obtain ⟨a, ha, hv⟩ := hhidden
      rw [Nat.zero_mul, List.drop_zero] at ha
      rw [full a ha] at hv
      cases hv
    | succ k =>
      rw [hdrop] at hhidden ⊢
      refine h k (fun a ha => hseen a ?_) hhidden
      rw [hsplit]
      exact List.mem_append_right _ ha

theorem unbroken_of_short (short : ((rows.take n).filter vis).length < n) :
    Unbroken vis n rows ↔ ∀ a ∈ rows.drop n, vis a = false := by
  constructor
  · intro h
    by_cases hidden : ∃ a ∈ rows.take n, vis a = false
    · have hrest := h 0 (by simp) (by simpa using hidden)
      rwa [Nat.zero_add, Nat.one_mul] at hrest
    · -- The page is short for the rows end with it.
      have hall : (rows.take n).filter vis = rows.take n :=
        List.filter_eq_self.mpr (fun a ha => by
          by_contra hv
          exact hidden ⟨a, ha, by simpa using hv⟩)
      rw [hall, List.length_take] at short
      have hnil : rows.drop n = [] := List.drop_eq_nil_of_le (by omega)
      rw [hnil]
      exact fun a ha => nomatch ha
  · intro h k _ _ a ha
    refine h a ?_
    rw [Nat.succ_mul, Nat.add_comm, ← List.drop_drop] at ha
    exact List.mem_of_mem_drop ha

/-- What is fetched is what there is to see, up to some place. -/
theorem fetch_prefix {pages : List α} (h : fetch vis n fuel rows = some pages) :
    pages <+: rows.filter vis := by
  induction fuel generalizing rows pages with
  | zero => cases h
  | succ fuel ih =>
    have hparts : rows.filter vis = (rows.take n).filter vis ++ (rows.drop n).filter vis := by
      rw [← List.filter_append, List.take_append_drop]
    simp only [fetch] at h
    rw [hparts]
    split at h
    · obtain ⟨rest, hrest, rfl⟩ := Option.map_eq_some_iff.mp h
      exact (List.prefix_append_right_inj _).mpr (ih hrest)
    · rw [Option.some.injEq] at h
      exact h ▸ List.prefix_append _ _

/-- Fetching page after page yields all there is to see exactly where no page
breaks off early. -/
theorem fetch_eq_iff (positive : 0 < n) (enough : rows.length < fuel) :
    fetch vis n fuel rows = some (rows.filter vis) ↔ Unbroken vis n rows := by
  induction fuel generalizing rows with
  | zero => exact absurd enough (Nat.not_lt_zero _)
  | succ fuel ih =>
    have hparts : rows.filter vis = (rows.take n).filter vis ++ (rows.drop n).filter vis := by
      rw [← List.filter_append, List.take_append_drop]
    unfold fetch
    by_cases full : n ≤ ((rows.take n).filter vis).length
    · obtain ⟨hpage, hlength⟩ := full_page full
      have hlong : n ≤ rows.length := by
        rw [List.length_take] at hlength
        omega
      have hseen : ∀ a ∈ rows.take n, vis a = true := List.filter_eq_self.mp hpage
      have hless : (rows.drop n).length < fuel := by
        rw [List.length_drop]
        omega
      rw [unbroken_drop hseen, ← ih hless]
      simp only [full, if_true]
      rw [hparts, Option.map_eq_some_iff]
      constructor
      · rintro ⟨rest, hrest, heq⟩
        rw [hrest, List.append_cancel_left heq]
      · intro h
        exact ⟨_, h, rfl⟩
    · rw [unbroken_of_short (Nat.lt_of_not_le full)]
      simp only [full, if_false, Option.some.injEq]
      rw [hparts, List.self_eq_append_right, List.filter_eq_nil_iff]
      simp

/-- No `n` hidden rows in a row come before one that is not hidden. -/
def Unstalled (vis : α → Bool) (n : Nat) (rows : List α) : Prop :=
  ∀ front hidden back, rows = front ++ hidden ++ back → hidden.length = n →
    (∀ a ∈ hidden, vis a = false) → ∀ a ∈ back, vis a = false

/-- Every place in the log has a cursor right before it. -/
theorem Ordered.exists_cursor [NoMinOrder κ] [Nonempty κ] {front back : List α}
    (h : Ordered key (front ++ back)) : ∃ c, after key c (front ++ back) = back := by
  rcases List.eq_nil_or_concat' front with rfl | ⟨front', last, rfl⟩
  · cases back with
    | nil => exact ⟨Classical.arbitrary κ, rfl⟩
    | cons a back =>
      obtain ⟨c, hc⟩ := exists_lt (key a)
      obtain ⟨hhead, -⟩ := List.pairwise_cons.mp h
      refine ⟨c, List.filter_eq_self.mpr (fun b hb => ?_)⟩
      rcases List.mem_cons.mp hb with rfl | hb
      · simpa using hc
      · simpa using lt_trans hc (hhead b hb)
  · rw [List.append_assoc, List.singleton_append] at h ⊢
    exact ⟨key last, h.after_last⟩

/-- A page is empty only where nothing is left to see, exactly where not that
many hidden rows come before one that is not. -/
theorem Ordered.unstalled_iff [NoMinOrder κ] [Nonempty κ] (h : Ordered key rows) :
    Unstalled vis n rows ↔
      ∀ c, (∃ a ∈ after key c rows, vis a = true) → ((after key c rows).take n).filter vis ≠ [] := by
  constructor
  · rintro unstalled c ⟨a, ha, hvis⟩ hnone
    have hhidden : ∀ b ∈ (after key c rows).take n, vis b = false := fun b hb => by
      simpa using List.filter_eq_nil_iff.mp hnone b hb
    obtain ⟨front, heq⟩ := h.after_suffix c
    rw [← List.take_append_drop n (after key c rows), List.mem_append] at ha
    rcases ha with ha | ha
    · rw [hhidden a ha] at hvis
      cases hvis
    · have hlong : n ≤ (after key c rows).length := by
        have hpos := List.length_pos_of_mem ha
        rw [List.length_drop] at hpos
        omega
      have hbehind := unstalled front _ _ (by rw [List.append_assoc, List.take_append_drop, ← heq])
        (by rw [List.length_take]; omega) hhidden a ha
      rw [hbehind] at hvis
      cases hvis
  · rintro pages front hidden back rfl hlength hhidden a ha
    by_contra hvis
    rw [List.append_assoc] at h pages
    obtain ⟨c, hc⟩ := h.exists_cursor
    refine pages c ⟨a, ?_, by simpa using hvis⟩ ?_
    · rw [hc]
      exact List.mem_append_right _ ha
    · rw [hc, ← hlength, List.take_left]
      exact List.filter_eq_nil_iff.mpr (fun b hb => by simp [hhidden b hb])

end Paging
