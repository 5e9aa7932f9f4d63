import Solvan.Liaison.Sequence

/-! One page of a brief. What `catch_up` yields of the rows behind a cursor is an
interval of what the reader may see of them. -/
namespace Solvan.Liaison

open Paging

variable {tables tables' : ScopeTables} {anchor : Anchor} {authorizedRecords : List RecordKey}
  {cursor : Cursor} {policyEpoch : Int} {limit : Nat}

/-- What a reader may see of an event, once the rows attach it to the anchor. -/
def ScopeTables.visible (tables : ScopeTables) (anchor : Anchor)
    (authorizedRecords : List RecordKey) (e : ScopeEventRow) : Option Delta :=
  if authorizedRecords.contains e.record then (tables.joined anchor e).map e.delta else none

/-- All that a reader may see. -/
def ScopeTables.deltas (tables : ScopeTables) (anchor : Anchor)
    (authorizedRecords : List RecordKey) : List Delta :=
  tables.events.filterMap (tables.visible anchor authorizedRecords)

theorem ScopeTables.visible_sequence (e : ScopeEventRow) (d : Delta)
    (h : tables.visible anchor authorizedRecords e = some d) : d.sequence = e.scopeSequence := by
  obtain ⟨-, h⟩ := Option.ite_none_right_eq_some.mp h
  obtain ⟨row, -, rfl⟩ := Option.map_eq_some_iff.mp h
  rfl

theorem ScopeTables.Sound.deltas_ordered (h : tables.Sound) :
    Ordered Delta.sequence (tables.deltas anchor authorizedRecords) :=
  h.ordered.filterMap ScopeTables.visible_sequence

/-- What the loop makes of its rows: those authorized, as many as the page
holds, and how many more there are. -/
theorem BriefPage.foldl_row (rows : List (ScopeEventRow × DirectoryRow)) (page : BriefPage)
    (hroom : page.deltas.length ≤ limit) :
    let shown := (rows.filter (fun r => authorizedRecords.contains r.1.record)).map
      (fun r => r.1.delta r.2)
    rows.foldl (BriefPage.row authorizedRecords limit) page =
      { deltas := (page.deltas ++ shown).take limit
        highWater := (rows.map (fun r => r.1.scopeSequence)).foldl max page.highWater
        remaining := page.remaining + (page.deltas.length + shown.length - limit) } := by
  induction rows generalizing page with
  | nil =>
    have hall : page.deltas.take limit = page.deltas := List.take_of_length_le hroom
    have hnone : page.deltas.length - limit = 0 := by omega
    simp [hall, hnone]
  | cons r rows ih =>
    have hstep := ih (page.row authorizedRecords limit r)
    rw [List.foldl_cons]
    unfold BriefPage.row at hstep ⊢
    by_cases hauth : authorizedRecords.contains r.1.record = true
    · by_cases hfull : limit ≤ page.deltas.length
      · have hlength : page.deltas.length = limit := le_antisymm hroom hfull
        simp only [hauth, Bool.not_true, Bool.false_eq_true, if_false, hfull, if_true] at hstep ⊢
        rw [hstep hroom, List.filter_cons_of_pos (by simpa using hauth), List.map_cons,
          List.map_cons, List.foldl_cons]
        simp only [BriefPage.mk.injEq, List.length_cons, List.length_map, hlength, true_and]
        refine ⟨?_, by omega⟩
        rw [← hlength, List.take_left, List.take_left]
      · have hroom' : (page.deltas ++ [r.1.delta r.2]).length ≤ limit := by
          rw [List.length_append, List.length_singleton]
          omega
        simp only [hauth, Bool.not_true, Bool.false_eq_true, if_false, hfull] at hstep ⊢
        rw [hstep hroom', List.filter_cons_of_pos (by simpa using hauth), List.map_cons,
          List.map_cons, List.foldl_cons, List.append_assoc, List.singleton_append]
        simp only [BriefPage.mk.injEq, List.length_append, List.length_cons, List.length_nil,
          List.length_map, true_and]
        omega
    · simp only [hauth, Bool.not_false, if_true] at hstep ⊢
      rw [hstep hroom, List.filter_cons_of_neg (by simpa using hauth), List.map_cons,
        List.foldl_cons]

theorem ScopeTables.Sound.rows_eq (h : tables.Sound) (anchor : Anchor) (since : Int) :
    tables.rows anchor since =
      (after ScopeEventRow.scopeSequence since tables.events).filterMap (fun e =>
        (tables.joined anchor e).map (fun d => (e, d))) := by
  refine List.Pairwise.insertionSort_eq ?_
  refine List.pairwise_filterMap.mpr ((h.ordered.filter _).imp (fun {a a'} hlt b hb b' hb' => ?_))
  obtain ⟨d, -, rfl⟩ := Option.map_eq_some_iff.mp hb
  obtain ⟨d', -, rfl⟩ := Option.map_eq_some_iff.mp hb'
  exact hlt.le

/-- The authorized ones of the rows are what the reader may see behind the cursor. -/
theorem ScopeTables.Sound.shown_eq (h : tables.Sound) (since : Int) :
    ((tables.rows anchor since).filter (fun r => authorizedRecords.contains r.1.record)).map
      (fun r => r.1.delta r.2) =
    after Delta.sequence since (tables.deltas anchor authorizedRecords) := by
  unfold ScopeTables.deltas
  rw [h.rows_eq, ← filterMap_after ScopeTables.visible_sequence, List.filter_filterMap,
    List.map_filterMap]
  refine List.filterMap_congr (fun e _ => ?_)
  unfold ScopeTables.visible
  cases tables.joined anchor e with
  | none => simp
  | some d =>
    by_cases hauth : e.record ∈ authorizedRecords
    · simp [hauth, Option.filter_some]
    · simp [hauth, Option.filter_some]

/-- What a page is of what a reader may see. -/
structure PageExact (tables : ScopeTables) (all : List Delta) (since : Int) (limit : Nat)
    (page : CatchUp) : Prop where
  advances : since ≤ page.cursor.scopeSequence
  first : page.deltas = (after Delta.sequence since all).take limit
  interval : page.deltas = between Delta.sequence since page.cursor.scopeSequence all
  rest : page.remaining = (after Delta.sequence page.cursor.scopeSequence all).length
  below : since < tables.nextSequence → page.cursor.scopeSequence < tables.nextSequence

theorem le_foldl_max (l : List Int) (a : Int) : a ≤ l.foldl max a ∧ ∀ b ∈ l, b ≤ l.foldl max a := by
  induction l generalizing a with
  | nil => exact ⟨le_rfl, by simp⟩
  | cons c l ih =>
    obtain ⟨hstart, hall⟩ := ih (max a c)
    refine ⟨le_trans (le_max_left a c) hstart, fun b hb => ?_⟩
    rcases List.mem_cons.mp hb with rfl | hb
    · exact le_trans (le_max_right a b) hstart
    · exact hall b hb

theorem foldl_max_lt {l : List Int} {a bound : Int} (ha : a < bound) (hl : ∀ b ∈ l, b < bound) :
    l.foldl max a < bound := by
  induction l generalizing a with
  | nil => exact ha
  | cons c l ih =>
    refine ih (max_lt ha (hl c List.mem_cons_self)) (fun b hb => hl b (List.mem_cons_of_mem _ hb))

/-- A page is an interval of what the reader may see, and what it counts is what
lies behind it. -/
theorem ScopeTables.Sound.page_exact (h : tables.Sound) (hepoch : cursor.policyEpoch = policyEpoch)
    (hlimit : 0 < limit) :
    PageExact tables (tables.deltas anchor authorizedRecords) cursor.scopeSequence limit
      (catchUp tables anchor cursor authorizedRecords policyEpoch limit) := by
  have hfold := @BriefPage.foldl_row authorizedRecords _
    (tables.rows anchor cursor.scopeSequence) ⟨[], cursor.scopeSequence, 0⟩ (Nat.zero_le limit)
  have hshown := @ScopeTables.Sound.shown_eq _ anchor authorizedRecords h cursor.scopeSequence
  obtain ⟨hstart, hrows⟩ := le_foldl_max
    ((tables.rows anchor cursor.scopeSequence).map (fun r => r.1.scopeSequence)) cursor.scopeSequence
  have hbelow : cursor.scopeSequence < tables.nextSequence →
      ((tables.rows anchor cursor.scopeSequence).map (fun r => r.1.scopeSequence)).foldl max
        cursor.scopeSequence < tables.nextSequence := by
    refine fun hlt => foldl_max_lt hlt (fun b hb => ?_)
    obtain ⟨r, hr, rfl⟩ := List.mem_map.mp hb
    rw [h.rows_eq] at hr
    obtain ⟨e, he, hjoined⟩ := List.mem_filterMap.mp hr
    obtain ⟨d, -, rfl⟩ := Option.map_eq_some_iff.mp hjoined
    exact (h.range e (mem_after.mp he).1).2
  simp only [hshown, List.nil_append, List.length_nil, Nat.zero_add] at hfold
  unfold catchUp
  rw [if_neg (not_not.mpr hepoch), hfold]
  have hordered := @ScopeTables.Sound.deltas_ordered _ anchor authorizedRecords h
  generalize hall : tables.deltas anchor authorizedRecords = all at hshown hordered ⊢
  generalize hwater : ((tables.rows anchor cursor.scopeSequence).map
    (fun r => r.1.scopeSequence)).foldl max cursor.scopeSequence = highWater at hstart hrows hbelow ⊢
  by_cases hfull : (after Delta.sequence cursor.scopeSequence all).length - limit = 0
  · -- All there is to see is on the page, and the cursor is behind all of it.
    have hle : ∀ d ∈ after Delta.sequence cursor.scopeSequence all, d.sequence ≤ highWater := by
      intro d hd
      rw [← hshown] at hd
      obtain ⟨r, hr, rfl⟩ := List.mem_map.mp hd
      exact hrows _ (List.mem_map_of_mem (List.mem_of_mem_filter hr))
    have hnone : after Delta.sequence highWater all = [] := by
      refine List.filter_eq_nil_iff.mpr (fun d hd hlt => ?_)
      have hlt : highWater < d.sequence := by simpa using hlt
      exact not_le.mpr hlt (hle d (mem_after.mpr ⟨hd, lt_of_le_of_lt hstart hlt⟩))
    have hinterval := hordered.between_append_after hstart
    rw [hnone, List.append_nil] at hinterval
    have htake : (after Delta.sequence cursor.scopeSequence all).take limit =
        after Delta.sequence cursor.scopeSequence all := List.take_of_length_le (by omega)
    simp only [hfull, if_true]
    exact ⟨hstart, rfl, by rw [htake, hinterval], by rw [hnone]; rfl, hbelow⟩
  · simp only [hfull, if_false]
    have hlast : ((after Delta.sequence cursor.scopeSequence all).take limit).getLast? ≠ none := by
      rw [ne_eq, List.getLast?_eq_none_iff, List.take_eq_nil_iff]
      rintro (hzero | hnil)
      · omega
      · rw [hnil] at hfull
        exact hfull (Nat.zero_sub limit)
    obtain ⟨last, hlast⟩ := Option.ne_none_iff_exists'.mp hlast
    obtain ⟨hinterval, hbehind⟩ := hordered.page hlast
    have hin : last ∈ after Delta.sequence cursor.scopeSequence all :=
      List.mem_of_mem_take (List.mem_of_getLast? hlast)
    have hlt := (mem_after.mp hin).2
    have hknown : last.sequence < tables.nextSequence := by
      have hmem := (mem_after.mp hin).1
      rw [← hall] at hmem
      obtain ⟨e, he, hvisible⟩ := List.mem_filterMap.mp hmem
      rw [ScopeTables.visible_sequence e last hvisible]
      exact (h.range e he).2
    simp only [hlast, Option.map_some, Option.getD_some]
    exact ⟨hlt.le, rfl, hinterval.symm, by rw [hbehind, List.length_drop], fun _ => hknown⟩

theorem catchUp_epoch : (catchUp tables anchor cursor authorizedRecords policyEpoch limit).cursor.policyEpoch =
    policyEpoch := by
  unfold catchUp
  split <;> rfl

end Solvan.Liaison
