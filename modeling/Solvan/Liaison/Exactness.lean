import Solvan.Liaison.CatchUp

/-! A reader who continues from the cursor of the page before, while the events of
the scope are recorded and its directory and edges fill up. -/
namespace Solvan.Liaison

open Paging

/-- A page with what was committed when it was read. -/
structure PageRead where
  tables : ScopeTables
  since : Cursor
  limit : Nat
  result : CatchUp
deriving DecidableEq

structure Reading where
  log : ScopeLog
  cursor : Cursor
  pages : List PageRead
deriving DecidableEq

inductive ReadingMove where
  | log (m : LogMove)
  | page (limit : Nat)

/-- The reader has one anchor, one authorized set and one policy epoch. -/
def Reading.next (anchor : Anchor) (authorizedRecords : List RecordKey) (policyEpoch : Int)
    (s : Reading) : ReadingMove → Option Reading
  | .log m => (s.log.next m).map (fun log => { s with log := log })
  | .page limit =>
    if limit = 0 then none
    else
      let result := catchUp s.log.tables anchor s.cursor authorizedRecords policyEpoch limit
      some
        { s with
          cursor := result.cursor
          pages := s.pages ++ [⟨s.log.tables, s.cursor, limit, result⟩] }

def Reading.start (policyEpoch : Int) : Reading := ⟨.empty, ⟨0, policyEpoch⟩, []⟩

def readings (anchor : Anchor) (authorizedRecords : List RecordKey) (policyEpoch : Int) :
    Machine Reading ReadingMove :=
  Machine.ofFn (fun s => s = .start policyEpoch) (Reading.next anchor authorizedRecords policyEpoch)

/-- The deltas of all pages. -/
def Reading.delivered (s : Reading) : List Delta := s.pages.flatMap (fun page => page.result.deltas)

/-- The cursor moved past an event on this page. -/
def PageRead.passed (page : PageRead) (e : ScopeEventRow) : Prop :=
  page.since.scopeSequence < e.scopeSequence ∧ e.scopeSequence ≤ page.result.cursor.scopeSequence

instance (page : PageRead) (e : ScopeEventRow) : Decidable (page.passed e) :=
  inferInstanceAs (Decidable (_ ∧ _))

/-- The last page counts nothing behind it, and nothing has been committed since. -/
def Reading.Exhausted (s : Reading) : Prop :=
  ∃ page, s.pages.getLast? = some page ∧ page.tables = s.log.tables ∧ page.result.remaining = 0

/-- The same authorized events, which the rows attach alike. -/
def ScopeTables.Alike (anchor : Anchor) (authorizedRecords : List RecordKey)
    (tables tables' : ScopeTables) : Prop :=
  (tables.events.filter (fun e => authorizedRecords.contains e.record)).map
      ScopeEventRow.toNewEvent =
    (tables'.events.filter (fun e => authorizedRecords.contains e.record)).map
      ScopeEventRow.toNewEvent ∧
  ∀ e ∈ tables.events, authorizedRecords.contains e.record = true →
    tables.joined anchor e = tables'.joined anchor e

/-- No authorized event is attached or detached once it is committed. -/
def PageRead.Settled (anchor : Anchor) (authorizedRecords : List RecordKey)
    (page page' : PageRead) : Prop :=
  ∀ e ∈ page.tables.events, authorizedRecords.contains e.record = true →
    (page.tables.joined anchor e).isSome = (page'.tables.joined anchor e).isSome

/-- A delta without its number. -/
def Delta.unnumbered (d : Delta) : Delta := { d with sequence := 0 }

/-- Pages that differ in their numbers alone. -/
def CatchUp.Alike (page page' : CatchUp) : Prop :=
  page.deltas.map Delta.unnumbered = page'.deltas.map Delta.unnumbered ∧
    page.remaining = page'.remaining

/-- Pages, each read where the one before ended, of tables that grow. -/
inductive Chained (anchor : Anchor) (authorizedRecords : List RecordKey) (policyEpoch : Int) :
    Cursor → ScopeTables → List PageRead → Cursor → ScopeTables → Prop where
  | nil {cursor : Cursor} {tables tables' : ScopeTables} (grows : tables.Grows tables') :
      Chained anchor authorizedRecords policyEpoch cursor tables [] cursor tables'
  | cons {page : PageRead} {pages : List PageRead} {cursor' : Cursor}
      {tables tables' : ScopeTables}
      (grows : tables.Grows page.tables)
      (sound : page.tables.Sound)
      (epoch : page.since.policyEpoch = policyEpoch)
      (limit : 0 < page.limit)
      (result : page.result = catchUp page.tables anchor page.since authorizedRecords policyEpoch
        page.limit)
      (rest : Chained anchor authorizedRecords policyEpoch page.result.cursor page.tables pages
        cursor' tables') :
      Chained anchor authorizedRecords policyEpoch page.since tables (page :: pages) cursor' tables'

namespace Chained

variable {anchor : Anchor} {authorizedRecords : List RecordKey} {policyEpoch policyEpoch' : Int}
  {cursor cursor' : Cursor} {tables tables' tables'' : ScopeTables} {pages : List PageRead}
  {page : PageRead}

theorem grow (h : Chained anchor authorizedRecords policyEpoch cursor tables pages cursor' tables')
    (grows : tables'.Grows tables'') :
    Chained anchor authorizedRecords policyEpoch cursor tables pages cursor' tables'' := by
  induction h with
  | nil grows' => exact .nil (grows'.trans grows)
  | cons grows' sound epoch limit result _ ih =>
    exact .cons grows' sound epoch limit result (ih grows)

theorem snoc (h : Chained anchor authorizedRecords policyEpoch cursor tables pages cursor' tables')
    (sound : tables'.Sound) (epoch : cursor'.policyEpoch = policyEpoch) {limit : Nat}
    (hlimit : 0 < limit) :
    let result := catchUp tables' anchor cursor' authorizedRecords policyEpoch limit
    Chained anchor authorizedRecords policyEpoch cursor tables
      (pages ++ [⟨tables', cursor', limit, result⟩]) result.cursor tables' := by
  induction h with
  | nil grows =>
    exact @Chained.cons _ _ _ ⟨_, _, _, _⟩ _ _ _ _ grows sound epoch hlimit rfl (.nil (.refl _))
  | cons grows sound' epoch' limit' result _ ih =>
    exact .cons grows sound' epoch' limit' result (ih sound epoch)

theorem grows (h : Chained anchor authorizedRecords policyEpoch cursor tables pages cursor' tables') :
    tables.Grows tables' := by
  induction h with
  | nil grows => exact grows
  | cons grows _ _ _ _ _ ih => exact grows.trans ih

/-- What a page of the chain is. -/
theorem exact (h : Chained anchor authorizedRecords policyEpoch cursor tables pages cursor' tables')
    (hpage : page ∈ pages) :
    PageExact page.tables (page.tables.deltas anchor authorizedRecords) page.since.scopeSequence
      page.limit page.result := by
  induction h with
  | nil => cases hpage
  | cons _ sound epoch limit result _ ih =>
    rcases List.mem_cons.mp hpage with rfl | hpage
    · rw [result]
      exact sound.page_exact epoch limit
    · exact ih hpage

/-- A page of a chain with a cursor before all that is to come. -/
theorem page_below
    (h : Chained anchor authorizedRecords policyEpoch cursor tables pages cursor' tables')
    (hbelow : cursor.scopeSequence < tables.nextSequence) (hpage : page ∈ pages) :
    cursor.scopeSequence ≤ page.since.scopeSequence ∧
      page.result.cursor.scopeSequence < page.tables.nextSequence ∧
      page.tables.Grows tables' := by
  induction h with
  | nil => cases hpage
  | @cons page' pages cursor' tables tables' grows sound epoch limit result rest ih =>
    have hexact := @ScopeTables.Sound.page_exact _ anchor authorizedRecords _ _ _ sound epoch limit
    rw [← result] at hexact
    have hnext := hexact.below (lt_of_lt_of_le hbelow grows.sequence)
    rcases List.mem_cons.mp hpage with rfl | hpage
    · exact ⟨le_rfl, hnext, rest.grows⟩
    · obtain ⟨hsince, hrest⟩ := ih hnext hpage
      exact ⟨le_trans hexact.advances hsince, hrest⟩

theorem sound (h : Chained anchor authorizedRecords policyEpoch cursor tables pages cursor' tables')
    (hpage : page ∈ pages) : page.tables.Sound := by
  induction h with
  | nil => cases hpage
  | cons _ sound _ _ _ _ ih =>
    rcases List.mem_cons.mp hpage with rfl | hpage
    · exact sound
    · exact ih hpage

/-- Every number the cursor moved past, it moved past on some page. -/
theorem exists_passed
    (h : Chained anchor authorizedRecords policyEpoch cursor tables pages cursor' tables')
    {e : ScopeEventRow} (hafter : cursor.scopeSequence < e.scopeSequence)
    (hle : e.scopeSequence ≤ cursor'.scopeSequence) : ∃ page ∈ pages, page.passed e := by
  induction h with
  | nil => exact absurd hle (not_le.mpr hafter)
  | @cons page pages cursor' tables tables' _ _ _ _ _ _ ih =>
    by_cases hpage : e.scopeSequence ≤ page.result.cursor.scopeSequence
    · exact ⟨page, List.mem_cons_self, hafter, hpage⟩
    · obtain ⟨page', hmem, hpassed⟩ := ih (not_le.mp hpage) hle
      exact ⟨page', List.mem_cons_of_mem _ hmem, hpassed⟩

theorem unread (h : Chained anchor authorizedRecords policyEpoch cursor tables [] cursor' tables') :
    cursor' = cursor := by
  cases h with
  | nil => rfl

theorem first_since
    (h : Chained anchor authorizedRecords policyEpoch cursor tables (page :: pages) cursor' tables') :
    page.since = cursor := by
  cases h with
  | cons => rfl

theorem first_grows
    (h : Chained anchor authorizedRecords policyEpoch cursor tables (page :: pages) cursor' tables') :
    tables.Grows page.tables := by
  cases h with
  | cons grows => exact grows

theorem tail
    (h : Chained anchor authorizedRecords policyEpoch cursor tables (page :: pages) cursor' tables') :
    Chained anchor authorizedRecords policyEpoch page.result.cursor page.tables pages cursor'
      tables' := by
  cases h with
  | cons _ _ _ _ _ rest => exact rest

theorem last_cursor
    (h : Chained anchor authorizedRecords policyEpoch cursor tables pages cursor' tables')
    (hlast : pages.getLast? = some page) : page.result.cursor = cursor' := by
  induction h with
  | nil => cases hlast
  | @cons page' pages cursor' tables tables' _ _ _ _ _ rest ih =>
    cases pages with
    | nil =>
      cases hlast
      exact rest.unread.symm
    | cons next pages => exact ih (by rwa [List.getLast?_cons_cons] at hlast)

/-- What is delivered: each delta of an event as the rows attach it when the
cursor moves past. -/
theorem mem_deltas
    (h : Chained anchor authorizedRecords policyEpoch cursor tables pages cursor' tables')
    (hbelow : cursor.scopeSequence < tables.nextSequence) (d : Delta) :
    d ∈ pages.flatMap (fun page => page.result.deltas) ↔
      ∃ page ∈ pages, ∃ e ∈ tables'.events, page.passed e ∧
        page.tables.visible anchor authorizedRecords e = some d := by
  rw [List.mem_flatMap]
  constructor
  · rintro ⟨page, hpage, hd⟩
    rw [(h.exact hpage).interval, mem_between] at hd
    obtain ⟨hin, hsince, hcursor⟩ := hd
    obtain ⟨e, he, hvisible⟩ := List.mem_filterMap.mp hin
    have hsequence := ScopeTables.visible_sequence e d hvisible
    obtain ⟨-, -, hgrows⟩ := h.page_below hbelow hpage
    exact ⟨page, hpage, e, hgrows.mem he, ⟨hsequence ▸ hsince, hsequence ▸ hcursor⟩, hvisible⟩
  · rintro ⟨page, hpage, e, he, ⟨hsince, hcursor⟩, hvisible⟩
    have hsequence := ScopeTables.visible_sequence e d hvisible
    obtain ⟨-, hnext, hgrows⟩ := h.page_below hbelow hpage
    have hin := hgrows.mem_of_lt he (lt_of_le_of_lt hcursor hnext)
    refine ⟨page, hpage, ?_⟩
    rw [(h.exact hpage).interval, mem_between, hsequence]
    exact ⟨List.mem_filterMap.mpr ⟨e, hin, hvisible⟩, hsince, hcursor⟩

theorem deltas_ordered
    (h : Chained anchor authorizedRecords policyEpoch cursor tables pages cursor' tables')
    (hbelow : cursor.scopeSequence < tables.nextSequence) :
    Ordered Delta.sequence (pages.flatMap (fun page => page.result.deltas)) := by
  induction h with
  | nil => exact .nil
  | @cons page pages cursor' tables tables' grows sound epoch limit result rest ih =>
    have hexact := @ScopeTables.Sound.page_exact _ anchor authorizedRecords _ _ _ sound epoch limit
    rw [← result] at hexact
    have hnext := hexact.below (lt_of_lt_of_le hbelow grows.sequence)
    rw [List.flatMap_cons]
    refine List.pairwise_append.mpr ⟨?_, ih hnext, fun d hd d' hd' => ?_⟩
    · rw [hexact.interval]
      exact sound.deltas_ordered.filter _
    · rw [hexact.interval, mem_between] at hd
      obtain ⟨page', hpage', hd'⟩ := List.mem_flatMap.mp hd'
      rw [(rest.exact hpage').interval, mem_between] at hd'
      exact lt_of_le_of_lt (le_trans hd.2.2 (rest.page_below hnext hpage').1) hd'.2.1

end Chained

variable {anchor : Anchor} {authorizedRecords : List RecordKey} {policyEpoch policyEpoch' : Int}
  {cursor cursor' cursor₂ cursor₂' : Cursor} {tables tables' tables₂ tables₂' : ScopeTables}
  {pages pages₂ : List PageRead} {page page' : PageRead}

/-- A delta, less its number, is read off what was recorded of the event. -/
theorem ScopeTables.deltas_unnumbered :
    (tables.deltas anchor authorizedRecords).map Delta.unnumbered =
      (tables.events.filter (fun e => authorizedRecords.contains e.record)).filterMap (fun e =>
        (tables.joined anchor { e with scopeSequence := 0 }).map (fun d =>
          ScopeEventRow.delta { e with scopeSequence := 0 } d)) := by
  unfold ScopeTables.deltas
  rw [List.map_filterMap, List.filterMap_filter]
  refine List.filterMap_congr (fun e _ => ?_)
  unfold ScopeTables.visible
  split
  · rw [Option.map_map]
    rfl
  · rfl

theorem ScopeTables.Alike.deltas (h : tables.Alike anchor authorizedRecords tables') :
    (tables.deltas anchor authorizedRecords).map Delta.unnumbered =
      (tables'.deltas anchor authorizedRecords).map Delta.unnumbered := by
  obtain ⟨hevents, hjoined⟩ := h
  have hread : ∀ (t : ScopeTables) (l : List ScopeEventRow),
      l.filterMap (fun e => (t.joined anchor { e with scopeSequence := 0 }).map (fun d =>
        ScopeEventRow.delta { e with scopeSequence := 0 } d)) =
      (l.map ScopeEventRow.toNewEvent).filterMap (fun n =>
        (t.joined anchor { n with scopeSequence := 0 }).map (fun d =>
          ScopeEventRow.delta { n with scopeSequence := 0 } d)) := by
    intro t l
    rw [List.filterMap_map]
    rfl
  rw [ScopeTables.deltas_unnumbered, ScopeTables.deltas_unnumbered, hread tables', ← hevents,
    ← hread tables']
  refine List.filterMap_congr (fun e he => ?_)
  obtain ⟨hin, hauth⟩ := List.mem_filter.mp he
  have hsame : tables.joined anchor { e with scopeSequence := 0 } =
      tables'.joined anchor { e with scopeSequence := 0 } := hjoined e hin hauth
  rw [hsame]

/-- How much of what may be seen lies before a cursor stays the same while
events are neither attached nor detached. -/
theorem PageRead.Settled.count (h : page.Settled anchor authorizedRecords page')
    (hgrows : page.tables.Grows page'.tables) {c : Int} (hbelow : c < page.tables.nextSequence) :
    (page'.tables.deltas anchor authorizedRecords).countP (fun d => decide (d.sequence ≤ c)) =
      (page.tables.deltas anchor authorizedRecords).countP (fun d => decide (d.sequence ≤ c)) := by
  obtain ⟨added, heq, hadded⟩ := hgrows.events
  have hlate : (added.filterMap (page'.tables.visible anchor authorizedRecords)).countP
      (fun d => decide (d.sequence ≤ c)) = 0 := by
    refine List.countP_eq_zero.mpr (fun d hd => ?_)
    obtain ⟨e, he, hvisible⟩ := List.mem_filterMap.mp hd
    rw [ScopeTables.visible_sequence e d hvisible]
    simpa using lt_of_lt_of_le hbelow (hadded e he)
  unfold ScopeTables.deltas
  rw [heq, List.filterMap_append, List.countP_append, hlate, Nat.add_zero, List.countP_filterMap,
    List.countP_filterMap]
  refine List.countP_congr (fun e he => ?_)
  unfold ScopeTables.visible
  by_cases hauth : authorizedRecords.contains e.record = true
  · have hsome := h e he hauth
    simp only [hauth, if_true]
    cases hold : page.tables.joined anchor e with
    | none =>
      rw [hold, Option.isSome_none, eq_comm, Option.isSome_eq_false_iff] at hsome
      rw [Option.isNone_iff_eq_none.mp hsome]
    | some d =>
      rw [hold, Option.isSome_some, eq_comm] at hsome
      obtain ⟨d', hd'⟩ := Option.isSome_iff_exists.mp hsome
      rw [hd']
      rfl
  · simp only [hauth, Bool.false_eq_true, if_false, Option.map_none]

/-- Pages that begin behind equally much of the same have the same on them, and
end behind equally much. -/
theorem PageExact.alike {all all' : List Delta} {since since' : Int} {limit : Nat}
    {result result' : CatchUp} (h : PageExact tables all since limit result)
    (h' : PageExact tables' all' since' limit result') (hordered : Ordered Delta.sequence all)
    (hordered' : Ordered Delta.sequence all')
    (hsame : all.map Delta.unnumbered = all'.map Delta.unnumbered)
    (hcount : all.countP (fun d => decide (d.sequence ≤ since)) =
      all'.countP (fun d => decide (d.sequence ≤ since'))) :
    result.Alike result' ∧
      all.countP (fun d => decide (d.sequence ≤ result.cursor.scopeSequence)) =
        all'.countP (fun d => decide (d.sequence ≤ result'.cursor.scopeSequence)) := by
  have hdeltas : result.deltas.map Delta.unnumbered = result'.deltas.map Delta.unnumbered := by
    rw [h.first, h'.first, hordered.after_eq_drop, hordered'.after_eq_drop, List.map_take,
      List.map_take, List.map_drop, List.map_drop, hsame, hcount]
  have hlength : result.deltas.length = result'.deltas.length := by
    simpa using congrArg List.length hdeltas
  have hcursor : all.countP (fun d => decide (d.sequence ≤ result.cursor.scopeSequence)) =
      all'.countP (fun d => decide (d.sequence ≤ result'.cursor.scopeSequence)) := by
    rw [countP_between h.advances, countP_between h'.advances, ← h.interval, ← h'.interval, hcount,
      hlength]
  refine ⟨⟨hdeltas, ?_⟩, hcursor⟩
  have hall : all.length = all'.length := by simpa using congrArg List.length hsame
  rw [h.rest, h'.rest, hordered.after_eq_drop, hordered'.after_eq_drop, List.length_drop,
    List.length_drop, hall, hcursor]

/-- How much of what may be seen on a page lies before a cursor. -/
def PageRead.before (anchor : Anchor) (authorizedRecords : List RecordKey) (page : PageRead)
    (cursor : Cursor) : Nat :=
  (page.tables.deltas anchor authorizedRecords).countP
    (fun d => decide (d.sequence ≤ cursor.scopeSequence))

/-- A page begins behind as much as the one before ended behind. -/
theorem Chained.carried
    (h : Chained anchor authorizedRecords policyEpoch cursor tables (page :: page' :: pages) cursor'
      tables')
    (hbelow : cursor.scopeSequence < tables.nextSequence)
    (hsettled : page.Settled anchor authorizedRecords page') :
    page'.before anchor authorizedRecords page'.since =
      page.before anchor authorizedRecords page.result.cursor := by
  have hnext := (h.page_below hbelow List.mem_cons_self).2.1
  have hcount := hsettled.count h.tail.first_grows hnext
  rw [h.tail.first_since]
  exact hcount

/-- Two readers before whom the same authorized events stand, attached alike. -/
theorem Chained.alike
    (paired : List.Forall₂ (fun page page' => page.limit = page'.limit ∧
      page.tables.Alike anchor authorizedRecords page'.tables) pages pages₂)
    (h : Chained anchor authorizedRecords policyEpoch cursor tables pages cursor' tables')
    (h₂ : Chained anchor authorizedRecords policyEpoch' cursor₂ tables₂ pages₂ cursor₂' tables₂')
    (hbelow : cursor.scopeSequence < tables.nextSequence)
    (hbelow₂ : cursor₂.scopeSequence < tables₂.nextSequence)
    (hsettled : pages.IsChain (PageRead.Settled anchor authorizedRecords))
    (hsettled₂ : pages₂.IsChain (PageRead.Settled anchor authorizedRecords))
    (hbegin : ∀ page ∈ pages.head?, ∀ page' ∈ pages₂.head?,
      page.before anchor authorizedRecords page.since =
        page'.before anchor authorizedRecords page'.since) :
    List.Forall₂ (fun page page' => page.result.Alike page'.result) pages pages₂ := by
  induction paired generalizing cursor cursor₂ tables tables₂ with
  | nil => exact .nil
  | @cons page page' pages pages₂ hpair paired ih =>
    obtain ⟨hlimit, hsame⟩ := hpair
    have hexact := h.exact List.mem_cons_self
    have hexact₂ := h₂.exact List.mem_cons_self
    rw [← hlimit] at hexact₂
    obtain ⟨hresult, hcursor⟩ := hexact.alike hexact₂ (h.sound List.mem_cons_self).deltas_ordered
      (h₂.sound List.mem_cons_self).deltas_ordered hsame.deltas (hbegin page rfl page' rfl)
    refine .cons hresult ?_
    cases paired with
    | nil => exact .nil
    | @cons next next' pages pages₂ hnext paired =>
      obtain ⟨hlink, hrest⟩ := List.isChain_cons_cons.mp hsettled
      obtain ⟨hlink₂, hrest₂⟩ := List.isChain_cons_cons.mp hsettled₂
      refine ih h.tail h₂.tail (h.page_below hbelow List.mem_cons_self).2.1
        (h₂.page_below hbelow₂ List.mem_cons_self).2.1 hrest hrest₂ ?_
      rintro _ ⟨⟩ _ ⟨⟩
      rw [h.carried hbelow hlink, h₂.carried hbelow₂ hlink₂]
      exact hcursor

/-- Nothing lies before the first of all sequences. -/
theorem Chained.before_start
    (h : Chained anchor authorizedRecords policyEpoch ⟨0, policyEpoch⟩ tables pages cursor' tables')
    (hpage : page ∈ pages.head?) : page.before anchor authorizedRecords page.since = 0 := by
  obtain ⟨rest, rfl⟩ : ∃ rest, pages = page :: rest := by
    cases pages with
    | nil => cases hpage
    | cons head rest =>
      cases hpage
      exact ⟨rest, rfl⟩
  rw [h.first_since]
  refine List.countP_eq_zero.mpr (fun d hd => ?_)
  obtain ⟨e, he, hvisible⟩ := List.mem_filterMap.mp hd
  have hpositive := ((h.sound List.mem_cons_self).range e he).1
  rw [ScopeTables.visible_sequence e d hvisible]
  simpa using lt_of_lt_of_le Int.zero_lt_one hpositive

/-- What a reader's pages have in common with what is committed at last. -/
structure Reading.Exact (anchor : Anchor) (authorizedRecords : List RecordKey) (s : Reading) :
    Prop where
  recorded : Table.Unique ScopeEventRow.key s.log.tables.events
  ordered : Ordered Delta.sequence s.delivered
  delivered : ∀ d, d ∈ s.delivered ↔
    ∃ page ∈ s.pages, ∃ e ∈ s.log.tables.events, page.passed e ∧
      page.tables.visible anchor authorizedRecords e = some d
  remaining : ∀ page ∈ s.pages, page.result.remaining =
    (after Delta.sequence page.result.cursor.scopeSequence
      (page.tables.deltas anchor authorizedRecords)).length
  complete : s.Exhausted → ∀ e ∈ s.log.tables.events,
    (s.log.tables.visible anchor authorizedRecords e).isSome = true → ∃ page ∈ s.pages, page.passed e
  settled : s.Exhausted →
    (∀ page ∈ s.pages, ∀ e ∈ s.log.tables.events, page.passed e →
      (page.tables.visible anchor authorizedRecords e).isSome =
        (s.log.tables.visible anchor authorizedRecords e).isSome) →
    s.delivered.map Delta.sequence =
      (s.log.tables.deltas anchor authorizedRecords).map Delta.sequence

/-- The run of a reader as a chain of pages. -/
structure Reading.Sound (anchor : Anchor) (authorizedRecords : List RecordKey) (policyEpoch : Int)
    (s : Reading) : Prop where
  log : s.log.Sound
  epoch : s.cursor.policyEpoch = policyEpoch
  chain : Chained anchor authorizedRecords policyEpoch ⟨0, policyEpoch⟩ ScopeLog.empty.tables s.pages
    s.cursor s.log.tables

variable {s s' : Reading} {m : ReadingMove}

theorem Reading.Sound.next (h : s.Sound anchor authorizedRecords policyEpoch)
    (hnext : s.next anchor authorizedRecords policyEpoch m = some s') :
    s'.Sound anchor authorizedRecords policyEpoch := by
  cases m with
  | log m =>
    obtain ⟨log, hlog, rfl⟩ := Option.map_eq_some_iff.mp hnext
    obtain ⟨hsound, hgrows⟩ := h.log.next hlog
    exact ⟨hsound, h.epoch, h.chain.grow hgrows⟩
  | page limit =>
    obtain ⟨hlimit, heq⟩ := Option.ite_none_left_eq_some.mp hnext
    cases heq
    exact ⟨h.log, catchUp_epoch,
      h.chain.snoc h.log.tables h.epoch (Nat.pos_of_ne_zero hlimit)⟩

theorem Reading.reach_sound (h : (readings anchor authorizedRecords policyEpoch).Reach s) :
    s.Sound anchor authorizedRecords policyEpoch := by
  refine h.invariant ?_ (fun _ _ _ _ hs move => hs.next move)
  rintro s rfl
  exact ⟨ScopeLog.empty_sound, rfl, .nil (.refl _)⟩

/-- Nothing is visible behind the cursor once the last page counts nothing. -/
theorem Reading.Sound.behind (h : s.Sound anchor authorizedRecords policyEpoch)
    (hexhausted : s.Exhausted) {e : ScopeEventRow} (he : e ∈ s.log.tables.events)
    (hvisible : (s.log.tables.visible anchor authorizedRecords e).isSome = true) :
    ∃ page ∈ s.pages, page.passed e := by
  obtain ⟨page, hlast, htables, hremaining⟩ := hexhausted
  have hpage : page ∈ s.pages := List.mem_of_getLast? hlast
  have hnone := (h.chain.exact hpage).rest
  rw [hremaining, h.chain.last_cursor hlast, htables] at hnone
  obtain ⟨d, hd⟩ := Option.isSome_iff_exists.mp hvisible
  refine h.chain.exists_passed ?_ ?_
  · have hpositive := (h.log.tables.range e he).1
    exact lt_of_lt_of_le Int.zero_lt_one hpositive
  · by_contra hbehind
    have hin : d ∈ after Delta.sequence s.cursor.scopeSequence
        (s.log.tables.deltas anchor authorizedRecords) := by
      rw [mem_after, ScopeTables.visible_sequence e d hd]
      exact ⟨List.mem_filterMap.mpr ⟨e, he, hd⟩, not_le.mp hbehind⟩
    rw [List.eq_nil_of_length_eq_zero hnone.symm] at hin
    cases hin

theorem Reading.Sound.exact (h : s.Sound anchor authorizedRecords policyEpoch) :
    s.Exact anchor authorizedRecords := by
  have hbelow : (0 : Int) < ScopeLog.empty.tables.nextSequence := Int.zero_lt_one
  have hordered := h.chain.deltas_ordered hbelow
  have hmem := h.chain.mem_deltas hbelow
  refine ⟨h.log.tables.keys, hordered, hmem, fun page hpage => (h.chain.exact hpage).rest,
    fun hexhausted e he => h.behind hexhausted he, fun hexhausted hsettled => ?_⟩
  -- Both lists are in the order of the sequence, so they are the same once their members are.
  refine List.Pairwise.eq_of_mem_iff (List.pairwise_map.mpr hordered)
    (List.pairwise_map.mpr h.log.tables.deltas_ordered) (fun n => ?_)
  simp only [List.mem_map]
  constructor
  · rintro ⟨d, hd, rfl⟩
    obtain ⟨page, hpage, e, he, hpassed, hvisible⟩ := (hmem d).mp hd
    have hsome := hsettled page hpage e he hpassed
    rw [hvisible] at hsome
    obtain ⟨d', hd'⟩ := Option.isSome_iff_exists.mp hsome.symm
    refine ⟨d', List.mem_filterMap.mpr ⟨e, he, hd'⟩, ?_⟩
    rw [ScopeTables.visible_sequence e d' hd', ScopeTables.visible_sequence e d hvisible]
  · rintro ⟨d, hd, rfl⟩
    obtain ⟨e, he, hvisible⟩ := List.mem_filterMap.mp hd
    have hsome : (s.log.tables.visible anchor authorizedRecords e).isSome = true := by simp [hvisible]
    obtain ⟨page, hpage, hpassed⟩ := h.behind hexhausted he hsome
    obtain ⟨d', hd'⟩ := Option.isSome_iff_exists.mp ((hsettled page hpage e he hpassed).trans hsome)
    refine ⟨d', (hmem d').mpr ⟨page, hpage, e, he, hpassed, hd'⟩, ?_⟩
    rw [ScopeTables.visible_sequence e d' hd', ScopeTables.visible_sequence e d hvisible]

/-- What two readers see who differ in the events hidden from them. -/
theorem Reading.Sound.alike (h : s.Sound anchor authorizedRecords policyEpoch)
    (h' : s'.Sound anchor authorizedRecords policyEpoch')
    (hsettled : s.pages.IsChain (PageRead.Settled anchor authorizedRecords))
    (hsettled' : s'.pages.IsChain (PageRead.Settled anchor authorizedRecords))
    (paired : List.Forall₂ (fun page page' => page.limit = page'.limit ∧
      page.tables.Alike anchor authorizedRecords page'.tables) s.pages s'.pages) :
    List.Forall₂ (fun page page' => page.result.Alike page'.result) s.pages s'.pages := by
  refine Chained.alike paired h.chain h'.chain Int.zero_lt_one Int.zero_lt_one hsettled hsettled'
    (fun page hpage page' hpage' => ?_)
  rw [h.chain.before_start hpage, h'.chain.before_start hpage']

/-- Every page is exact for what is committed and attached when it is read, and
does not tell of the events hidden from its reader. -/
theorem catch_up_exact (h : (readings anchor authorizedRecords policyEpoch).Reach s) :
    s.Exact anchor authorizedRecords ∧
      ∀ s' policyEpoch', (readings anchor authorizedRecords policyEpoch').Reach s' →
        s.pages.IsChain (PageRead.Settled anchor authorizedRecords) →
        s'.pages.IsChain (PageRead.Settled anchor authorizedRecords) →
        List.Forall₂ (fun page page' => page.limit = page'.limit ∧
          page.tables.Alike anchor authorizedRecords page'.tables) s.pages s'.pages →
        List.Forall₂ (fun page page' => page.result.Alike page'.result) s.pages s'.pages := by
  have hsound := Reading.reach_sound h
  refine ⟨hsound.exact, fun s' policyEpoch' h' hsettled hsettled' paired => ?_⟩
  exact hsound.alike (Reading.reach_sound h') hsettled hsettled' paired

section Example

def incident : RecordKey := ("incident", "inc_1")

def action : RecordKey := ("action", "act_1")

def hidden : RecordKey := ("evidence", "evd_1")

def noted (record : RecordKey) : NewEvent :=
  ⟨record, "opened", "Solvan: opened", .observed, none, 0⟩

/-- A transaction that records one event. -/
def recorded (id : Nat) (record : RecordKey) : List ReadingMove :=
  [.log (.begin id), .log (.select id (noted record)), .log (.allocate id), .log (.insert id),
    .log (.commit id)]

def addressed : ReadingMove :=
  .log (.syncDirectory [⟨incident, none, .internal⟩, ⟨action, none, .internal⟩,
    ⟨hidden, none, .restricted⟩])

def contained (child : RecordKey) : ReadingMove :=
  .log (.syncEdges [⟨incident, child, "CONTAINS"⟩])

/-- An action's event, a page, and only then the edge that attaches the action. -/
def attachedLate : List ReadingMove :=
  [addressed] ++ recorded 1 action ++ recorded 2 incident ++
    [.page 50, contained action, .page 50]

def attachedFirst : List ReadingMove :=
  [addressed] ++ recorded 1 action ++ recorded 2 incident ++
    [contained action, .page 1, .page 50]

theorem catch_up_exact_read : ∃ s, (readings (.record incident) [incident, action] 1).Reach s ∧
    s.delivered.map Delta.sequence = [1, 2] ∧ s.Exact (.record incident) [incident, action] := by
  obtain ⟨s, reach, hs⟩ := (Machine.exists_reach attachedFirst rfl (by decide +kernel) :
    ∃ s, (readings (.record incident) [incident, action] 1).Reach s ∧
      decide (s.delivered.map Delta.sequence = [1, 2]) = true)
  exact ⟨s, reach, of_decide_eq_true hs, (catch_up_exact reach).1⟩

/-- The reader has seen the last page empty, and has not seen the action's event. -/
def missed (s : Reading) : Bool :=
  s.log.writers.isEmpty &&
    s.pages.getLast?.any (fun page => decide (page.tables = s.log.tables) &&
      decide (page.result.remaining = 0) && page.result.deltas.isEmpty) &&
    decide (s.delivered.map Delta.sequence ≠
      (s.log.tables.deltas (.record incident) [incident, action]).map Delta.sequence)

/-- A hidden event moves the cursor, past one that is attached only later. -/
def overtaken : List ReadingMove :=
  [addressed, contained hidden] ++ recorded 1 action ++ recorded 2 hidden ++
    [.page 50, contained action, .page 50]

def notOvertaken : List ReadingMove :=
  [addressed, contained hidden] ++ recorded 1 action ++ [.page 50, contained action, .page 50]

instance (anchor : Anchor) (authorizedRecords : List RecordKey) (tables tables' : ScopeTables) :
    Decidable (tables.Alike anchor authorizedRecords tables') :=
  inferInstanceAs (Decidable (_ ∧ _))

instance (page page' : CatchUp) : Decidable (page.Alike page') :=
  inferInstanceAs (Decidable (_ ∧ _))

/-- A page is missed where its edge comes late, and a hidden event is told by it. -/
theorem catch_up_misses :
    (¬∀ (anchor : Anchor) (authorizedRecords : List RecordKey) (policyEpoch : Int) (s : Reading),
      (readings anchor authorizedRecords policyEpoch).Reach s → s.log.writers = [] →
      (∃ page, s.pages.getLast? = some page ∧ page.tables = s.log.tables ∧
        page.result.remaining = 0 ∧ page.result.deltas = []) →
      s.delivered.map Delta.sequence =
        (s.log.tables.deltas anchor authorizedRecords).map Delta.sequence) ∧
    ¬∀ (anchor : Anchor) (authorizedRecords : List RecordKey) (policyEpoch : Int) (s s' : Reading),
      (readings anchor authorizedRecords policyEpoch).Reach s →
      (readings anchor authorizedRecords policyEpoch).Reach s' →
      List.Forall₂ (fun page page' => page.limit = page'.limit ∧
        page.tables.Alike anchor authorizedRecords page'.tables) s.pages s'.pages →
      List.Forall₂ (fun page page' => page.result.Alike page'.result) s.pages s'.pages := by
  constructor
  · intro hall
    obtain ⟨s, reach, hs⟩ := (Machine.exists_reach attachedLate rfl (by decide +kernel) :
      ∃ s, (readings (.record incident) [incident, action] 1).Reach s ∧ missed s = true)
    simp only [missed, Bool.and_eq_true, Option.any_eq_true, decide_eq_true_eq,
      List.isEmpty_iff] at hs
    obtain ⟨⟨hwriters, page, hlast, ⟨htables, hremaining⟩, hdeltas⟩, hne⟩ := hs
    exact hne (hall _ _ _ s reach hwriters ⟨page, hlast, htables, hremaining, hdeltas⟩)
  · intro hall
    have hboth : (Machine.runFn (Reading.next (.record incident) [incident, action] 1) (.start 1)
        overtaken).any (fun s =>
          (Machine.runFn (Reading.next (.record incident) [incident, action] 1) (.start 1)
            notOvertaken).any (fun s' =>
              decide (List.Forall₂ (fun page page' => page.limit = page'.limit ∧
                page.tables.Alike (.record incident) [incident, action] page'.tables)
                s.pages s'.pages) &&
              !decide (List.Forall₂ (fun page page' => page.result.Alike page'.result)
                s.pages s'.pages))) = true := by
      decide +kernel
    obtain ⟨s, hs, hrest⟩ := (Option.any_eq_true _ _).mp hboth
    obtain ⟨s', hs', hpair⟩ := (Option.any_eq_true _ _).mp hrest
    simp only [Bool.and_eq_true, Bool.not_eq_true', decide_eq_true_eq, decide_eq_false_iff_not]
      at hpair
    exact hpair.2 (hall (.record incident) [incident, action] 1 s s'
      (Machine.reach_of_runFn _ rfl hs) (Machine.reach_of_runFn _ rfl hs') hpair.1)

end Example

end Solvan.Liaison
