import Solvan.Base.Paging
import Solvan.Liaison.Events

/-! The sequence of a scope. The transaction that holds its row is the only one
with events of its own, so events are committed in the order of their sequence. -/
namespace Solvan.Liaison

abbrev ScopeEventRow.key (e : ScopeEventRow) : RecordKey × String := e.toNewEvent.key

/-- What an open transaction may have taken and written. -/
structure Writer.Sound (tables : ScopeTables) (w : Writer) : Prop where
  least : tables.nextSequence ≤ w.sequence.getD tables.nextSequence
  ordered : Paging.Ordered ScopeEventRow.scopeSequence w.events
  range : ∀ e ∈ w.events, tables.nextSequence ≤ e.scopeSequence ∧
    e.scopeSequence < w.sequence.getD tables.nextSequence
  allocated : ∀ event sequence, w.stage = .allocated event sequence →
    w.sequence.isSome = true ∧ tables.nextSequence ≤ sequence ∧
      sequence < w.sequence.getD tables.nextSequence ∧ ∀ e ∈ w.events, e.scopeSequence < sequence
  keys : Table.Unique ScopeEventRow.key (tables.events ++ w.events)

structure ScopeTables.Sound (tables : ScopeTables) : Prop where
  positive : 1 ≤ tables.nextSequence
  ordered : Paging.Ordered ScopeEventRow.scopeSequence tables.events
  range : ∀ e ∈ tables.events, 1 ≤ e.scopeSequence ∧ e.scopeSequence < tables.nextSequence
  keys : Table.Unique ScopeEventRow.key tables.events

structure ScopeLog.Sound (log : ScopeLog) : Prop where
  tables : log.tables.Sound
  ids : Table.Unique Writer.id log.writers
  writers : ∀ w ∈ log.writers, w.Sound log.tables
  holder : ∀ w ∈ log.writers, ∀ w' ∈ log.writers, w.sequence.isSome = true →
    w'.sequence.isSome = true → w.id = w'.id

/-- What is committed stays, and what is added has a sequence of its own. -/
structure ScopeTables.Grows (tables tables' : ScopeTables) : Prop where
  sequence : tables.nextSequence ≤ tables'.nextSequence
  events : ∃ added, tables'.events = tables.events ++ added ∧
    ∀ e ∈ added, tables.nextSequence ≤ e.scopeSequence

variable {tables tables' : ScopeTables} {log log' : ScopeLog} {w w' : Writer} {m : LogMove}
  {e : ScopeEventRow}

theorem ScopeTables.Grows.refl (tables : ScopeTables) : tables.Grows tables :=
  ⟨le_rfl, [], by simp, by simp⟩

theorem ScopeTables.Grows.of_same (hnext : tables'.nextSequence = tables.nextSequence)
    (hevents : tables'.events = tables.events) : tables.Grows tables' :=
  ⟨hnext ▸ le_rfl, [], by simp [hevents], by simp⟩

theorem ScopeTables.Grows.trans {tables'' : ScopeTables} (h : tables.Grows tables')
    (h' : tables'.Grows tables'') : tables.Grows tables'' := by
  obtain ⟨added, heq, hadded⟩ := h.events
  obtain ⟨added', heq', hadded'⟩ := h'.events
  refine ⟨le_trans h.sequence h'.sequence, added ++ added', ?_, ?_⟩
  · rw [heq', heq, List.append_assoc]
  · intro e he
    rcases List.mem_append.mp he with he | he
    · exact hadded e he
    · exact le_trans h.sequence (hadded' e he)

theorem ScopeTables.Grows.mem (h : tables.Grows tables') (he : e ∈ tables.events) :
    e ∈ tables'.events := by
  obtain ⟨added, heq, -⟩ := h.events
  rw [heq]
  exact List.mem_append_left _ he

theorem ScopeTables.Grows.mem_of_lt (h : tables.Grows tables') (he : e ∈ tables'.events)
    (hlt : e.scopeSequence < tables.nextSequence) : e ∈ tables.events := by
  obtain ⟨added, heq, hadded⟩ := h.events
  rw [heq] at he
  rcases List.mem_append.mp he with he | he
  · exact he
  · exact absurd (hadded e he) (not_le.mpr hlt)

/-- A transaction that has taken no sequence has written no event. -/
theorem Writer.Sound.events_nil (h : w.Sound tables) (hnone : w.sequence = none) : w.events = [] := by
  refine List.eq_nil_iff_forall_not_mem.mpr (fun e he => ?_)
  have hrange := h.range e he
  rw [hnone, Option.getD_none] at hrange
  omega

theorem Writer.Sound.of_same (h : w.Sound tables)
    (hnext : tables'.nextSequence = tables.nextSequence) (hevents : tables'.events = tables.events) :
    w.Sound tables' where
  least := hnext ▸ h.least
  ordered := h.ordered
  range := hnext ▸ h.range
  allocated := hnext ▸ h.allocated
  keys := hevents ▸ h.keys

/-- A transaction that holds nothing is sound whatever is committed. -/
theorem Writer.Sound.of_none (hnone : w.sequence = none) (hevents : w.events = [])
    (hstage : ∀ event sequence, w.stage ≠ .allocated event sequence)
    (hkeys : Table.Unique ScopeEventRow.key tables.events) : w.Sound tables where
  least := by rw [hnone, Option.getD_none]
  ordered := by rw [hevents]; exact .nil
  range := by simp [hevents]
  allocated event sequence h := absurd h (hstage event sequence)
  keys := by rwa [hevents, List.append_nil]

theorem ScopeLog.mem_setWriter (hw : w' ∈ (log.setWriter w).writers) :
    w' = w ∨ (w' ∈ log.writers ∧ w'.id ≠ w.id) := by
  rcases Table.update_cases hw with ⟨-, -, -, heq⟩ | ⟨hmem, hmiss⟩
  · exact .inl heq
  · exact .inr ⟨hmem, by simpa using hmiss⟩

theorem ScopeLog.Sound.setWriter (h : log.Sound) (hsound : w.Sound log.tables)
    (halone : w.sequence.isSome = true → ∀ other ∈ log.writers, other.id ≠ w.id →
      other.sequence.isSome = false) : (log.setWriter w).Sound where
  tables := h.tables
  ids := h.ids.update (fun r _ hr => by simpa using Eq.symm (by simpa using hr))
  writers := by
    intro w' hw'
    rcases ScopeLog.mem_setWriter hw' with rfl | ⟨hw', -⟩
    · exact hsound
    · exact h.writers w' hw'
  holder := by
    intro a ha b hb hsa hsb
    rcases ScopeLog.mem_setWriter ha with rfl | ⟨ha, hida⟩
    · rcases ScopeLog.mem_setWriter hb with rfl | ⟨hb, hidb⟩
      · rfl
      · rw [halone hsa b hb hidb] at hsb
        cases hsb
    · rcases ScopeLog.mem_setWriter hb with heq | ⟨hb, -⟩
      · rw [halone (heq ▸ hsb) a ha hida] at hsa
        cases hsa
      · exact h.holder a ha b hb hsa hsb

/-- While one transaction holds the sequence, no other does. -/
theorem ScopeLog.Sound.alone (h : log.Sound) (hw : w ∈ log.writers)
    (hid : w'.id = w.id) (hsame : w'.sequence = w.sequence) :
    w'.sequence.isSome = true → ∀ other ∈ log.writers, other.id ≠ w'.id →
      other.sequence.isSome = false := by
  intro hsome other hother hne
  rw [hsame] at hsome
  refine Bool.eq_false_iff.mpr (fun hheld => ?_)
  exact hne ((h.holder other hother w hw hheld hsome).trans hid.symm)

theorem ScopeLog.Sound.dropWriter (h : log.Sound) (id : Nat) : (log.dropWriter id).Sound where
  tables := h.tables
  ids := h.ids.sublist (List.filter_sublist.map Writer.id)
  writers w hw := h.writers w (List.mem_of_mem_filter hw)
  holder a ha b hb := h.holder a (List.mem_of_mem_filter ha) b (List.mem_of_mem_filter hb)

theorem ScopeLog.Sound.of_same (h : log.Sound)
    (hnext : tables.nextSequence = log.tables.nextSequence)
    (hevents : tables.events = log.tables.events) :
    ScopeLog.Sound { log with tables := tables } where
  tables :=
    ⟨hnext ▸ h.tables.positive, hevents ▸ h.tables.ordered, hnext ▸ hevents ▸ h.tables.range,
      hevents ▸ h.tables.keys⟩
  ids := h.ids
  writers w hw := (h.writers w hw).of_same hnext hevents
  holder := h.holder

theorem Writer.commit_grows (h : w.Sound tables) : tables.Grows (w.commit tables) :=
  ⟨h.least, w.events, rfl, fun e he => (h.range e he).1⟩

theorem Writer.commit_sound (h : w.Sound tables) (ht : tables.Sound) : (w.commit tables).Sound where
  positive := le_trans ht.positive h.least
  ordered := by
    refine List.pairwise_append.mpr ⟨ht.ordered, h.ordered, fun e he e' he' => ?_⟩
    have hold := ht.range e he
    have hnew := h.range e' he'
    omega
  range := by
    intro e he
    rcases List.mem_append.mp he with he | he
    · have hold := ht.range e he
      exact ⟨hold.1, lt_of_lt_of_le hold.2 h.least⟩
    · have hnew := h.range e he
      exact ⟨le_trans ht.positive hnew.1, hnew.2⟩
  keys := h.keys

/-- What a commit leaves of the other transactions. -/
theorem ScopeLog.Sound.commit (h : log.Sound) (hw : w ∈ log.writers) :
    ScopeLog.Sound { log.dropWriter w.id with tables := w.commit log.tables } := by
  have hsound := h.writers w hw
  have hdropped := h.dropWriter w.id
  refine ⟨Writer.commit_sound hsound h.tables, hdropped.ids, fun other hother => ?_, hdropped.holder⟩
  obtain ⟨hin, hne⟩ := List.mem_filter.mp hother
  have hother := h.writers other hin
  have hne : other.id ≠ w.id := by simpa using hne
  cases hseq : w.sequence with
  | none =>
    have hevents := hsound.events_nil hseq
    exact hother.of_same (by simp [Writer.commit, hseq]) (by simp [Writer.commit, hevents])
  | some sequence =>
    -- The one that commits holds the sequence, so the other has written nothing.
    have hnone : other.sequence = none := by
      by_contra hheld
      exact hne (h.holder other hin w hw (by simpa [Option.isSome_iff_ne_none] using hheld)
        (by simp [hseq]))
    refine .of_none hnone (hother.events_nil hnone) (fun event sequence hstage => ?_) hsound.keys
    have hsome := (hother.allocated event sequence hstage).1
    rw [hnone] at hsome
    cases hsome

theorem ScopeLog.Sound.begin (h : log.Sound) {id : Nat}
    (hnew : ¬log.writers.any (fun w => w.id == id) = true) :
    ScopeLog.Sound { log with writers := log.writers ++ [⟨id, none, .idle, [], []⟩] } := by
  have hfresh : ∀ w ∈ log.writers, w.id ≠ id := by
    intro w hw hid
    exact hnew (List.any_eq_true.mpr ⟨w, hw, by simpa using hid⟩)
  refine ⟨h.tables, h.ids.append hfresh, fun w hw => ?_, fun a ha b hb hsa hsb => ?_⟩
  · rcases List.mem_append.mp hw with hw | hw
    · exact h.writers w hw
    · obtain rfl := List.mem_singleton.mp hw
      exact .of_none rfl rfl (fun _ _ => nofun) h.tables.keys
  · rcases List.mem_append.mp ha with ha | ha
    · rcases List.mem_append.mp hb with hb | hb
      · exact h.holder a ha b hb hsa hsb
      · rw [List.mem_singleton.mp hb] at hsb
        cases hsb
    · rw [List.mem_singleton.mp ha] at hsa
      cases hsa

theorem Writer.Sound.select (h : w.Sound tables) (event : NewEvent) :
    Writer.Sound tables { w with stage := .selected event } where
  least := h.least
  ordered := h.ordered
  range := h.range
  allocated _ _ hstage := by cases hstage
  keys := h.keys

theorem Writer.Sound.allocate (h : w.Sound tables) (event : NewEvent) :
    Writer.Sound tables
      { w with
        sequence := some (w.sequence.getD tables.nextSequence + 1)
        stage := .allocated event (w.sequence.getD tables.nextSequence) } where
  least := by
    have hleast := h.least
    simp only [Option.getD_some]
    omega
  ordered := h.ordered
  range e he := by
    have hrange := h.range e he
    simp only [Option.getD_some]
    omega
  allocated event' sequence hstage := by
    cases hstage
    exact ⟨rfl, h.least, Int.lt_succ _, fun e he => (h.range e he).2⟩
  keys := h.keys

theorem Writer.Sound.idle (h : w.Sound tables) : Writer.Sound tables { w with stage := .idle } where
  least := h.least
  ordered := h.ordered
  range := h.range
  allocated _ _ hstage := by cases hstage
  keys := h.keys

theorem Writer.Sound.insert {event : NewEvent} {sequence : Int} (h : w.Sound tables)
    (hstage : w.stage = .allocated event sequence) (hnew : ¬w.records tables event = true) :
    Writer.Sound tables
      { w with
        stage := .idle
        events := w.events ++ [{ event with scopeSequence := sequence }] } := by
  obtain ⟨-, hleast, hless, hlast⟩ := h.allocated event sequence hstage
  have hfresh : ∀ e ∈ tables.events ++ w.events, e.key ≠ event.key := by
    intro e he hkey
    exact hnew (List.any_eq_true.mpr ⟨e, he, by simpa using hkey⟩)
  refine ⟨h.least, ?_, fun e he => ?_, fun _ _ => nofun, ?_⟩
  · refine List.pairwise_append.mpr ⟨h.ordered, List.pairwise_singleton _ _, fun e he e' he' => ?_⟩
    rw [List.mem_singleton.mp he']
    exact hlast e he
  · rcases List.mem_append.mp he with he | he
    · exact h.range e he
    · rw [List.mem_singleton.mp he]
      exact ⟨hleast, hless⟩
  · rw [← List.append_assoc]
    exact h.keys.append hfresh

theorem Writer.Sound.upsertDirectory (h : w.Sound tables) (directory : List DirectoryRow) :
    Writer.Sound tables { w with directory := directory } where
  least := h.least
  ordered := h.ordered
  range := h.range
  allocated := h.allocated
  keys := h.keys

/-- One statement keeps the order of the sequence and what is committed. -/
theorem ScopeLog.Sound.next (h : log.Sound) (hnext : log.next m = some log') :
    log'.Sound ∧ log.tables.Grows log'.tables := by
  cases m with
  | begin id =>
    obtain ⟨hnew, heq⟩ := Option.ite_none_left_eq_some.mp hnext
    cases heq
    exact ⟨h.begin hnew, .refl _⟩
  | select id event =>
    obtain ⟨w, hw, hnext⟩ := Option.bind_eq_some_iff.mp hnext
    obtain ⟨hw, -⟩ := Table.mem_of_find hw
    obtain ⟨-, hnext⟩ := Option.ite_none_left_eq_some.mp hnext
    split at hnext
    · cases hnext
      exact ⟨h, .refl _⟩
    · cases hnext
      exact ⟨h.setWriter ((h.writers w hw).select event) (h.alone hw rfl rfl), .refl _⟩
  | allocate id =>
    obtain ⟨w, hw, hnext⟩ := Option.bind_eq_some_iff.mp hnext
    obtain ⟨hw, hid⟩ := Table.mem_of_find hw
    split at hnext
    · obtain ⟨hfree, heq⟩ := Option.ite_none_left_eq_some.mp hnext
      cases heq
      refine ⟨h.setWriter ((h.writers w hw).allocate _) (fun _ other hother hne => ?_), .refl _⟩
      refine Bool.eq_false_iff.mpr (fun hheld => hfree (List.any_eq_true.mpr ⟨other, hother, ?_⟩))
      have hne : other.id ≠ id := hid ▸ hne
      simpa [hne] using hheld
    · cases hnext
  | insert id =>
    obtain ⟨w, hw, hnext⟩ := Option.bind_eq_some_iff.mp hnext
    obtain ⟨hw, -⟩ := Table.mem_of_find hw
    split at hnext
    · rename_i event sequence hstage
      obtain ⟨-, hnext⟩ := Option.ite_none_left_eq_some.mp hnext
      split at hnext
      · cases hnext
        exact ⟨h.setWriter (h.writers w hw).idle (h.alone hw rfl rfl), .refl _⟩
      · rename_i hnew
        cases hnext
        exact ⟨h.setWriter ((h.writers w hw).insert hstage hnew) (h.alone hw rfl rfl), .refl _⟩
    · cases hnext
  | upsertDirectory id row =>
    obtain ⟨w, hw, hnext⟩ := Option.bind_eq_some_iff.mp hnext
    obtain ⟨hw, -⟩ := Table.mem_of_find hw
    obtain ⟨-, heq⟩ := Option.ite_none_left_eq_some.mp hnext
    cases heq
    exact ⟨h.setWriter ((h.writers w hw).upsertDirectory _) (h.alone hw rfl rfl), .refl _⟩
  | commit id =>
    obtain ⟨w, hw, hnext⟩ := Option.bind_eq_some_iff.mp hnext
    obtain ⟨hmem, rfl⟩ := Table.mem_of_find hw
    obtain ⟨-, heq⟩ := Option.ite_none_left_eq_some.mp hnext
    cases heq
    exact ⟨h.commit hmem, Writer.commit_grows (h.writers w hmem)⟩
  | rollback id =>
    cases hnext
    exact ⟨h.dropWriter id, .refl _⟩
  | syncDirectory rows =>
    cases hnext
    exact ⟨h.of_same rfl rfl, .of_same rfl rfl⟩
  | syncEdges rows =>
    cases hnext
    exact ⟨h.of_same rfl rfl, .of_same rfl rfl⟩

theorem ScopeLog.empty_sound : ScopeLog.empty.Sound :=
  ⟨⟨le_rfl, .nil, by simp [ScopeLog.empty], List.nodup_nil⟩, List.nodup_nil,
    by simp [ScopeLog.empty], by simp [ScopeLog.empty]⟩

end Solvan.Liaison
