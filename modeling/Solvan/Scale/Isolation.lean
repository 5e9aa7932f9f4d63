import Mathlib.Data.List.Infix
import Solvan.Scale.Delivery

/-! What the fan-out keeps apart: the scopes of its events, and a batch it refuses. -/
namespace Solvan.Scale

open Solvan.Base

def SequencedEvent.scope (event : SequencedEvent) : Scope :=
  ⟨event.organizationId, event.projectId, event.environmentId⟩

/-- The text that `_scope_key_hash` hashes. -/
def scopeText (scope : Scope) : String :=
  "|".intercalate [scope.organizationId, scope.projectId, scope.environmentId]

/-- What stands between the bars of a scope's three fields. -/
def scopeParts (scope : Scope) : List (List Char) :=
  [scope.organizationId, scope.projectId, scope.environmentId].flatMap (fun field => field.toList.splitOn '|')

theorem scopeText_eq_iff {a b : Scope} : scopeText a = scopeText b ↔ scopeParts a = scopeParts b := by
  have hparts : ∀ scope : Scope, (scopeText scope).toList.splitOn '|' = scopeParts scope := by
    intro scope
    have hjoined : scopeText scope =
        scope.organizationId ++ "|" ++ scope.projectId ++ "|" ++ scope.environmentId := rfl
    have htext : (scopeText scope).toList =
        scope.organizationId.toList ++ '|' :: (scope.projectId.toList ++ '|' :: scope.environmentId.toList) := by
      simp [hjoined]
    rw [htext, List.splitOn_append_cons_self, List.splitOn_append_cons_self]
    simp [scopeParts]
  rw [← hparts, ← hparts]
  refine ⟨fun h => by rw [h], fun h => ?_⟩
  have hlists := congrArg (List.intercalate ['|']) h
  rw [List.intercalate_splitOn, List.intercalate_splitOn] at hlists
  exact String.toList_inj.mp hlists

variable {sha256 : String → String} {f f' : ContentFreeEventFanout} {batch : List SequencedEvent}
  {rows rows' : List SequencedEvent} {event : SequencedEvent} {firstScope : String} {epoch : Int}

/-- Whether an event is refused after the events before it. -/
def Refused (sha256 : String → String) (epoch : Int) (firstScope : String) (rows : List SequencedEvent)
    (event : SequencedEvent) : Prop :=
  event.placementEpoch ≠ epoch ∨ event.publishable = false ∨ scopeKeyHash sha256 event ≠ firstScope ∨
    (Keyed.get SequencedEvent.eventId rows event.eventId).any
      (fun existing => existing.eventHash != event.eventHash) = true

instance : Decidable (Refused sha256 epoch firstScope rows event) :=
  inferInstanceAs (Decidable (_ ∨ _ ∨ _ ∨ _))

/-- A batch of which no event is refused. -/
def Taken (sha256 : String → String) (epoch : Int) (firstScope : String) :
    List SequencedEvent → List SequencedEvent → Prop
  | _, [] => True
  | rows, event :: batch => ¬Refused sha256 epoch firstScope rows event ∧
      Taken sha256 epoch firstScope (rows ++ [event]) batch

instance decidableTaken : ∀ rows batch, Decidable (Taken sha256 epoch firstScope rows batch)
  | _, [] => inferInstanceAs (Decidable True)
  | rows, event :: batch =>
    have := decidableTaken (rows ++ [event]) batch
    inferInstanceAs (Decidable (¬Refused sha256 epoch firstScope rows event ∧
      Taken sha256 epoch firstScope (rows ++ [event]) batch))

/-- An event that a feed has the id of. -/
def Held (rows : List SequencedEvent) (event : SequencedEvent) : Prop :=
  event.eventId ∈ rows.map SequencedEvent.eventId

/-- Two feeds in which each id is the id of the same event. -/
def SameIds (rows rows' : List SequencedEvent) : Prop :=
  ∀ eventId, Keyed.get SequencedEvent.eventId rows eventId = Keyed.get SequencedEvent.eventId rows' eventId

theorem SameIds.held (h : SameIds rows rows') : Held rows event ↔ Held rows' event := by
  have hnone := h event.eventId
  unfold Held
  rw [← not_iff_not, ← Keyed.get_none, ← Keyed.get_none, hnone]

theorem SameIds.refused (h : SameIds rows rows') :
    Refused sha256 epoch firstScope rows event ↔ Refused sha256 epoch firstScope rows' event := by
  unfold Refused
  rw [h event.eventId]

theorem SameIds.append (h : SameIds rows rows') (more : List SequencedEvent) :
    SameIds (rows ++ more) (rows' ++ more) := by
  intro eventId
  have hrows := h eventId
  unfold Keyed.get at hrows ⊢
  rw [List.find?_append, List.find?_append, hrows]

theorem SameIds.taken (h : SameIds rows rows') :
    Taken sha256 epoch firstScope rows batch ↔ Taken sha256 epoch firstScope rows' batch := by
  induction batch generalizing rows rows' with
  | nil => exact Iff.rfl
  | cons event batch ih => exact and_congr (not_congr h.refused) (ih (h.append [event]))

/-- An id that a feed has already is the id of the first event that has it. -/
theorem sameIds_held (h : Held rows event) : SameIds (rows ++ [event]) rows := by
  intro eventId
  unfold Keyed.get
  rw [List.find?_append]
  cases hfind : rows.find? (fun row => row.eventId == eventId) with
  | some row => rfl
  | none =>
    have hne : eventId ∉ rows.map SequencedEvent.eventId := Keyed.get_none.mp hfind
    have hother : (event.eventId == eventId) = false := beq_eq_false_iff_ne.mpr (fun heq => hne (heq ▸ h))
    simp [hother]

/-- How far a batch gets, and whether anything is left of it in the feed. -/
structure Admitted (sha256 : String → String) (f : ContentFreeEventFanout) (firstScope : String)
    (rows batch : List SequencedEvent) (taken rest added : List SequencedEvent) : Prop where
  batch_eq : batch = taken ++ rest
  accepted : Taken sha256 f.binding.placementEpoch firstScope rows taken
  left : ( f.admit sha256 firstScope batch).1 = { f with events := f.events ++ added }
  nothing : added = [] ↔ ∀ event ∈ taken, Held rows event
  ended : (rest = [] ∧ ( f.admit sha256 firstScope batch).2 = none) ∨
    ∃ bad later refusal, rest = bad :: later ∧
      Refused sha256 f.binding.placementEpoch firstScope (rows ++ taken) bad ∧
        ( f.admit sha256 firstScope batch).2 = some refusal

theorem Admitted.refuse {bad : SequencedEvent} {refusal : Refusal}
    (hbad : Refused sha256 f.binding.placementEpoch firstScope rows bad)
    (h : f.admit sha256 firstScope (bad :: batch) = (f, some refusal)) :
    Admitted sha256 f firstScope rows (bad :: batch) [] (bad :: batch) [] where
  batch_eq := rfl
  accepted := trivial
  left := by simp [h]
  nothing := by simp
  ended := .inr ⟨bad, batch, refusal, rfl, (List.append_nil rows).symm ▸ hbad, by rw [h]⟩

/-- The loop of `publish`, from a feed with the ids of some rows. -/
theorem admit_spec (hsame : SameIds f.events rows) (batch : List SequencedEvent) :
    ∃ taken rest added, Admitted sha256 f firstScope rows batch taken rest added := by
  induction batch generalizing f rows with
  | nil =>
    refine ⟨[], [], [], rfl, trivial, ?_, by simp, .inl ⟨rfl, rfl⟩⟩
    simp [ ContentFreeEventFanout.admit]
  | cons event batch ih =>
    by_cases hepoch : event.placementEpoch ≠ f.binding.placementEpoch
    · exact ⟨_, _, _, .refuse (.inl hepoch) (if_pos hepoch)⟩
    by_cases hstate : (!event.publishable) = true
    · exact ⟨_, _, _, .refuse (.inr (.inl (by simpa using hstate))) (by
        rw [ ContentFreeEventFanout.admit, if_neg hepoch, if_pos hstate])⟩
    by_cases hscope : scopeKeyHash sha256 event ≠ firstScope
    · exact ⟨_, _, _, .refuse (.inr (.inr (.inl hscope))) (by
        rw [ ContentFreeEventFanout.admit, if_neg hepoch, if_neg hstate, if_pos hscope])⟩
    cases hget : Keyed.get SequencedEvent.eventId f.events event.eventId with
    | some existing =>
      have hstep : f.admit sha256 firstScope (event :: batch) =
          if existing.eventHash ≠ event.eventHash then
            (f, some (.runtime "event id was reused with a different payload"))
          else f.admit sha256 firstScope batch := by
        rw [ ContentFreeEventFanout.admit, if_neg hepoch, if_neg hstate, if_neg hscope, hget]
      have hrow := (hsame event.eventId).symm.trans hget
      have hheld : Held rows event := by
        by_contra hnot
        cases hrow.symm.trans (Keyed.get_none.mpr hnot)
      by_cases hreused : existing.eventHash ≠ event.eventHash
      · exact ⟨_, _, _, .refuse (.inr (.inr (.inr (by simpa [hrow] using hreused)))) (hstep.trans (if_pos hreused))⟩
      · have hstep := hstep.trans (if_neg hreused)
        have hmore : SameIds f.events (rows ++ [event]) := fun eventId =>
          (hsame eventId).trans (sameIds_held hheld eventId).symm
        obtain ⟨taken, rest, added, h⟩ := ih hmore
        have hnot : ¬Refused sha256 f.binding.placementEpoch firstScope rows event := by
          rintro (h | h | h | h)
          · exact hepoch h
          · exact hstate (by simpa using h)
          · exact hscope h
          · exact hreused (by simpa [hrow] using h)
        refine ⟨event :: taken, rest, added, by rw [h.batch_eq]; rfl, ⟨hnot, h.accepted⟩, hstep ▸ h.left, ?_, ?_⟩
        · rw [h.nothing, List.forall_mem_cons, and_iff_right hheld]
          exact forall₂_congr fun other _ => (sameIds_held hheld).held
        · rw [hstep, show rows ++ event :: taken = rows ++ [event] ++ taken by simp]
          exact h.ended
    | none =>
      have habsent : event.eventId ∉ f.events.map SequencedEvent.eventId := Keyed.get_none.mp hget
      have hrow := (hsame event.eventId).symm.trans hget
      have hstep : f.admit sha256 firstScope (event :: batch) = ContentFreeEventFanout.admit sha256 firstScope
          { f with events := f.events ++ [event] } batch := by
        rw [ ContentFreeEventFanout.admit, if_neg hepoch, if_neg hstate, if_neg hscope, hget]
        exact congrArg (fun events => ContentFreeEventFanout.admit sha256 firstScope { f with events := events } batch)
          (Keyed.put_of_absent habsent)
      have hmore : SameIds (f.events ++ [event]) (rows ++ [event]) := hsame.append [event]
      obtain ⟨taken, rest, added, h⟩ := @ih { f with events := f.events ++ [event] } _ hmore
      have hnot : ¬Refused sha256 f.binding.placementEpoch firstScope rows event := by
        rintro (h | h | h | h)
        · exact hepoch h
        · exact hstate (by simpa using h)
        · exact hscope h
        · rw [hrow] at h
          cases h
      refine ⟨event :: taken, rest, event :: added, by rw [h.batch_eq]; rfl, ⟨hnot, h.accepted⟩, ?_, ?_, ?_⟩
      · rw [hstep]
        simpa using h.left
      · refine iff_of_false (List.cons_ne_nil _ _) (fun hall => ?_)
        exact Keyed.get_none.mp hrow (hall event List.mem_cons_self)
      · rw [hstep, show rows ++ event :: taken = rows ++ [event] ++ taken by simp]
        exact h.ended

theorem taken_mem (h : Taken sha256 epoch firstScope rows batch) (hevent : event ∈ batch) :
    event.publishable = true ∧ scopeKeyHash sha256 event = firstScope := by
  induction batch generalizing rows with
  | nil => cases hevent
  | cons first batch ih =>
    rcases List.mem_cons.mp hevent with rfl | hmem
    · refine ⟨?_, by_contra fun hscope => h.1 (.inr (.inr (.inl hscope)))⟩
      exact by_contra fun hstate => h.1 (.inr (.inl (by simpa using hstate)))
    · exact ih h.2 hmem

def lowest (batch : List SequencedEvent) : Int :=
  let sequences := batch.filterMap SequencedEvent.scopeSequence
  sequences.foldl min (sequences.headD 0)

def highest (batch : List SequencedEvent) : Int :=
  let sequences := batch.filterMap SequencedEvent.scopeSequence
  sequences.foldl max (sequences.headD 0)

/-- The bounds of a batch are places in it, and enclose all of them. -/
theorem bounds_spec (hbatch : ∀ event ∈ batch, event.publishable = true) (hne : batch ≠ []) :
    (∃ event ∈ batch, event.place = lowest batch) ∧
      ∀ event ∈ batch, lowest batch ≤ event.place ∧ event.place ≤ highest batch := by
  have hsequences : batch.filterMap SequencedEvent.scopeSequence = batch.map SequencedEvent.place := by
    rw [← List.filterMap_eq_map]
    refine List.filterMap_congr (fun event hevent => ?_)
    have hsome := (Bool.and_eq_true _ _ ▸ hbatch event hevent).2
    obtain ⟨place, hplace⟩ := Option.isSome_iff_exists.mp hsome
    simp [SequencedEvent.place, hplace]
  obtain ⟨first, rest, rfl⟩ := List.exists_cons_of_ne_nil hne
  have hmin : ((first :: rest).map SequencedEvent.place).min? = some (lowest (first :: rest)) := by
    rw [lowest, hsequences, List.map_cons, List.min?_cons']
    simp
  have hmax : ((first :: rest).map SequencedEvent.place).max? = some (highest (first :: rest)) := by
    rw [highest, hsequences, List.map_cons, List.max?_cons']
    simp
  rw [List.min?_eq_some_iff] at hmin
  rw [List.max?_eq_some_iff] at hmax
  exact ⟨List.mem_map.mp hmin.1, fun event hevent =>
    ⟨hmin.2 _ (List.mem_map_of_mem hevent), hmax.2 _ (List.mem_map_of_mem hevent)⟩⟩

/-- The second half of `publish`. -/
def ContentFreeEventFanout.announce (f : ContentFreeEventFanout) (firstScope : String)
    (batch : List SequencedEvent) : ContentFreeEventFanout × Except Refusal (Option ContentFreeWakeup) :=
  match f.wakeups.find? (fun wakeup => wakeup.fromSequence == lowest batch && wakeup.toSequence == highest batch) with
  | some existing => (f, .ok (some existing))
  | none =>
    match ContentFreeWakeup.check ⟨f.binding.cellId, f.binding.placementEpoch, firstScope, lowest batch,
        highest batch, f.now⟩ with
    | .error refusal => (f, .error refusal)
    | .ok wakeup => ({ f with wakeups := f.wakeups ++ [wakeup] }, .ok (some wakeup))

theorem publish_cons (first : SequencedEvent) (batch : List SequencedEvent) :
    f.publish sha256 (first :: batch) =
      match f.admit sha256 (scopeKeyHash sha256 first) (first :: batch) with
      | (f, some refusal) => (f, .error refusal)
      | (f, none) => f.announce (scopeKeyHash sha256 first) (first :: batch) := rfl

def ContentFreeWakeup.bounds (wakeup : ContentFreeWakeup) : Int × Int := (wakeup.fromSequence, wakeup.toSequence)

/-- The wake-ups of a feed are kept under their bounds. -/
structure Fed (f : ContentFreeEventFanout) : Prop where
  places : ∀ wakeup ∈ f.wakeups, 0 ≤ wakeup.fromSequence
  bounds : (f.wakeups.map ContentFreeWakeup.bounds).Nodup

/-- What becomes of a batch that was taken. -/
theorem announce_spec (hlength : ∀ text, (sha256 text).length = 64) {first : SequencedEvent}
    (hbatch : ∀ event ∈ batch, event.publishable = true) (hne : batch ≠ []) :
    (∃ wakeup ∈ f.wakeups, wakeup.bounds = (lowest batch, highest batch) ∧
      f.announce (scopeKeyHash sha256 first) batch = (f, .ok (some wakeup))) ∨
    (∀ wakeup ∈ f.wakeups, wakeup.bounds ≠ (lowest batch, highest batch)) ∧
      ((lowest batch < 0 ∧ ∃ refusal, f.announce (scopeKeyHash sha256 first) batch = (f, .error refusal)) ∨
        0 ≤ lowest batch ∧ ∃ wakeup : ContentFreeWakeup, wakeup.scopeKeyHash = scopeKeyHash sha256 first ∧
          wakeup.bounds = (lowest batch, highest batch) ∧
          f.announce (scopeKeyHash sha256 first) batch =
            ({ f with wakeups := f.wakeups ++ [wakeup] }, .ok (some wakeup))) := by
  unfold ContentFreeEventFanout.announce
  cases hfind : f.wakeups.find? (fun wakeup => wakeup.fromSequence == lowest batch &&
      wakeup.toSequence == highest batch) with
  | some wakeup =>
    have hbounds := List.find?_some hfind
    rw [Bool.and_eq_true, beq_iff_eq, beq_iff_eq] at hbounds
    exact .inl ⟨wakeup, List.mem_of_find?_eq_some hfind, Prod.ext hbounds.1 hbounds.2, rfl⟩
  | none =>
    refine .inr ⟨fun wakeup hwakeup heq => ?_, ?_⟩
    · have hnot := List.find?_eq_none.mp hfind wakeup hwakeup
      obtain ⟨hfrom, hto⟩ := Prod.mk.inj heq
      exact hnot (by rw [hfrom, hto, beq_self_eq_true, beq_self_eq_true]; rfl)
    · obtain ⟨⟨event, hevent, heq⟩, hall⟩ := bounds_spec hbatch hne
      have hordered : ¬highest batch < lowest batch := by
        have hbetween := hall event hevent
        omega
      have hstart : beginsWith "sha256:" (scopeKeyHash sha256 first) = true := by
        simp [beginsWith, scopeKeyHash]
      have hsize : (scopeKeyHash sha256 first).length = 71 := by
        rw [scopeKeyHash, String.length_append, hlength]
        rfl
      have hcheck : ContentFreeWakeup.check ⟨f.binding.cellId, f.binding.placementEpoch,
          scopeKeyHash sha256 first, lowest batch, highest batch, f.now⟩ =
            if lowest batch < 0 then .error (.value "wakeup placement or lower bound is invalid")
            else .ok ⟨f.binding.cellId, f.binding.placementEpoch, scopeKeyHash sha256 first, lowest batch,
              highest batch, f.now⟩ := by
        have hepoch : ¬f.binding.placementEpoch < 1 := by have := f.valid.2.1; omega
        simp only [ContentFreeWakeup.check, f.valid.1, hstart, hsize, hepoch, hordered, false_or, if_false,
          ne_eq, not_true_eq_false, Bool.true_eq_false]
      rw [hcheck]
      by_cases hneg : lowest batch < 0
      · exact .inl ⟨hneg, _, by rw [if_pos hneg]⟩
      · exact .inr ⟨by omega, _, rfl, rfl, by rw [if_neg hneg]⟩

/-- What a publication must do: name the batch's own scope, and change nothing where it raises. -/
structure PublishIsolated (sha256 : String → String) (f : ContentFreeEventFanout)
    (batch : List SequencedEvent) : Prop where
  named : ∀ f' wakeup, f.publish sha256 batch = (f', .ok wakeup) → batch ≠ [] →
    ∃ own, wakeup = some own ∧ own ∈ f'.wakeups ∧ ∀ event ∈ batch, own.scopeKeyHash = scopeKeyHash sha256 event
  atomic : ∀ f' refusal, f.publish sha256 batch = (f', .error refusal) →
    f'.events = f.events ∧ f'.wakeups = f.wakeups

/-- A batch that adds nothing before an event that is refused or to a negative place, and
whose bounds no wake-up of another scope has. -/
structure Orderly (sha256 : String → String) (f : ContentFreeEventFanout) (firstScope : String)
    (batch : List SequencedEvent) : Prop where
  refused : ∀ taken bad later, batch = taken ++ bad :: later →
    Taken sha256 f.binding.placementEpoch firstScope f.events taken →
    Refused sha256 f.binding.placementEpoch firstScope (f.events ++ taken) bad →
      ∀ event ∈ taken, Held f.events event
  negative : Taken sha256 f.binding.placementEpoch firstScope f.events batch →
    (∃ event ∈ batch, event.place < 0) → ∀ event ∈ batch, Held f.events event
  unshared : Taken sha256 f.binding.placementEpoch firstScope f.events batch →
    ∀ wakeup ∈ f.wakeups, wakeup.bounds = (lowest batch, highest batch) → wakeup.scopeKeyHash = firstScope

theorem taken_append {taken later : List SequencedEvent} {bad : SequencedEvent}
    (h : Taken sha256 epoch firstScope rows (taken ++ bad :: later)) :
    ¬Refused sha256 epoch firstScope (rows ++ taken) bad := by
  induction taken generalizing rows with
  | nil => exact (List.append_nil rows).symm ▸ h.1
  | cons event taken ih =>
    have hlater := ih h.2
    rwa [List.append_assoc, List.singleton_append] at hlater

/-- How a publication ends. -/
theorem publish_spec (first : SequencedEvent) (batch : List SequencedEvent) :
    (∃ taken bad later added refusal, first :: batch = taken ++ bad :: later ∧
      Taken sha256 f.binding.placementEpoch (scopeKeyHash sha256 first) f.events taken ∧
      Refused sha256 f.binding.placementEpoch (scopeKeyHash sha256 first) (f.events ++ taken) bad ∧
      (added = [] ↔ ∀ event ∈ taken, Held f.events event) ∧
      f.publish sha256 (first :: batch) = ({ f with events := f.events ++ added }, .error refusal)) ∨
    ∃ added, Taken sha256 f.binding.placementEpoch (scopeKeyHash sha256 first) f.events (first :: batch) ∧
      (added = [] ↔ ∀ event ∈ first :: batch, Held f.events event) ∧
      f.publish sha256 (first :: batch) = ContentFreeEventFanout.announce { f with events := f.events ++ added }
        (scopeKeyHash sha256 first) (first :: batch) := by
  obtain ⟨taken, rest, added, h⟩ := @admit_spec sha256 f f.events (scopeKeyHash sha256 first) (fun _ => rfl)
    (first :: batch)
  have hadmit : f.admit sha256 (scopeKeyHash sha256 first) (first :: batch) =
      ({ f with events := f.events ++ added }, ( f.admit sha256 (scopeKeyHash sha256 first) (first :: batch)).2) :=
    Prod.ext h.left rfl
  rcases h.ended with ⟨rfl, hnone⟩ | ⟨bad, later, refusal, rfl, hbad, hsome⟩
  · have hall : first :: batch = taken := h.batch_eq.trans (List.append_nil taken)
    refine .inr ⟨added, hall ▸ h.accepted, hall ▸ h.nothing, ?_⟩
    rw [publish_cons, hadmit, hnone]
  · refine .inl ⟨taken, bad, later, added, refusal, h.batch_eq, h.accepted, hbad, h.nothing, ?_⟩
    rw [publish_cons, hadmit, hsome]

/-- A batch has one first event that is refused. -/
theorem taken_unique {taken taken' later later' : List SequencedEvent} {bad bad' : SequencedEvent}
    (heq : taken ++ bad :: later = taken' ++ bad' :: later')
    (htaken : Taken sha256 epoch firstScope rows taken)
    (hbad : Refused sha256 epoch firstScope (rows ++ taken) bad)
    (htaken' : Taken sha256 epoch firstScope rows taken')
    (hbad' : Refused sha256 epoch firstScope (rows ++ taken') bad') : taken = taken' := by
  rcases List.append_eq_append_iff.mp heq with ⟨more, rfl, hmore⟩ | ⟨more, rfl, hmore⟩
  · cases more with
    | nil => exact (List.append_nil taken).symm
    | cons event more =>
      obtain ⟨rfl, -⟩ := List.cons.inj hmore
      exact absurd hbad (taken_append htaken')
  · cases more with
    | nil => exact List.append_nil taken'
    | cons event more =>
      obtain ⟨rfl, -⟩ := List.cons.inj hmore
      exact absurd hbad' (taken_append htaken)

theorem Fed.same_wakeup (h : Fed f) {a b : ContentFreeWakeup} (ha : a ∈ f.wakeups) (hb : b ∈ f.wakeups)
    (heq : a.bounds = b.bounds) : a = b :=
  List.inj_on_of_nodup_map h.bounds ha hb heq

theorem Orderly.of_taken (htaken : Taken sha256 f.binding.placementEpoch firstScope f.events batch)
    (hplaces : ∀ event ∈ batch, 0 ≤ event.place)
    (hbounds : ∀ wakeup ∈ f.wakeups, wakeup.bounds = (lowest batch, highest batch) →
      wakeup.scopeKeyHash = firstScope) : Orderly sha256 f firstScope batch where
  refused := by
    rintro taken bad later rfl - hbad
    exact absurd hbad (taken_append htaken)
  negative := by
    rintro - ⟨event, hevent, hneg⟩
    exact absurd hneg (not_lt.mpr (hplaces event hevent))
  unshared := fun _ => hbounds

theorem Orderly.of_refused {bad : SequencedEvent}
    (hbad : Refused sha256 f.binding.placementEpoch firstScope f.events bad) :
    Orderly sha256 f firstScope (bad :: batch) where
  refused := by
    intro taken other later heq htaken hother
    have hnone : [] = taken :=
      taken_unique heq trivial ((List.append_nil f.events).symm ▸ hbad) htaken hother
    rw [← hnone]
    exact fun _ hevent => nomatch hevent
  negative := fun htaken => absurd hbad htaken.1
  unshared := fun htaken => absurd hbad htaken.1

/-- A refused batch leaves the feed alone if what was taken of it was there already. -/
theorem refused_isolated_iff {first bad : SequencedEvent} {taken later added : List SequencedEvent}
    {refusal : Refusal} (heq : first :: batch = taken ++ bad :: later)
    (htaken : Taken sha256 f.binding.placementEpoch (scopeKeyHash sha256 first) f.events taken)
    (hbad : Refused sha256 f.binding.placementEpoch (scopeKeyHash sha256 first) (f.events ++ taken) bad)
    (hadded : added = [] ↔ ∀ event ∈ taken, Held f.events event)
    (hpublish : f.publish sha256 (first :: batch) = ({ f with events := f.events ++ added }, .error refusal)) :
    PublishIsolated sha256 f (first :: batch) ↔
      Orderly sha256 f (scopeKeyHash sha256 first) (first :: batch) := by
  have hnot : ¬Taken sha256 f.binding.placementEpoch (scopeKeyHash sha256 first) f.events (first :: batch) :=
    fun hall => taken_append (heq ▸ hall) hbad
  constructor
  · intro hisolated
    obtain ⟨hevents, -⟩ := hisolated.atomic _ _ hpublish
    refine ⟨fun taken' bad' later' heq' htaken' hbad' => ?_, fun hall => absurd hall hnot,
      fun hall => absurd hall hnot⟩
    rw [← taken_unique (heq.symm.trans heq') htaken hbad htaken' hbad']
    exact hadded.mp (List.append_right_eq_self.mp hevents)
  · intro horderly
    refine ⟨fun f' wakeup hok => ?_, fun f' refusal' herror => ?_⟩
    · cases (congrArg Prod.snd hpublish).symm.trans (congrArg Prod.snd hok)
    · obtain ⟨rfl, -⟩ := Prod.mk.inj (hpublish.symm.trans herror)
      have hnone : added = [] := hadded.mpr (horderly.refused _ _ _ heq htaken hbad)
      exact ⟨by simp [hnone], rfl⟩

/-- A taken batch gets a wake-up of its own scope unless the bounds or the places are in the way. -/
theorem taken_isolated_iff (h : Fed f) (hlength : ∀ text, (sha256 text).length = 64) {first : SequencedEvent}
    {added : List SequencedEvent}
    (htaken : Taken sha256 f.binding.placementEpoch (scopeKeyHash sha256 first) f.events (first :: batch))
    (hadded : added = [] ↔ ∀ event ∈ first :: batch, Held f.events event)
    (hpublish : f.publish sha256 (first :: batch) = ContentFreeEventFanout.announce
      { f with events := f.events ++ added } (scopeKeyHash sha256 first) (first :: batch)) :
    PublishIsolated sha256 f (first :: batch) ↔
      Orderly sha256 f (scopeKeyHash sha256 first) (first :: batch) := by
  have hbatch : ∀ event ∈ first :: batch, event.publishable = true := fun event hevent =>
    (taken_mem htaken hevent).1
  obtain ⟨⟨lowestEvent, hlowest, hplace⟩, hbounds⟩ := bounds_spec hbatch (List.cons_ne_nil _ _)
  have hannounce := @announce_spec sha256 { f with events := f.events ++ added } (first :: batch) hlength first
    hbatch (List.cons_ne_nil _ _)
  constructor
  · intro hisolated
    refine ⟨fun taken' bad' later' heq' _ hbad' => absurd hbad' (taken_append (heq' ▸ htaken)), ?_, ?_⟩
    · rintro - ⟨event, hevent, hneg⟩
      have hlow : lowest (first :: batch) < 0 := lt_of_le_of_lt (hbounds event hevent).1 hneg
      rcases hannounce with ⟨wakeup, hwakeup, heq, -⟩ | ⟨-, ⟨-, refusal, herror⟩ | ⟨hnonneg, -⟩⟩
      · have hfrom : wakeup.fromSequence = lowest (first :: batch) := congrArg Prod.fst heq
        have hplaces := h.places wakeup hwakeup
        omega
      · obtain ⟨hevents, -⟩ := hisolated.atomic _ _ (hpublish.trans herror)
        exact hadded.mp (List.append_right_eq_self.mp hevents)
      · omega
    · intro _ wakeup hwakeup heq
      rcases hannounce with ⟨other, hother, hsame, hok⟩ | ⟨hnone, -⟩
      · obtain ⟨own, hown, -, hnamed⟩ := hisolated.named _ _ (hpublish.trans hok) (List.cons_ne_nil _ _)
        obtain rfl := Option.some.inj hown
        rw [h.same_wakeup hwakeup hother (heq.trans hsame.symm)]
        exact hnamed first List.mem_cons_self
      · exact absurd heq (hnone wakeup hwakeup)
  · intro horderly
    refine ⟨fun f' wakeup hok _ => ?_, fun f' refusal herror => ?_⟩
    · have hnames : ∀ own : ContentFreeWakeup, own.scopeKeyHash = scopeKeyHash sha256 first →
          ∀ event ∈ first :: batch, own.scopeKeyHash = scopeKeyHash sha256 event := fun own hown event hevent =>
        hown.trans (taken_mem htaken hevent).2.symm
      rcases hannounce with ⟨other, hother, hsame, hfound⟩ | ⟨-, ⟨-, refusal, herror⟩ | ⟨-, own, hown, -, hmade⟩⟩
      · obtain ⟨rfl, hwakeup⟩ := Prod.mk.inj ((hpublish.trans hfound).symm.trans hok)
        exact ⟨other, (Except.ok.inj hwakeup).symm, hother,
          hnames other (horderly.unshared htaken other hother hsame)⟩
      · cases (congrArg Prod.snd (hpublish.trans herror)).symm.trans (congrArg Prod.snd hok)
      · obtain ⟨rfl, hwakeup⟩ := Prod.mk.inj ((hpublish.trans hmade).symm.trans hok)
        exact ⟨own, (Except.ok.inj hwakeup).symm, List.mem_append_right _ (List.mem_singleton_self own),
          hnames own hown⟩
    · rcases hannounce with ⟨other, -, -, hfound⟩ | ⟨-, ⟨hneg, refusal, hraised⟩ | ⟨-, own, -, -, hmade⟩⟩
      · cases (congrArg Prod.snd (hpublish.trans hfound)).symm.trans (congrArg Prod.snd herror)
      · obtain ⟨rfl, -⟩ := Prod.mk.inj ((hpublish.trans hraised).symm.trans herror)
        have hnone : added = [] := hadded.mpr (horderly.negative htaken ⟨lowestEvent, hlowest, by omega⟩)
        exact ⟨by simp [hnone], rfl⟩
      · cases (congrArg Prod.snd (hpublish.trans hmade)).symm.trans (congrArg Prod.snd herror)

/-- A publication keeps scopes apart and is atomic exactly if its batch is orderly. -/
theorem publish_isolated_iff (h : Fed f) (hlength : ∀ text, (sha256 text).length = 64) (first : SequencedEvent)
    (batch : List SequencedEvent) : PublishIsolated sha256 f (first :: batch) ↔
      Orderly sha256 f (scopeKeyHash sha256 first) (first :: batch) := by
  rcases @publish_spec sha256 f first batch with
    ⟨taken, bad, later, added, refusal, heq, htaken, hbad, hadded, hpublish⟩ | ⟨added, htaken, hadded, hpublish⟩
  · exact refused_isolated_iff heq htaken hbad hadded hpublish
  · exact taken_isolated_iff h hlength htaken hadded hpublish

theorem Fed.publish (h : Fed f) (hlength : ∀ text, (sha256 text).length = 64) (batch : List SequencedEvent) :
    Fed (f.publish sha256 batch).1 := by
  cases batch with
  | nil => exact h
  | cons first batch =>
    rcases @publish_spec sha256 f first batch with
      ⟨_, _, _, added, _, -, -, -, -, hpublish⟩ | ⟨added, htaken, -, hpublish⟩
    · rw [hpublish]
      exact ⟨h.places, h.bounds⟩
    · have hannounce := @announce_spec sha256 { f with events := f.events ++ added } (first :: batch) hlength first
        (fun event hevent => (taken_mem htaken hevent).1) (List.cons_ne_nil _ _)
      rcases hannounce with ⟨_, -, -, hfound⟩ | ⟨hnone, ⟨-, _, hraised⟩ | ⟨hlow, own, -, hbounds, hmade⟩⟩
      · rw [hpublish, hfound]
        exact ⟨h.places, h.bounds⟩
      · rw [hpublish, hraised]
        exact ⟨h.places, h.bounds⟩
      · rw [hpublish, hmade]
        refine ⟨fun wakeup hwakeup => ?_, ?_⟩
        · rcases List.mem_append.mp hwakeup with hold | hnew
          · exact h.places wakeup hold
          · obtain rfl := List.mem_singleton.mp hnew
            rwa [show wakeup.fromSequence = lowest (first :: batch) from congrArg Prod.fst hbounds]
        · rw [List.map_append, List.nodup_append]
          refine ⟨h.bounds, List.nodup_singleton _, ?_⟩
          rintro _ hold _ hnew rfl
          obtain ⟨wakeup, hwakeup, heq⟩ := List.mem_map.mp hold
          exact hnone wakeup hwakeup (heq.trans ((List.mem_singleton.mp hnew).trans hbounds))

/-- Reads of a scope's cursor that show and meet events of that scope alone, whatever their limit. -/
structure ReadIsolated (f : ContentFreeEventFanout) (scope : Scope) (cursor : EventCursor)
    (current : Binding) : Prop where
  page : ∀ limit page, f.read cursor limit current = .ok page → ∀ event ∈ page.events, event.scope = scope
  overflow : ∀ limit page, f.read cursor limit current = .ok page → page.overflow = true →
    f.bufferCeiling < ((f.candidates cursor).filter (fun event => event.scope = scope)).length
  blocked : ∀ limit text, f.read cursor limit current = .error (.poisonBlocked text) →
    ∃ event ∈ f.events, event.scope = scope ∧ event.poisons cursor = true

/-- No event of another scope lies where the cursor goes on, unless the scope's own events
stop it already. -/
def Undisturbed (f : ContentFreeEventFanout) (scope : Scope) (cursor : EventCursor) (current : Binding) : Prop :=
  f.validateCursor cursor current = none →
    (∃ event ∈ f.events, event.scope = scope ∧ event.poisons cursor = true) ∨
    (∀ event ∈ f.events, event.scope ≠ scope → event.poisons cursor = false) ∧
      (f.bufferCeiling < ((f.candidates cursor).filter (fun event => event.scope = scope)).length ∨
        ∀ event ∈ f.events, event.scope ≠ scope → ¬(event.state = .sequenced ∧ event.behind cursor = true))

/-- A read of a positive limit with a cursor that is not stale. -/
theorem read_valid {cursor : EventCursor} {current : Binding} {limit : Int}
    (hvalid : f.validateCursor cursor current = none) (hlimit : 1 ≤ limit) :
    (f.events.any (SequencedEvent.poisons cursor) = true ∧
      f.read cursor limit current = .error (.poisonBlocked "quarantined event blocks cursor advancement")) ∨
    f.events.any (SequencedEvent.poisons cursor) = false ∧
      ((f.bufferCeiling < (f.candidates cursor).length ∧
          ∃ page, f.read cursor limit current = .ok page ∧ page.events = [] ∧ page.overflow = true) ∨
        (f.candidates cursor).length ≤ f.bufferCeiling ∧
          ∃ page, f.read cursor limit current = .ok page ∧
            page.events = (f.candidates cursor).take limit.toNat ∧ page.overflow = false) := by
  unfold ContentFreeEventFanout.read
  rw [if_neg (by omega), hvalid]
  cases hpoison : f.events.any (SequencedEvent.poisons cursor) with
  | true => exact .inl ⟨rfl, rfl⟩
  | false =>
    refine .inr ⟨rfl, ?_⟩
    simp only [Bool.false_eq_true, if_false]
    by_cases hmany : f.bufferCeiling < (f.candidates cursor).length
    · exact .inl ⟨hmany, _, if_pos hmany, rfl, rfl⟩
    · exact .inr ⟨by omega, _, if_neg hmany, rfl, rfl⟩

theorem read_invalid {cursor : EventCursor} {current : Binding} {limit : Int}
    (h : ¬(1 ≤ limit ∧ f.validateCursor cursor current = none)) :
    ∃ refusal, f.read cursor limit current = .error refusal ∧ ∀ text, refusal ≠ .poisonBlocked text := by
  unfold ContentFreeEventFanout.read
  by_cases hlimit : limit < 1
  · exact ⟨_, if_pos hlimit, fun text heq => nomatch heq⟩
  · rw [if_neg hlimit]
    obtain ⟨refusal, hrefusal⟩ := Option.ne_none_iff_exists'.mp (fun hvalid => h ⟨by omega, hvalid⟩)
    rw [hrefusal]
    refine ⟨refusal, rfl, ?_⟩
    rintro text rfl
    unfold ContentFreeEventFanout.validateCursor at hrefusal
    split_ifs at hrefusal
    all_goals cases hrefusal

/-- Reads keep scopes apart exactly if nothing of another scope is in their way. -/
theorem read_isolated_iff (scope : Scope) (cursor : EventCursor) (current : Binding) :
    ReadIsolated f scope cursor current ↔ Undisturbed f scope cursor current := by
  constructor
  · intro hisolated hvalid
    by_cases hown : ∃ event ∈ f.events, event.scope = scope ∧ event.poisons cursor = true
    · exact .inl hown
    have hclear : f.events.any (SequencedEvent.poisons cursor) = false := by
      rcases read_valid hvalid (le_refl 1) with ⟨-, herror⟩ | ⟨hclear, -⟩
      · exact absurd (hisolated.blocked _ _ herror) hown
      · exact hclear
    refine .inr ⟨fun event hevent _ => by simpa using List.any_eq_false.mp hclear event hevent, ?_⟩
    -- A limit that takes everything shows everything.
    have hlimit : (1 : Int) ≤ ((f.candidates cursor).length : Int) + 1 := by omega
    rcases read_valid hvalid hlimit with ⟨hpoison, -⟩ | ⟨-, ⟨-, page, hok, -, hover⟩ | ⟨-, page, hok, hpage, -⟩⟩
    · rw [hclear] at hpoison
      cases hpoison
    · exact .inl (hisolated.overflow _ page hok hover)
    · refine .inr (fun event hevent hscope hbehind => hscope ?_)
      refine hisolated.page _ page hok event ?_
      rw [hpage, List.take_of_length_le (by omega)]
      exact mem_candidates.mpr ⟨hevent, hbehind.1, hbehind.2⟩
  · intro hundisturbed
    have hoks : ∀ limit page, f.read cursor limit current = .ok page →
        1 ≤ limit ∧ f.validateCursor cursor current = none := by
      intro limit page hok
      by_contra hnot
      obtain ⟨refusal, hread, -⟩ := read_invalid hnot
      cases hread.symm.trans hok
    have hpoisons : (∃ event ∈ f.events, event.scope = scope ∧ event.poisons cursor = true) →
        f.events.any (SequencedEvent.poisons cursor) = true := by
      rintro ⟨event, hevent, -, hpoison⟩
      exact List.any_eq_true.mpr ⟨event, hevent, hpoison⟩
    refine ⟨fun limit page hok => ?_, fun limit page hok hover => ?_, fun limit text herror => ?_⟩
    · obtain ⟨hlimit, hvalid⟩ := hoks limit page hok
      rcases read_valid hvalid hlimit with ⟨-, hraised⟩ | ⟨hclear, ⟨-, _, hread, hpage, -⟩ | ⟨hfew, _, hread, hpage, -⟩⟩
      · cases hraised.symm.trans hok
      · obtain rfl := Except.ok.inj (hread.symm.trans hok)
        rw [hpage]
        exact fun event hevent => nomatch hevent
      · obtain rfl := Except.ok.inj (hread.symm.trans hok)
        rcases hundisturbed hvalid with hown | ⟨-, hmany | hnone⟩
        · cases (hpoisons hown).symm.trans hclear
        · have hless := List.length_filter_le (fun event : SequencedEvent => decide (event.scope = scope))
            (f.candidates cursor)
          omega
        · rw [hpage]
          intro event hevent
          obtain ⟨hmem, hstate, hbehind⟩ := mem_candidates.mp (List.mem_of_mem_take hevent)
          exact by_contra fun hscope => hnone event hmem hscope ⟨hstate, hbehind⟩
    · obtain ⟨hlimit, hvalid⟩ := hoks limit page hok
      rcases read_valid hvalid hlimit with ⟨-, hraised⟩ | ⟨hclear, ⟨hmany, _, -⟩ | ⟨-, _, hread, -, hnot⟩⟩
      · cases hraised.symm.trans hok
      · rcases hundisturbed hvalid with hown | ⟨-, hown | hnone⟩
        · cases (hpoisons hown).symm.trans hclear
        · exact hown
        · rw [List.filter_eq_self.mpr]
          · exact hmany
          · intro event hevent
            obtain ⟨hmem, hstate, hbehind⟩ := mem_candidates.mp hevent
            exact decide_eq_true (by_contra fun hscope => hnone event hmem hscope ⟨hstate, hbehind⟩)
      · obtain rfl := Except.ok.inj (hread.symm.trans hok)
        cases hnot.symm.trans hover
    · by_cases hvalid : 1 ≤ limit ∧ f.validateCursor cursor current = none
      · rcases hundisturbed hvalid.2 with hown | ⟨hnone, -⟩
        · exact hown
        · rcases read_valid hvalid.2 hvalid.1 with ⟨hpoison, -⟩ | ⟨-, ⟨-, _, hread, -⟩ | ⟨-, _, hread, -⟩⟩
          · obtain ⟨event, hevent, hpoison⟩ := List.any_eq_true.mp hpoison
            refine ⟨event, hevent, by_contra fun hscope => ?_, hpoison⟩
            cases (hnone event hevent hscope).symm.trans hpoison
          · cases hread.symm.trans herror
          · cases hread.symm.trans herror
      · obtain ⟨refusal, hread, hne⟩ := read_invalid hvalid
        exact absurd (Except.error.inj (hread.symm.trans herror)) (hne text)

/-- A call on a fan-out: a publication, or reads of a scope's cursor. -/
inductive FeedCall where
  | publish (batch : List SequencedEvent)
  | read (scope : Scope) (cursor : EventCursor) (current : Binding)

def FeedCall.events : FeedCall → List SequencedEvent
  | .publish batch => batch
  | .read _ _ _ => []

/-- The fan-out after a call. -/
def FeedCall.next (sha256 : String → String) (f : ContentFreeEventFanout) : FeedCall → ContentFreeEventFanout
  | .publish batch => (f.publish sha256 batch).1
  | .read _ _ _ => f

/-- The calls of a run, each with the fan-out it finds. -/
def visits (sha256 : String → String) (f : ContentFreeEventFanout) :
    List FeedCall → List (ContentFreeEventFanout × FeedCall)
  | [] => []
  | call :: calls => (f, call) :: visits sha256 (call.next sha256 f) calls

def FeedCall.Isolated (sha256 : String → String) (f : ContentFreeEventFanout) : FeedCall → Prop
  | .publish batch => PublishIsolated sha256 f batch
  | .read scope cursor current => ReadIsolated f scope cursor current

/-- What a call has to meet to keep scopes apart. -/
def FeedCall.Meets (sha256 : String → String) (f : ContentFreeEventFanout) : FeedCall → Prop
  | .publish [] => True
  | .publish (first :: batch) => Orderly sha256 f (scopeKeyHash sha256 first) (first :: batch)
  | .read scope cursor current => Undisturbed f scope cursor current

/-- What keeps the scopes of a run apart. -/
structure RunIsolated (sha256 : String → String) (f : ContentFreeEventFanout) (calls : List FeedCall) : Prop where
  steps : ∀ visit ∈ visits sha256 f calls, visit.2.Isolated sha256 visit.1
  hashes : ∀ a ∈ calls.flatMap FeedCall.events, ∀ b ∈ calls.flatMap FeedCall.events, a.scope ≠ b.scope →
    scopeKeyHash sha256 a ≠ scopeKeyHash sha256 b
  unshared : ∀ g batch g' batch' wakeup, (g, FeedCall.publish batch) ∈ visits sha256 f calls →
    (g', FeedCall.publish batch') ∈ visits sha256 f calls →
    (g.publish sha256 batch).2 = .ok (some wakeup) → (g'.publish sha256 batch').2 = .ok (some wakeup) →
      ∀ a ∈ batch, ∀ b ∈ batch', a.scope = b.scope

theorem visits_fed (h : Fed f) (hlength : ∀ text, (sha256 text).length = 64) (calls : List FeedCall)
    {visit : ContentFreeEventFanout × FeedCall} (hvisit : visit ∈ visits sha256 f calls) : Fed visit.1 := by
  induction calls generalizing f with
  | nil => cases hvisit
  | cons call calls ih =>
    rcases List.mem_cons.mp hvisit with rfl | hlater
    · exact h
    · refine ih ?_ hlater
      cases call with
      | publish batch => exact h.publish hlength batch
      | read scope cursor current => exact h

theorem visits_call {calls : List FeedCall} {visit : ContentFreeEventFanout × FeedCall}
    (hvisit : visit ∈ visits sha256 f calls) : visit.2 ∈ calls := by
  induction calls generalizing f with
  | nil => cases hvisit
  | cons call calls ih =>
    rcases List.mem_cons.mp hvisit with rfl | hlater
    · exact List.mem_cons_self
    · exact List.mem_cons_of_mem _ (ih hlater)

theorem FeedCall.isolated_iff (h : Fed f) (hlength : ∀ text, (sha256 text).length = 64) (call : FeedCall) :
    call.Isolated sha256 f ↔ call.Meets sha256 f := by
  match call with
  | .publish [] =>
    refine iff_of_true ⟨fun f' wakeup _ hne => absurd rfl hne, fun f' refusal herror => ?_⟩ trivial
    cases congrArg Prod.snd herror
  | .publish (first :: batch) => exact publish_isolated_iff h hlength first batch
  | .read scope cursor current => exact read_isolated_iff scope cursor current

section Example

/-- The digests of the scopes that there are here. -/
def scopeDigests (text : String) : String :=
  if text = "org_demo|prj_demo|env_demo" then "c1dc299aacc702a257cbb0cec7cfeed721319e937a42ad5b34a4d71bef415a33"
  else if text = "org_demo|prj_demo|env_live" then
    "c3dff516d1b26c855346fd5bc0911f6d19423834300641f51934615ad29f4264"
  else "10044a76fdd6397946560c5ab47670306d1271592ff4642c60bc5a5d0566ad1e"

theorem scopeDigests_length (text : String) : (scopeDigests text).length = 64 := by
  unfold scopeDigests
  split_ifs <;> rfl

def demoScope : Scope := ⟨"org_demo", "prj_demo", "env_demo"⟩

/-- An event of another environment. -/
def liveEvent (place : Int) : SequencedEvent :=
  { placedEvent "evt_live" "ref_event_live" "sha256:live" place with environmentId := "env_live" }

def staleEvent : SequencedEvent := { placedEvent "evt_stale" "ref_event_stale" "sha256:stale" 4 with placementEpoch := 2 }

def demoFanout : ContentFreeEventFanout :=
  .new demoBinding 100 0 demoBinding_valid hundred_positive

def demoCursor (place : Int) (h : 0 ≤ place) : EventCursor :=
  ⟨demoBinding, place, demoBinding_valid, h⟩

theorem first_place : (0 : Int) ≤ 0 := Int.le_refl 0

theorem later_place : (0 : Int) ≤ 2 := by decide

/-- Two scopes, each read up to the events of the other. -/
def apartCalls : List FeedCall :=
  [.publish [firstEvent, secondEvent], .read demoScope (demoCursor 0 first_place) demoBinding,
    .publish [liveEvent 3], .read (liveEvent 3).scope (demoCursor 2 later_place) demoBinding,
    .publish [staleEvent, firstEvent]]

/-- Two scopes whose events have the same place. -/
def sharedCalls : List FeedCall := [.publish [firstEvent], .publish [liveEvent 1]]

/-- An event before one that is refused. -/
def halfCalls : List FeedCall := [.publish [firstEvent, staleEvent]]

/-- A quarantined event of another scope. -/
def poisonCalls : List FeedCall :=
  [.publish [{ liveEvent 1 with state := .quarantined }], .read demoScope (demoCursor 0 first_place) demoBinding]

/-- Two scopes that a bar in a field makes one. -/
def barredCalls : List FeedCall :=
  [.publish [{ firstEvent with organizationId := "org|demo", projectId := "prj_demo" }],
    .publish [{ secondEvent with organizationId := "org", projectId := "demo|prj_demo" }]]

end Example

end Solvan.Scale
