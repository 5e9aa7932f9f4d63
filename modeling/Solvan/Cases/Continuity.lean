import Solvan.Cases.Machine

namespace Solvan.Cases
open Claims
open Queues (Queue)
open Workflow (LeaseHandle)

/-- The wakeups of one case in the order they were scheduled. -/
def wakeupsOf (caseId : String) (rows : List Wakeup) : List Wakeup :=
  rows.filter (fun w => w.caseId == caseId)

/-- Every wakeup of the case but the last is completed; the last is not. -/
def Chained (caseId : String) (rows : List Wakeup) : Prop :=
  ∃ older last, wakeupsOf caseId rows = older ++ [last] ∧
    (∀ w ∈ older, w.status = .completed) ∧ last.status ≠ .completed

variable {s s' : CaseStore} {rows : List Wakeup} {w next : Wakeup} {p : Wakeup → Bool}
  {f : Wakeup → Wakeup} {caseId : String}

theorem mem_wakeupsOf : w ∈ wakeupsOf caseId rows ↔ w ∈ rows ∧ w.caseId = caseId := by
  simp [wakeupsOf]

theorem wakeupsOf_append : wakeupsOf caseId (rows ++ [next]) =
    wakeupsOf caseId rows ++ wakeupsOf caseId [next] := List.filter_append ..

theorem wakeupsOf_map (kept : ∀ w ∈ rows, (f w).caseId = w.caseId) :
    wakeupsOf caseId (rows.map f) = (wakeupsOf caseId rows).map f := by
  simp only [wakeupsOf, List.filter_map]
  congr 1
  apply List.filter_congr
  intro w hw
  simp [kept w hw]

/-- A change in place that neither reopens nor completes anything. -/
theorem Chained.map (h : Chained caseId rows) (kept : ∀ w ∈ rows, (f w).caseId = w.caseId)
    (done : ∀ w ∈ rows, w.status = .completed → f w = w)
    (open_ : ∀ w ∈ rows, w.status ≠ .completed → (f w).status ≠ .completed) :
    Chained caseId (rows.map f) := by
  obtain ⟨older, last, hsplit, hdone, hlast⟩ := h
  have hin : ∀ w ∈ older ++ [last], w ∈ rows := fun w hw => (mem_wakeupsOf.mp (hsplit ▸ hw)).1
  refine ⟨older, f last, ?_, hdone, open_ last (hin last (by simp)) hlast⟩
  rw [wakeupsOf_map kept, hsplit, List.map_append, List.map_singleton]
  congr 1
  conv_rhs => rw [← List.map_id older]
  apply List.map_congr_left
  intro w hw
  exact done w (hin w (by simp [hw])) (hdone w hw)

/-- The wakeup of a chained case that is not completed is its last. -/
theorem Chained.last_of_open (h : Chained caseId rows) (hw : w ∈ wakeupsOf caseId rows)
    (open_ : w.status ≠ .completed) :
    ∃ older, wakeupsOf caseId rows = older ++ [w] ∧ ∀ w ∈ older, w.status = .completed := by
  obtain ⟨older, last, hsplit, hdone, -⟩ := h
  rw [hsplit] at hw
  rcases List.mem_append.mp hw with hw | hw
  · exact absurd (hdone w hw) open_
  · rw [List.mem_singleton.mp hw]
    exact ⟨older, hsplit, hdone⟩

theorem Chained.schedule (settled : ∀ w ∈ wakeupsOf caseId rows, w.status = .completed)
    (hc : next.caseId = caseId) (open_ : next.status ≠ .completed) :
    Chained caseId (rows ++ [next]) := by
  refine ⟨wakeupsOf caseId rows, next, ?_, settled, open_⟩
  simp [wakeupsOf, hc]

theorem Chained.schedule_other (h : Chained caseId rows) (hc : next.caseId ≠ caseId) :
    Chained caseId (rows ++ [next]) := by
  obtain ⟨older, last, hsplit, hrest⟩ := h
  refine ⟨older, last, ?_, hrest⟩
  rw [wakeupsOf_append, hsplit]
  simp [wakeupsOf, hc]

/-- What one transaction does to the cases and their wakeups. `Completable` says
which wakeup it may complete. -/
inductive BoardStep (Completable : Wakeup → Prop) (ids : List String) (rows : List Wakeup) :
    List String → List Wakeup → Prop where
  | touch (f : Wakeup → Wakeup)
      (kept : ∀ w ∈ rows, (f w).id = w.id ∧ (f w).caseId = w.caseId)
      (done : ∀ w ∈ rows, w.status = .completed → f w = w)
      (open_ : ∀ w ∈ rows, w.status ≠ .completed → (f w).status ≠ .completed) :
      BoardStep Completable ids rows ids (rows.map f)
  | openCase (next : Wakeup) (free : next.status = .pending) (new : ∀ w ∈ rows, w.id ≠ next.id)
      (fresh : next.caseId ∉ ids) :
      BoardStep Completable ids rows (ids ++ [next.caseId]) (rows ++ [next])
  | replace (p : Wakeup → Bool) (w next : Wakeup) (hw : w ∈ rows)
      (hits : ∀ r ∈ rows, p r = true ↔ r = w) (open_ : w.status ≠ .completed)
      (completable : Completable w) (free : next.status = .pending) (new : ∀ w ∈ rows, w.id ≠ next.id)
      (hc : next.caseId = w.caseId) :
      BoardStep Completable ids rows ids
        (Table.update p (fun w => { w with status := .completed }) rows ++ [next])

/-- Every wakeup belongs to a case, and every case has a chain of them. -/
structure Board (ids : List String) (rows : List Wakeup) : Prop where
  owned : ∀ w ∈ rows, w.caseId ∈ ids
  chained : ∀ id ∈ ids, Chained id rows

variable {Completable : Wakeup → Prop} {ids ids' : List String} {rows' : List Wakeup}

theorem BoardStep.kept (h : BoardStep Completable ids rows ids' rows') (hw : w ∈ rows) :
    ∃ w' ∈ rows', w'.id = w.id ∧ w'.caseId = w.caseId := by
  cases h with
  | touch f kept done open_ => exact ⟨f w, List.mem_map_of_mem hw, kept w hw⟩
  | openCase next free new fresh => exact ⟨w, List.mem_append_left _ hw, rfl, rfl⟩
  | replace p done next hd hits open_ completable free new hc =>
    cases hp : p w with
    | true => exact ⟨_, List.mem_append_left _ (Table.mem_update_of_hit hw hp), rfl, rfl⟩
    | false => exact ⟨w, List.mem_append_left _ (Table.mem_update_of_miss hw hp), rfl, rfl⟩

theorem BoardStep.owned (h : BoardStep Completable ids rows ids' rows') (hb : Board ids rows)
    (hw : w ∈ rows') : w.caseId ∈ ids' := by
  cases h with
  | touch f kept done open_ =>
    obtain ⟨r, hr, rfl⟩ := List.mem_map.mp hw
    rw [(kept r hr).2]
    exact hb.owned r hr
  | openCase next free new fresh =>
    rcases List.mem_append.mp hw with hw | hw
    · exact List.mem_append_left _ (hb.owned w hw)
    · rw [List.mem_singleton.mp hw]
      simp
  | replace p done next hd hits open_ completable free new hc =>
    rcases List.mem_append.mp hw with hw | hw
    · rcases Table.update_cases hw with ⟨r, hr, -, rfl⟩ | ⟨hr, -⟩
      · exact hb.owned r hr
      · exact hb.owned w hr
    · rw [List.mem_singleton.mp hw, hc]
      exact hb.owned done hd

/-- Completing the open wakeup of a chained case settles all it has. -/
theorem Chained.settled (h : Chained w.caseId rows) (hw : w ∈ rows) (open_ : w.status ≠ .completed)
    (hit : p w = true) :
    ∀ r ∈ wakeupsOf w.caseId (Table.update p (fun w => { w with status := .completed }) rows),
      r.status = .completed := by
  intro r hr
  obtain ⟨hr, hc⟩ := mem_wakeupsOf.mp hr
  obtain ⟨older, hsplit, hdone⟩ := h.last_of_open (mem_wakeupsOf.mpr ⟨hw, rfl⟩) open_
  rcases Table.update_cases hr with ⟨_, -, -, rfl⟩ | ⟨hr, hp⟩
  · rfl
  · have hin : r ∈ older ++ [w] := hsplit ▸ mem_wakeupsOf.mpr ⟨hr, hc⟩
    rcases List.mem_append.mp hin with hin | hin
    · exact hdone r hin
    · rw [List.mem_singleton.mp hin, hit] at hp
      cases hp

theorem wakeupsOf_other (miss : ∀ w ∈ rows, p w = true → w.caseId ≠ caseId) :
    wakeupsOf caseId (Table.update p (fun w => { w with status := .completed }) rows) =
      wakeupsOf caseId rows := by
  have hf : wakeupsOf caseId (Table.update p (fun w => { w with status := .completed }) rows) =
      Table.update p (fun w => { w with status := .completed }) (wakeupsOf caseId rows) :=
    Table.filter_update (fun _ _ _ => rfl)
  rw [hf, Table.update_of_no_hit]
  intro w hw
  obtain ⟨hw, hc⟩ := mem_wakeupsOf.mp hw
  cases hp : p w with
  | false => rfl
  | true => exact absurd hc (miss w hw hp)

theorem BoardStep.board (h : BoardStep Completable ids rows ids' rows') (hb : Board ids rows) :
    Board ids' rows' := by
  refine ⟨fun w hw => h.owned hb hw, ?_⟩
  intro id hid
  cases h with
  | touch f kept done open_ =>
    exact (hb.chained id hid).map (fun w hw => (kept w hw).2) done open_
  | openCase next free new fresh =>
    rcases List.mem_append.mp hid with hid | hid
    · exact (hb.chained id hid).schedule_other (fun he => fresh (he ▸ hid))
    · rw [List.mem_singleton.mp hid]
      refine .schedule ?_ rfl (by simp [free])
      intro w hw
      obtain ⟨hw, hc⟩ := mem_wakeupsOf.mp hw
      exact absurd (hc ▸ hb.owned w hw) fresh
  | replace p done next hd hits open_ completable free new hc =>
    by_cases he : id = done.caseId
    · subst he
      exact .schedule ((hb.chained _ hid).settled hd open_ ((hits done hd).mpr rfl)) hc
        (by simp [free])
    · refine Chained.schedule_other ?_ (fun hn => he (hn ▸ hc))
      obtain ⟨older, last, hsplit, hrest⟩ := hb.chained id hid
      refine ⟨older, last, ?_, hrest⟩
      rw [wakeupsOf_other, hsplit]
      intro w hw hp hid
      exact he (hid.symm.trans (congrArg _ ((hits w hw).mp hp)))

/-- Only a wakeup the transaction may complete becomes completed. -/
theorem BoardStep.completes (h : BoardStep Completable ids rows ids' rows')
    (hu : Table.Unique Wakeup.id rows) (hw : w ∈ rows) (open_ : w.status ≠ .completed)
    {w' : Wakeup} (hw' : w' ∈ rows') (hid : w'.id = w.id) (done : w'.status = .completed) :
    Completable w := by
  have same : ∀ r ∈ rows, r.id = w.id → r = w := fun r hr he => hu.eq_of_key hr hw he
  cases h with
  | touch f kept _ left =>
    obtain ⟨r, hr, rfl⟩ := List.mem_map.mp hw'
    have he : r = w := same r hr ((kept r hr).1.symm.trans hid)
    exact absurd done (left r hr (he ▸ open_))
  | openCase next free new fresh =>
    rcases List.mem_append.mp hw' with hr | hr
    · exact absurd (same w' hr hid ▸ done) open_
    · rw [List.mem_singleton.mp hr, free] at done
      cases done
  | replace p finished next hd hits _ completable free new hc =>
    rcases List.mem_append.mp hw' with hr | hr
    · rcases Table.update_cases hr with ⟨r, hm, hp, rfl⟩ | ⟨hr, -⟩
      · have he : r = w := same r hm hid
        rw [← he, (hits r hm).mp hp]
        exact completable
      · exact absurd (same w' hr hid ▸ done) open_
    · rw [List.mem_singleton.mp hr, free] at done
      cases done

theorem BoardStep.keeps_completed (h : BoardStep Completable ids rows ids' rows') (hw : w ∈ rows)
    (done : w.status = .completed) : w ∈ rows' := by
  cases h with
  | touch f kept still open_ => exact still w hw done ▸ List.mem_map_of_mem hw
  | openCase next free new fresh => exact List.mem_append_left _ hw
  | replace p finished next hd hits open_ completable free new hc =>
    refine List.mem_append_left _ (Table.mem_update_of_miss hw ?_)
    cases hp : p w with
    | false => rfl
    | true => exact absurd ((hits w hw).mp hp ▸ done) open_

theorem BoardStep.same : BoardStep Completable ids rows ids rows := by
  have h : BoardStep Completable ids rows ids (rows.map id) :=
    .touch id (fun _ _ => ⟨rfl, rfl⟩) (fun _ _ _ => rfl) (fun _ _ open_ => open_)
  rwa [List.map_id] at h

/-- Who may complete a wakeup: the holder of a live claim on it, or the holder
of its case's lease while nobody holds one. -/
def CaseMove.MayComplete (s : CaseStore) : CaseMove → Wakeup → Prop
  | .defer owner claim .., w | .advance owner claim .., w =>
    claim ∈ s.claims ∧ claim.wakeupId = w.id ∧
      ∃ held, w.status = .claimed held ∧ held.LiveFor s.now owner claim.claimToken
  | .advanceUnclaimed lease .., w =>
    (∃ c ∈ s.cases, c.id = w.caseId ∧ c.leasedTo s.now lease = true) ∧
      w.item.phase.Available s.now
  | _, _ => False

structure Continuous (s : CaseStore) : Prop where
  booked : s.wakeups.Booked wakeupClaimAttemptBudget Wakeup.id Wakeup.item
  claims : ∀ claim ∈ s.claims, ∃ w ∈ s.wakeups.rows, w.id = claim.wakeupId ∧
    w.caseId = claim.caseId
  board : Board (s.cases.map CaseRow.id) s.wakeups.rows

/-- A claim names the case of its wakeup. -/
theorem Continuous.case_of_claim {claim : ClaimedWakeup} (hs : Continuous s)
    (hclaim : claim ∈ s.claims) (hw : w ∈ s.wakeups.rows) (hid : w.id = claim.wakeupId) :
    w.caseId = claim.caseId := by
  obtain ⟨w', hw', hid', hc⟩ := hs.claims claim hclaim
  rw [hs.booked.unique.eq_of_key hw hw' (hid.trans hid'.symm)]
  exact hc

/-- A step that completes one wakeup and changes nothing else about any. -/
structure Completes (s : CaseStore) (w : Wakeup) (s' : CaseStore) : Prop where
  change : WakeupChange Mild s.wakeups s'.wakeups
  mem : w ∈ s.wakeups.rows
  open_ : w.status ≠ .completed
  rows : ∃ p, (∀ r ∈ s.wakeups.rows, p r = true ↔ r = w) ∧
    s'.wakeups.rows = Table.update p (fun w => { w with status := .completed }) s.wakeups.rows
  cases : s'.cases = s.cases
  claims : s'.claims = s.claims
  incidents : s'.incidents = s.incidents

/-- A step that schedules one wakeup. -/
structure Schedules (s : CaseStore) (next : Wakeup) (s' : CaseStore) : Prop where
  change : WakeupChange Mild s.wakeups s'.wakeups
  rows : s'.wakeups.rows = s.wakeups.rows ++ [next]
  free : next.status = .pending
  new : ∀ w ∈ s.wakeups.rows, w.id ≠ next.id
  ids : s'.cases.map CaseRow.id = s.cases.map CaseRow.id
  claims : s'.claims = s.claims

variable {mid : CaseStore} {owner : String} {claim : ClaimedWakeup} {lease : LeaseHandle}

theorem Completes.of_complete {wakeups' : Queue Wakeup WakeupOutcome}
    {event : Wakeup → Event String Token WakeupOutcome} (id : String)
    (hu : Table.Unique Wakeup.id s.wakeups.rows)
    (h : s.wakeups.complete Wakeup.id p (fun w => { w with status := .completed }) event =
      some wakeups')
    (hits : ∀ r ∈ s.wakeups.rows, p r = true → r.id = id ∧ r.status ≠ .completed)
    (change : WakeupChange Mild s.wakeups wakeups') :
    ∃ w, p w = true ∧ Completes s w { s with wakeups := wakeups' } := by
  obtain ⟨rfl, w, hw, hp⟩ := Queue.complete_eq h
  refine ⟨w, hp, change, hw, (hits w hw hp).2, ⟨p, ?_, rfl⟩, rfl, rfl, rfl⟩
  intro r hr
  refine ⟨fun hpr => hu.eq_of_key hr hw ?_, fun he => he ▸ hp⟩
  rw [(hits r hr hpr).1, (hits w hw hp).1]

theorem completeWakeup_completes (hu : Table.Unique Wakeup.id s.wakeups.rows)
    (h : completeWakeup s owner claim = some s') :
    ∃ w, w.heldBy s.now owner claim = true ∧ Completes s w s' := by
  obtain ⟨wakeups', hs, change⟩ := completeWakeup_change h
  obtain ⟨_, hc, rfl⟩ := Option.map_eq_some_iff.mp h
  cases hs
  obtain ⟨w, hp, completes⟩ := Completes.of_complete claim.wakeupId hu hc (by
    intro r _ hp
    simp only [Bool.and_eq_true] at hp
    obtain ⟨hid, held, hs, -⟩ := Wakeup.of_heldBy hp.1
    exact ⟨hid, by simp [hs]⟩) change
  simp only [Bool.and_eq_true] at hp
  exact ⟨w, hp.1, completes⟩

theorem completeActive_completes (hu : Table.Unique Wakeup.id s.wakeups.rows)
    (h : completeActiveWakeupForTransition s lease = some s') :
    ∃ w, w.caseId = lease.entityId ∧ s.cases.any (·.leasedTo s.now lease) = true ∧
      w.unclaimed s.now = true ∧ Completes s w s' := by
  obtain ⟨wakeups', hs, change⟩ := completeActive_change h
  simp only [completeActiveWakeupForTransition] at h
  split at h
  · cases h
  · split at h
    · rename_i active hactive
      obtain ⟨_, hc, rfl⟩ := Option.map_eq_some_iff.mp h
      cases hs
      obtain ⟨w, hp, completes⟩ := Completes.of_complete active.id hu hc (by
        intro r _ hp
        simp only [Bool.and_eq_true, beq_iff_eq] at hp
        refine ⟨hp.1, ?_⟩
        rcases (Wakeup.of_unclaimed hp.2).1 with hs | ⟨held, hs, -⟩ <;> simp [hs]) change
      simp only [Bool.and_eq_true, beq_iff_eq] at hp
      have hin := List.mem_filter.mp (hactive ▸ List.mem_singleton.mpr rfl)
      have hact := hin.2
      simp only [Bool.and_eq_true, beq_iff_eq] at hact
      have he : w = active := hu.eq_of_key completes.mem hin.1 hp.1
      exact ⟨w, he ▸ hact.1.1, hact.1.2, hp.2, completes⟩
    · cases h

theorem insertWakeup_schedules (free : next.status = .pending) (fresh : next.attempts = 0)
    (h : s.insertWakeup next = some s') : Schedules s next s' := by
  have change := insertWakeup_change (by simp [Wakeup.item, free, fresh]) h
  unfold CaseStore.insertWakeup at h
  split at h
  · cases h
  · rename_i hnew
    cases h
    refine ⟨change, rfl, free, ?_, rfl, rfl⟩
    intro r hr he
    exact hnew (List.any_eq_true.mpr ⟨r, hr, beq_iff_eq.mpr he⟩)

theorem commitProgress_schedules {progress : Progress} {wakeupId : String}
    (h : commitProgressTransition s lease progress wakeupId = some s') :
    Schedules s (.scheduled wakeupId lease.entityId progress.schedule) s' := by
  simp only [commitProgressTransition, Option.ite_none_left_eq_some] at h
  obtain ⟨-, -, hi⟩ := h
  obtain ⟨change, rows, free, new, ids, claims⟩ := insertWakeup_schedules rfl rfl hi
  exact ⟨change, rows, free, new, ids.trans (Table.keys_update (fun _ _ _ => rfl)), claims⟩

theorem deferClaimed_steps {wakeAt localNow : Int} {reason wakeupId : String}
    (h : deferClaimedWakeup s owner claim wakeAt localNow reason wakeupId = some s') :
    ∃ mid, completeWakeup s owner claim = some mid ∧
      Schedules mid
        ⟨wakeupId, claim.caseId, claim.logicalStepKey, wakeAt, reason, 0, .pending⟩ s' := by
  simp only [deferClaimedWakeup] at h
  split at h
  · cases h
  · obtain ⟨mid, hm, h⟩ := Option.bind_eq_some_iff.mp h
    refine ⟨mid, hm, ?_⟩
    split at h
    · obtain ⟨inserted, hi, h⟩ := Option.bind_eq_some_iff.mp h
      cases h
      obtain ⟨change, rows, free, new, ids, claims⟩ := insertWakeup_schedules rfl rfl hi
      refine ⟨change, rows, free, new, ?_, claims⟩
      rw [← ids]
      exact Table.keys_update (fun _ _ _ => rfl)
    · cases h

/-- What a transaction keeps of a scope's books. -/
structure Transacted (s : CaseStore) (move : CaseMove) (s' : CaseStore) : Prop where
  booked : s'.wakeups.Booked wakeupClaimAttemptBudget Wakeup.id Wakeup.item
  board : BoardStep (move.MayComplete s) (s.cases.map CaseRow.id) s.wakeups.rows
    (s'.cases.map CaseRow.id) s'.wakeups.rows
  claims : ∀ claim ∈ s'.claims, claim ∈ s.claims ∨
    ∃ w ∈ s.wakeups.rows, w.id = claim.wakeupId ∧ w.caseId = claim.caseId

variable {move : CaseMove}

/-- Completing one wakeup and scheduling the next are one step of the board. -/
theorem Completes.transacted (hs : Continuous s) (completes : Completes s w mid)
    (schedules : Schedules mid next s') (hc : next.caseId = w.caseId)
    (completable : move.MayComplete s w) : Transacted s move s' := by
  obtain ⟨p, hits, hrows⟩ := completes.rows
  have new : ∀ r ∈ s.wakeups.rows, r.id ≠ next.id := by
    intro r hr he
    have hkeys : mid.wakeups.rows.map Wakeup.id = s.wakeups.rows.map Wakeup.id := by
      rw [hrows]
      exact Table.keys_update (fun _ _ _ => rfl)
    obtain ⟨r', hr', hid⟩ := List.mem_map.mp (hkeys ▸ List.mem_map_of_mem hr)
    exact schedules.new r' hr' (hid.trans he)
  refine ⟨schedules.change.booked (completes.change.booked hs.booked), ?_, ?_⟩
  · rw [schedules.ids, completes.cases, schedules.rows, hrows]
    exact .replace p w next completes.mem hits completes.open_ completable schedules.free new hc
  · intro claim hclaim
    rw [schedules.claims, completes.claims] at hclaim
    exact .inl hclaim

/-- Wakeups that change in place, none of them completed or reopened. -/
structure Touched (wakeups wakeups' : Queue Wakeup WakeupOutcome) : Prop where
  booked : wakeups.Booked wakeupClaimAttemptBudget Wakeup.id Wakeup.item →
    wakeups'.Booked wakeupClaimAttemptBudget Wakeup.id Wakeup.item
  rows : ∃ f : Wakeup → Wakeup, wakeups'.rows = wakeups.rows.map f ∧
    (∀ w ∈ wakeups.rows, (f w).id = w.id ∧ (f w).caseId = w.caseId) ∧
    (∀ w ∈ wakeups.rows, w.status = .completed → f w = w) ∧
    ∀ w ∈ wakeups.rows, w.status ≠ .completed → (f w).status ≠ .completed

variable {wakeups wakeups' wakeups'' : Queue Wakeup WakeupOutcome}
  {kinds : Event String Token WakeupOutcome → Prop}

theorem Touched.of_update (change : WakeupChange kinds wakeups wakeups')
    (rows : wakeups'.rows = Table.update p f wakeups.rows)
    (kept : ∀ w, (f w).id = w.id ∧ (f w).caseId = w.caseId)
    (open_ : ∀ w ∈ wakeups.rows, p w = true → w.status ≠ .completed)
    (left : ∀ w, w.status ≠ .completed → (f w).status ≠ .completed) : Touched wakeups wakeups' := by
  refine ⟨change.booked, fun w => if p w then f w else w, rows, ?_, ?_, ?_⟩
  · intro w _
    cases hp : p w with
    | true => simpa [hp] using kept w
    | false => simp [hp]
  · intro w hw done
    cases hp : p w with
    | true => exact absurd done (open_ w hw hp)
    | false => simp [hp]
  · intro w hw hopen
    cases hp : p w with
    | true => simpa [hp] using left w hopen
    | false => simpa [hp] using hopen

theorem Touched.trans (h : Touched wakeups wakeups') (h' : Touched wakeups' wakeups'') :
    Touched wakeups wakeups'' := by
  obtain ⟨f, hrows, kept, done, open_⟩ := h.rows
  obtain ⟨g, hrows', kept', done', open'⟩ := h'.rows
  have hin : ∀ w ∈ wakeups.rows, f w ∈ wakeups'.rows :=
    fun w hw => hrows ▸ List.mem_map_of_mem hw
  refine ⟨fun hb => h'.booked (h.booked hb), g ∘ f, ?_, ?_, ?_, ?_⟩
  · rw [hrows', hrows, List.map_map]
  · intro w hw
    obtain ⟨hid, hc⟩ := kept' (f w) (hin w hw)
    exact ⟨hid.trans (kept w hw).1, hc.trans (kept w hw).2⟩
  · intro w hw hd
    have hf := done w hw hd
    have hg := done' (f w) (hin w hw) (hf.symm ▸ hd)
    exact hg.trans hf
  · intro w hw ho
    exact open' (f w) (hin w hw) (open_ w hw ho)

theorem Touched.transacted (hs : Continuous s) (h : Touched s.wakeups s'.wakeups)
    (ids : s'.cases.map CaseRow.id = s.cases.map CaseRow.id)
    (claims : ∀ claim ∈ s'.claims, claim ∈ s.claims ∨
      ∃ w ∈ s.wakeups.rows, w.id = claim.wakeupId ∧ w.caseId = claim.caseId) :
    Transacted s move s' := by
  obtain ⟨f, hrows, kept, done, open_⟩ := h.rows
  refine ⟨h.booked hs.booked, ?_, claims⟩
  rw [hrows, ids]
  exact .touch f kept done open_

theorem Transacted.of_same (hs : Continuous s) (wakeups : s'.wakeups = s.wakeups)
    (claims : s'.claims = s.claims) (ids : s'.cases.map CaseRow.id = s.cases.map CaseRow.id) :
    Transacted s move s' := by
  refine ⟨wakeups ▸ hs.booked, ?_, fun claim hc => .inl (claims ▸ hc)⟩
  rw [ids, wakeups]
  exact .same

theorem Transacted.continuous (h : Transacted s move s') (hs : Continuous s) : Continuous s' := by
  refine ⟨h.booked, ?_, h.board.board hs.board⟩
  intro claim hclaim
  have hknown : ∃ w ∈ s.wakeups.rows, w.id = claim.wakeupId ∧ w.caseId = claim.caseId := by
    rcases h.claims claim hclaim with hold | hnew
    · exact hs.claims claim hold
    · exact hnew
  obtain ⟨w, hw, hid, hc⟩ := hknown
  obtain ⟨w', hw', hid', hc'⟩ := h.board.kept hw
  exact ⟨w', hw', hid'.trans hid, hc'.trans hc⟩

theorem Wakeup.open_of_unclaimed {now : Int} (h : w.unclaimed now = true) :
    w.status ≠ .completed := by
  rcases (Wakeup.of_unclaimed h).1 with hs | ⟨held, hs, -⟩ <;> simp [hs]

theorem Wakeup.open_of_heldBy {now : Int} (h : w.heldBy now owner claim = true) :
    w.status ≠ .completed := by
  obtain ⟨-, held, hs, -⟩ := Wakeup.of_heldBy h
  simp [hs]

/-- A statement about one claimed wakeup. -/
theorem Touched.of_held {event : Wakeup → Event String Token WakeupOutcome} {now : Int}
    (h : wakeups.complete Wakeup.id (·.heldBy now owner claim) f event = some wakeups')
    (change : WakeupChange kinds wakeups wakeups')
    (kept : ∀ w, (f w).id = w.id ∧ (f w).caseId = w.caseId)
    (left : ∀ w, w.status ≠ .completed → (f w).status ≠ .completed) : Touched wakeups wakeups' := by
  obtain ⟨rfl, -⟩ := Queue.complete_eq h
  exact .of_update change rfl kept (fun w _ hp => Wakeup.open_of_heldBy hp) left

theorem quarantineWakeups_touched : Touched wakeups (quarantineWakeups wakeups) := by
  refine .of_update quarantineWakeups_change rfl (fun _ => ⟨rfl, rfl⟩) ?_ (fun _ _ => by simp)
  intro w _ hp
  simp only [Bool.and_eq_true] at hp
  exact Wakeup.open_of_unclaimed hp.2

theorem takeWakeups_touched {batchSize : Nat} {locked : List String} {hold : Hold String Token}
    (hu : Table.Unique Wakeup.id wakeups.rows) (fresh : hold.token ∉ wakeups.issued) :
    Touched wakeups (takeWakeups wakeups hold (dueWakeups wakeups batchSize locked)) := by
  refine .of_update (takeWakeups_change hu fresh) rfl (fun _ => ⟨rfl, rfl⟩) ?_ (fun _ _ => by simp)
  intro w hw hp
  have hopen := Table.open_of_candidate hu hw (List.contains_iff_mem.mp hp)
  simp only [Bool.and_eq_true] at hopen
  exact Wakeup.open_of_unclaimed hopen.2

theorem claimDue_transacted {ttl batchSize : Nat} {token : Token} {locked : List String}
    {returned : List ClaimedWakeup} (hs : Continuous s)
    (h : claimDueWakeups s owner ttl batchSize token locked = some (s', returned)) :
    Transacted s move s' := by
  simp only [claimDueWakeups, Option.ite_none_left_eq_some] at h
  obtain ⟨hok, h⟩ := h
  cases h
  have quarantined : Touched s.wakeups (quarantineWakeups s.wakeups) := quarantineWakeups_touched
  have hu := (quarantined.booked hs.booked).unique
  refine Touched.transacted hs
    (quarantined.trans (takeWakeups_touched hu (fun hi => hok (.inr (.inr hi))))) rfl ?_
  intro claim hclaim
  rcases List.mem_append.mp hclaim with hclaim | hclaim
  · obtain ⟨f, hrows, kept, -⟩ := quarantined.rows
    obtain ⟨w, hw, rfl⟩ := List.mem_map.mp hclaim
    have hin := (List.mem_filter.mp hw).1
    rw [hrows] at hin
    obtain ⟨r, hr, rfl⟩ := List.mem_map.mp hin
    exact .inr ⟨r, hr, (kept r hr).1.symm, (kept r hr).2.symm⟩
  · exact .inl hclaim

theorem openCase_transacted {incidentId caseId wakeupId : String}
    {authority : CoordinatorAuthority} {schedule : CaseSchedule} (hs : Continuous s)
    (h : openForMitigatedIncident s incidentId authority schedule caseId wakeupId = some s') :
    Transacted s move s' := by
  obtain ⟨incident, -, h⟩ := Option.bind_eq_some_iff.mp h
  simp only [] at h
  split at h
  · split at h
    · cases h
      exact .of_same hs rfl rfl rfl
    · cases h
  · split at h
    · cases h
    · rename_i hnew
      obtain ⟨change, rows, free, new, ids, claims⟩ := insertWakeup_schedules rfl rfl h
      refine ⟨change.booked hs.booked, ?_, fun _ hc => .inl (claims ▸ hc)⟩
      rw [ids, rows, List.map_append]
      refine .openCase _ rfl new ?_
      intro hin
      obtain ⟨c, hc, he⟩ := List.mem_map.mp hin
      exact hnew (List.any_eq_true.mpr ⟨c, hc, beq_iff_eq.mpr he⟩)

/-- Every transaction keeps the books and takes one step of the board. -/
theorem next_transacted (hs : Continuous s) (h : s.next move = some s') :
    Transacted s move s' := by
  have hu := hs.booked.unique
  cases move with
  | tick micros =>
    cases h
    exact ⟨hs.booked, .same, fun _ => .inl⟩
  | incidents rows =>
    cases h
    exact .of_same hs rfl rfl rfl
  | openCase incidentId authority schedule caseId wakeupId => exact openCase_transacted hs h
  | claimDue owner ttl batchSize token locked =>
    obtain ⟨⟨_, returned⟩, hc, rfl⟩ := Option.map_eq_some_iff.mp h
    exact claimDue_transacted hs hc
  | heartbeat owner claim ttl =>
    simp only [CaseStore.next, Option.ite_none_right_eq_some] at h
    obtain ⟨wakeups', hs', change⟩ := heartbeatWakeup_change h.2
    have hq := h.2
    simp only [heartbeatWakeup, Option.ite_none_left_eq_some] at hq
    obtain ⟨_, hc, rfl⟩ := Option.map_eq_some_iff.mp hq.2
    cases hs'
    refine Touched.transacted hs (.of_held hc change (fun _ => ⟨rfl, rfl⟩) ?_) rfl (fun _ => .inl)
    intro w open_
    cases hw : w.status with
    | completed => exact absurd hw open_
    | _ => simp
  | release owner claim refundAttempt =>
    simp only [CaseStore.next, Option.ite_none_right_eq_some] at h
    obtain ⟨wakeups', hs', change⟩ := releaseClaimedWakeup_change h.2
    obtain ⟨_, hq, rfl⟩ := Option.map_eq_some_iff.mp h.2
    cases hs'
    exact Touched.transacted hs (.of_held hq change (fun _ => ⟨rfl, rfl⟩) (fun _ _ => by simp)) rfl
      (fun _ => .inl)
  | defer owner claim wakeAt localNow reason wakeupId =>
    simp only [CaseStore.next, Option.ite_none_right_eq_some] at h
    obtain ⟨mid, hm, schedules⟩ := deferClaimed_steps h.2
    obtain ⟨w, held, completes⟩ := completeWakeup_completes hu hm
    obtain ⟨hid, live⟩ := Wakeup.of_heldBy held
    exact completes.transacted hs schedules (hs.case_of_claim h.1 completes.mem hid).symm
      ⟨h.1, hid.symm, live⟩
  | acquireLease caseId owner ttl token =>
    obtain ⟨⟨_, lease⟩, hl, rfl⟩ := Option.map_eq_some_iff.mp h
    simp only [acquireCaseLease, Option.ite_none_left_eq_some] at hl
    obtain ⟨c, -, hl⟩ := Option.bind_eq_some_iff.mp hl.2
    cases hl
    exact .of_same hs rfl rfl (Table.keys_update (fun _ _ _ => rfl))
  | releaseLease lease =>
    simp only [CaseStore.next, releaseCaseLease, Option.ite_none_right_eq_some] at h
    obtain ⟨-, h⟩ := h
    cases h
    exact .of_same hs rfl rfl (Table.keys_update (fun _ _ _ => rfl))
  | advance owner claim lease progress wakeupId =>
    simp only [CaseStore.next, Option.ite_none_right_eq_some] at h
    obtain ⟨⟨hclaim, hlease⟩, h⟩ := h
    obtain ⟨mid, hm, hp⟩ := Option.bind_eq_some_iff.mp h
    obtain ⟨w, held, completes⟩ := completeWakeup_completes hu hm
    obtain ⟨hid, live⟩ := Wakeup.of_heldBy held
    refine completes.transacted hs (commitProgress_schedules hp) ?_ ⟨hclaim, hid.symm, live⟩
    exact hlease.trans (hs.case_of_claim hclaim completes.mem hid).symm
  | advanceUnclaimed lease progress wakeupId =>
    obtain ⟨mid, hm, hp⟩ := Option.bind_eq_some_iff.mp h
    obtain ⟨w, hc, leased, free, completes⟩ := completeActive_completes hu hm
    refine completes.transacted hs (commitProgress_schedules hp) hc.symm ?_
    obtain ⟨c, hin, hl⟩ := List.any_eq_true.mp leased
    have hid := hl
    simp only [CaseRow.leasedTo, Bool.and_eq_true, beq_iff_eq] at hid
    exact ⟨⟨c, hin, hid.1.1.trans hc.symm, hl⟩, (Wakeup.of_unclaimed free).2⟩

theorem reach_continuous (h : caseMachine.Reach s) : Continuous s := by
  refine h.invariant ?_ (fun s move s' _ hs step => (next_transacted hs step).continuous hs)
  rintro _ ⟨now, incidents, rfl⟩
  exact ⟨.empty, by simp [CaseStore.empty], ⟨by simp [CaseStore.empty, Queue.empty],
    by simp [CaseStore.empty]⟩⟩

theorem path_keeps_completed {moves : List CaseMove} (reach : caseMachine.Reach s)
    (path : caseMachine.Path s moves s') (hw : w ∈ s.wakeups.rows)
    (done : w.status = .completed) : w ∈ s'.wakeups.rows := by
  have hkept : caseMachine.Reach s' ∧ w ∈ s'.wakeups.rows := by
    refine path.keeps (P := fun s => caseMachine.Reach s ∧ w ∈ s.wakeups.rows) ?_ ⟨reach, hw⟩
    intro s move s' hs step
    have board := (next_transacted (reach_continuous hs.1) step).board
    exact ⟨hs.1.step step, board.keeps_completed hs.2 done⟩
  exact hkept.2

theorem Wakeup.active_or_done (w : Wakeup) :
    w.active = true ∨ w.status = .completed ∨ w.status = .quarantined := by
  unfold Wakeup.active
  cases w.status <;> simp

theorem Chained.one_active (h : Chained caseId rows) :
    ((wakeupsOf caseId rows).filter Wakeup.active).length ≤ 1 := by
  obtain ⟨older, last, hsplit, hdone, -⟩ := h
  have hnone : older.filter Wakeup.active = [] := by
    simp only [List.filter_eq_nil_iff]
    intro w hw
    simp [Wakeup.active, hdone w hw]
  rw [hsplit, List.filter_append, hnone]
  exact List.length_filter_le _ _

theorem Chained.quarantined_of_idle (h : Chained caseId rows)
    (idle : ∀ w ∈ wakeupsOf caseId rows, w.active = false) :
    ∃ last, (wakeupsOf caseId rows).getLast? = some last ∧ last.status = .quarantined := by
  obtain ⟨older, last, hsplit, -, hlast⟩ := h
  refine ⟨last, by simp [hsplit], ?_⟩
  rcases last.active_or_done with hact | hdone | hq
  · rw [idle last (by simp [hsplit])] at hact
    cases hact
  · exact absurd hdone hlast
  · exact hq

/-- Whatever any number of owners do in whatever order, a case has one wakeup
pending or claimed unless its last was quarantined, and a wakeup is completed
once and for good, by the live holder of its claim or under the case's lease
while nobody holds one. -/
theorem case_continuity (h : caseMachine.Reach s) :
    (∀ c ∈ s.cases,
      ((wakeupsOf c.id s.wakeups.rows).filter Wakeup.active).length ≤ 1 ∧
      ((∀ w ∈ wakeupsOf c.id s.wakeups.rows, w.active = false) →
        ∃ last, (wakeupsOf c.id s.wakeups.rows).getLast? = some last ∧
          last.status = .quarantined)) ∧
    (∀ w ∈ s.wakeups.rows,
      Orderly wakeupClaimAttemptBudget w.item (about w.id s.wakeups.ledger) ∧
      (∃ c ∈ s.cases, c.id = w.caseId) ∧
      (w.status = .completed →
        ∀ moves s', caseMachine.Path s moves s' → w ∈ s'.wakeups.rows) ∧
      ∀ move s', s.next move = some s' → w.status ≠ .completed →
        ∀ w' ∈ s'.wakeups.rows, w'.id = w.id → w'.status = .completed → move.MayComplete s w) := by
  have hs := reach_continuous h
  refine ⟨?_, ?_⟩
  · intro c hc
    have chained := hs.board.chained c.id (List.mem_map_of_mem hc)
    exact ⟨chained.one_active, chained.quarantined_of_idle⟩
  · intro w hw
    refine ⟨hs.booked.orderly hw, List.mem_map.mp (hs.board.owned w hw), ?_, ?_⟩
    · intro done moves s' path
      exact path_keeps_completed h path hw done
    · intro move s' step open_ w' hw' hid done
      exact (next_transacted hs step).board.completes hs.booked.unique hw open_ hw' hid done

section Example
open Workflow (IncidentRow)

def mitigatedIncident : IncidentRow :=
  ⟨"inc_1", 7, 2, .mitigated, "db_pool_exhaustion", "payments", none, "graph_1", 1, 2, none, none,
    none, some ⟨"coordinator", 90, 600000000⟩⟩

def openedCase : CaseRow :=
  ⟨"case_1", 1, .opened, "inc_1", "ROOT_CAUSE_ANALYSIS", 0, none, none, none, none⟩

def firstClaim : ClaimedWakeup := ⟨"wak_1", "case_1", "case:1", "opened", 0, 1, 120000000⟩

def analysed : Progress :=
  ⟨.opened, .rootCauseAnalysis, ⟨"case:2", "DRAFT_REPAIR", 60000000, "analysed"⟩, none, none, none⟩

/-- A case is opened, its wakeup claimed, and its first step taken. -/
def continued : List CaseMove :=
  [.incidents [mitigatedIncident],
    .openCase "inc_1" ⟨"coordinator", 90, 7⟩ ⟨"case:1", "ROOT_CAUSE_ANALYSIS", 0, "opened"⟩ "case_1"
      "wak_1",
    .claimDue "a" 120000 10 1 [], .acquireLease "case_1" "a" 120000 5,
    .advance "a" firstClaim ⟨.reliabilityCase, "case_1", "a", 5, 1⟩ analysed "wak_2"]

def finishedWakeup : Wakeup := ⟨"wak_1", "case_1", "case:1", 0, "opened", 1, .completed⟩

def continuedStore : CaseStore :=
  ⟨[{ mitigatedIncident with reliabilityCaseId := some "case_1" }],
    [{ openedCase with
      workflowVersion := 2
      state := .rootCauseAnalysis
      nextActionKind := "DRAFT_REPAIR"
      nextActionAt := 60000000
      lease := some ⟨"a", 5, 120000000⟩ }],
    ⟨0, [finishedWakeup, .scheduled "wak_2" "case_1" analysed.schedule],
      [("wak_1", 0, .finish "a" 1 .completed), ("wak_1", 0, .claim ⟨"a", 1, 120000000⟩)], [1]⟩,
    [firstClaim]⟩

theorem continued_reached : caseMachine.Reach continuedStore :=
  Machine.reach_of_runFn continued ⟨0, [], rfl⟩ rfl

theorem case_continuity_continued :
    ((wakeupsOf "case_1" continuedStore.wakeups.rows).filter Wakeup.active).length ≤ 1 ∧
      Orderly 5 finishedWakeup.item (about "wak_1" continuedStore.wakeups.ledger) :=
  ⟨((case_continuity continued_reached).1 _ List.mem_cons_self).1,
    ((case_continuity continued_reached).2 _ List.mem_cons_self).1⟩

end Example

end Solvan.Cases
