import Solvan.Scale.Scheduling

/-! What a tenant's ordinary lane has to do with the control lanes: nothing but
the cursor that both move. -/
namespace Solvan.Scale

variable {α : Type u} [DecidableEq α] {p : SchedulerProfile} {s t : Scheduler α} {control : Bool}
  {now : Int} {key : String} {visits : Nat}

/-- The items of a lane. -/
def Scheduler.lane (s : Scheduler α) (key : String) (control : Bool) : List (SchedulerItem α) :=
  (s.queues key).filter (fun item => item.workClass.control == control)

/-- Two schedulers with the same ordinary lanes at the same place of the rotation. -/
structure SameOrdinary (s t : Scheduler α) : Prop where
  lanes : ∀ key, s.lane key false = t.lane key false
  deficit : ∀ key, s.deficit (key, false) = t.deficit (key, false)
  cursor : s.cursor = t.cursor

theorem lane_erase (queue : List (SchedulerItem α)) (item : SchedulerItem α) :
    (queue.erase item).filter (fun item => item.workClass.control == control) =
      (queue.filter (fun item => item.workClass.control == control)).erase item := List.erase_filter.symm

/-- The item of one lane is in no other. -/
theorem erase_other {queue : List (SchedulerItem α)} {item : SchedulerItem α}
    (h : item.workClass.control ≠ control) :
    (queue.filter (fun item => item.workClass.control == control)).erase item =
      queue.filter (fun item => item.workClass.control == control) := by
  refine List.erase_of_not_mem (fun hmem => h ?_)
  simpa using (List.mem_filter.mp hmem).2

/-- A visit to the ordinary lane of the one is a visit to that of the other. -/
theorem SameOrdinary.visit (h : SameOrdinary s t) :
    SameOrdinary (s.visit p false now).1 (t.visit p false now).1 ∧
      (s.visit p false now).2 = (t.visit p false now).2 := by
  have hitem : p.itemForLane (s.queues (p.key t.cursor)) false now =
      p.itemForLane (t.queues (p.key t.cursor)) false now :=
    itemForLane_congr (h.lanes (p.key t.cursor))
  simp only [Scheduler.visit, h.cursor, hitem, h.deficit]
  cases hnext : p.itemForLane (t.queues (p.key t.cursor)) false now with
  | none =>
    refine ⟨⟨h.lanes, fun key => ?_, rfl⟩, rfl⟩
    simp only [Function.update_apply, Prod.mk.injEq, and_true]
    split
    · rfl
    · exact h.deficit key
  | some item =>
    simp only
    split
    · refine ⟨⟨h.lanes, fun key => ?_, rfl⟩, rfl⟩
      simp only [Function.update_apply, Prod.mk.injEq, and_true]
      split
      · rfl
      · exact h.deficit key
    · refine ⟨⟨fun key => ?_, fun key => ?_, rfl⟩, rfl⟩
      · unfold Scheduler.lane
        simp only [Function.update_apply]
        split
        · rw [lane_erase, lane_erase]
          exact congrArg (fun items => items.erase item) (h.lanes (p.key t.cursor))
        · exact h.lanes key
      · simp only [Function.update_apply, Prod.mk.injEq, and_true]
        split
        · rfl
        · exact h.deficit key

theorem SameOrdinary.popLoop (h : SameOrdinary s t) :
    SameOrdinary (s.popLoop p false now visits).1 (t.popLoop p false now visits).1 ∧
      (s.popLoop p false now visits).2 = (t.popLoop p false now visits).2 := by
  induction visits generalizing s t with
  | zero => exact ⟨h, rfl⟩
  | succ visits ih =>
    obtain ⟨hsame, hitem⟩ := @SameOrdinary.visit _ _ p _ _ now h
    unfold Scheduler.popLoop
    rcases hs : s.visit p false now with ⟨s', none | item⟩
    · rcases ht : t.visit p false now with ⟨t', none | item'⟩
      · rw [hs, ht] at hsame
        exact ih hsame
      · rw [hs, ht] at hitem
        cases hitem
    · rcases ht : t.visit p false now with ⟨t', none | item'⟩
      · rw [hs, ht] at hitem
        cases hitem
      · rw [hs, ht] at hsame hitem
        exact ⟨hsame, hitem⟩

/-- What a visit to a control lane leaves of the ordinary lanes. -/
theorem visit_control (s : Scheduler α) (p : SchedulerProfile) (now : Int) :
    (∀ key, (s.visit p true now).1.lane key false = s.lane key false) ∧
      (∀ key, (s.visit p true now).1.deficit (key, false) = s.deficit (key, false)) ∧
      (s.visit p true now).1.cursor = (s.cursor + 1) % p.keys.length := by
  have hother : ∀ key d, Function.update s.deficit (p.key s.cursor, true) d (key, false) =
      s.deficit (key, false) := fun key d => Function.update_of_ne (by simp) _ _
  simp only [Scheduler.visit]
  split
  · exact ⟨fun _ => rfl, fun key => hother key _, rfl⟩
  · rename_i item hitem
    split
    · exact ⟨fun _ => rfl, fun key => hother key _, rfl⟩
    · refine ⟨fun key => ?_, fun key => hother key _, rfl⟩
      unfold Scheduler.lane
      simp only [Function.update_apply]
      split
      · rename_i hkey
        rw [hkey, lane_erase, erase_other (by simp [(mem_of_itemForLane hitem).2])]
      · rfl

/-- A tenant's control lane has nothing that one more grant pays for. -/
def Unserved (p : SchedulerProfile) (s : Scheduler α) (now : Int) (key : String) : Prop :=
  ∀ item ∈ p.itemForLane (s.queues key) true now, p.credit key (s.deficit (key, true)) < item.cost

/-- A visit to one tenant changes nothing that another's turn depends on. -/
theorem Unserved.visit (h : Unserved p s now key) (hkey : key ≠ p.key s.cursor) :
    Unserved p (s.visit p true now).1 now key := by
  obtain ⟨hqueue, hdeficit⟩ := s.visit_other hkey true
  unfold Unserved
  rw [hqueue, hdeficit]
  exact h

theorem Unserved.none (h : Unserved p s now (p.key s.cursor)) : (s.visit p true now).2 = none := by
  simp only [Scheduler.visit]
  split
  · rfl
  · rename_i item hitem
    rw [if_pos (h item hitem)]

/-- Visits to the control lanes that serve no one, but for the last of them. -/
theorem popLoop_control (hvisits : visits ≤ p.keys.length) (hcursor : s.cursor % p.keys.length = s.cursor)
    (hunserved : ∀ i, i + 1 < visits → Unserved p s now (p.key (s.cursor + i))) :
    (∀ key, (s.popLoop p true now visits).1.lane key false = s.lane key false) ∧
      (∀ key, (s.popLoop p true now visits).1.deficit (key, false) = s.deficit (key, false)) ∧
      (s.popLoop p true now visits).1.cursor = (s.cursor + visits) % p.keys.length := by
  induction visits generalizing s with
  | zero => exact ⟨fun _ => rfl, fun _ => rfl, hcursor.symm⟩
  | succ visits ih =>
    obtain ⟨hlane, hdeficit, hnext⟩ := visit_control s p now
    have hrest : ∀ i, i + 1 < visits →
        Unserved p (s.visit p true now).1 now (p.key ((s.visit p true now).1.cursor + i)) := by
      intro i hi
      have hkey : p.key ((s.visit p true now).1.cursor + i) = p.key (s.cursor + (i + 1)) := by
        rw [hnext, SchedulerProfile.key_mod, Nat.add_assoc, Nat.add_comm 1 i]
      rw [hkey]
      refine (hunserved (i + 1) (by omega)).visit (fun hsame => ?_)
      -- The rotation does not come back to this tenant within so few visits.
      have hpos : 0 < p.keys.length := by omega
      have hmod := (SchedulerProfile.key_eq_iff hpos).mp hsame
      have hlt : s.cursor < p.keys.length := hcursor ▸ Nat.mod_lt _ hpos
      rw [hcursor] at hmod
      rcases Nat.lt_or_ge (s.cursor + (i + 1)) p.keys.length with hsmall | hlarge
      · rw [Nat.mod_eq_of_lt hsmall] at hmod
        omega
      · rw [Nat.mod_eq_sub_mod hlarge, Nat.mod_eq_of_lt (by omega)] at hmod
        omega
    rcases hvisit : s.visit p true now with ⟨s', none | item⟩
    · rw [hvisit] at hlane hdeficit hnext hrest
      obtain ⟨hlane', hdeficit', hcursor'⟩ := ih (s := s') (by omega)
        (by rw [hnext, Nat.mod_mod]) hrest
      unfold Scheduler.popLoop
      rw [hvisit]
      refine ⟨fun key => (hlane' key).trans (hlane key),
        fun key => (hdeficit' key).trans (hdeficit key), ?_⟩
      rw [hcursor', hnext, Nat.mod_add_mod, Nat.add_assoc, Nat.add_comm 1]
    · -- Only the last visit may serve an item.
      have hlast : visits = 0 := by
        by_contra hmore
        have hnone := (hunserved 0 (by omega)).none
        rw [hvisit] at hnone
        cases hnone
      rw [hvisit] at hlane hdeficit hnext
      unfold Scheduler.popLoop
      rw [hvisit, hlast]
      exact ⟨hlane, hdeficit, hnext⟩

/-- A control pop that serves no one, or the last of the rotation. -/
def RotationKept (p : SchedulerProfile) (s : Scheduler α) : SchedulerOp α → Prop
  | .pop true now => ∀ i < p.keys.length - 1, Unserved p s now (p.key (s.cursor + i))
  | _ => True

/-- Every control pop of a run. -/
def KeepsRotation (p : SchedulerProfile) : Scheduler α → List (SchedulerOp α) → Prop
  | _, [] => True
  | s, op :: ops => RotationKept p s op ∧ KeepsRotation p (s.apply p op) ops

/-- What the ordinary pops of a run return. -/
def Scheduler.ordinaryPops (p : SchedulerProfile) :
    Scheduler α → List (SchedulerOp α) → List (Option (SchedulerItem α))
  | _, [] => []
  | s, .pop false now :: ops => (s.pop p false now).2 :: ordinaryPops p (s.apply p (.pop false now)) ops
  | s, op :: ops => ordinaryPops p (s.apply p op) ops

/-- The run without its control operations, each item as it was stamped. -/
def Scheduler.ordinaryOps (p : SchedulerProfile) :
    Scheduler α → List (SchedulerOp α) → List (SchedulerOp α)
  | _, [] => []
  | s, .pop false now :: ops => .pop false now :: ordinaryOps p (s.apply p (.pop false now)) ops
  | s, .pop true now :: ops => ordinaryOps p (s.apply p (.pop true now)) ops
  | s, .enqueue item now :: ops =>
    if item.workClass.control then ordinaryOps p (s.apply p (.enqueue item now)) ops
    else .enqueue (s.stamped item now) now :: ordinaryOps p (s.apply p (.enqueue item now)) ops

/-- What every operation keeps of the cursor and the sequence. -/
structure Scheduler.Wound (p : SchedulerProfile) (s : Scheduler α) : Prop where
  cursor : s.cursor % p.keys.length = s.cursor
  sequence : 0 < s.nextSequence

theorem Scheduler.Wound.visit (h : s.Wound p) : ((s.visit p control now).1).Wound p := by
  simp only [Scheduler.visit]
  split
  · exact ⟨Nat.mod_mod _ _, h.sequence⟩
  · split
    · exact ⟨Nat.mod_mod _ _, h.sequence⟩
    · exact ⟨Nat.mod_mod _ _, h.sequence⟩

theorem Scheduler.Wound.apply (h : s.Wound p) (op : SchedulerOp α) : (s.apply p op).Wound p := by
  cases op with
  | enqueue item now =>
    simp only [Scheduler.apply, Scheduler.enqueue]
    split
    · exact h
    · refine ⟨h.cursor, ?_⟩
      simp only [Option.getD_some]
      split
      · exact Nat.succ_pos _
      · exact h.sequence
  | pop control now => exact Scheduler.popLoop_keeps (fun _ hwound => hwound.visit) h

omit [DecidableEq α] in
/-- A stamp is stamped no more. -/
theorem Scheduler.Wound.stamped (h : s.Wound p) (item : SchedulerItem α) (now : Int) :
    t.stamped (s.stamped item now) now = s.stamped item now := by
  have hsequence : (s.stamped item now).tenantSequence ≠ 0 := by
    unfold Scheduler.stamped
    simp only
    split
    · exact Nat.pos_iff_ne_zero.mp h.sequence
    · assumption
  unfold Scheduler.stamped at hsequence ⊢
  simp only [hsequence, if_false, Option.getD_some]

theorem SameOrdinary.enqueue (h : SameOrdinary s t) (hs : s.Wound p) (item : SchedulerItem α) (now : Int) :
    SameOrdinary (s.apply p (.enqueue item now)) (t.apply p (.enqueue (s.stamped item now) now)) := by
  have horganization : (s.stamped item now).organizationId = item.organizationId := rfl
  simp only [Scheduler.apply, Scheduler.enqueue, horganization, hs.stamped item now]
  split
  · exact h
  · refine ⟨fun key => ?_, h.deficit, h.cursor⟩
    unfold Scheduler.lane
    simp only [Option.getD_some, Function.update_apply]
    split
    · rw [List.filter_append, List.filter_append]
      exact congrArg (fun items => items ++ _) (h.lanes item.organizationId)
    · exact h.lanes key

theorem SameOrdinary.enqueue_control (h : SameOrdinary s t) {item : SchedulerItem α}
    (hcontrol : item.workClass.control = true) (now : Int) :
    SameOrdinary (s.apply p (.enqueue item now)) t := by
  have hclass : (s.stamped item now).workClass.control = true := hcontrol
  simp only [Scheduler.apply, Scheduler.enqueue]
  split
  · exact h
  · refine ⟨fun key => ?_, h.deficit, h.cursor⟩
    rw [← h.lanes key]
    unfold Scheduler.lane
    simp only [Option.getD_some, Function.update_apply]
    split
    · rename_i hkey
      rw [List.filter_append, hkey]
      simp [hclass]
    · rfl

theorem SameOrdinary.pop_control (h : SameOrdinary s t) (hs : s.Wound p)
    (kept : RotationKept p s (.pop true now)) : SameOrdinary (s.apply p (.pop true now)) t := by
  obtain ⟨hlane, hdeficit, hcursor⟩ := popLoop_control (Nat.le_refl _) hs.cursor
    (fun i hi => kept i (Nat.lt_sub_of_add_lt hi))
  refine ⟨fun key => (hlane key).trans (h.lanes key), fun key => (hdeficit key).trans (h.deficit key),
    ?_⟩
  have hwhole : (s.cursor + p.keys.length) % p.keys.length = s.cursor := by
    rw [Nat.add_mod_right, hs.cursor]
  exact (hcursor.trans hwhole).trans h.cursor

theorem SameOrdinary.run {ops : List (SchedulerOp α)} (h : SameOrdinary s t) (hs : s.Wound p)
    (kept : KeepsRotation p s ops) : s.ordinaryPops p ops = t.ordinaryPops p (s.ordinaryOps p ops) := by
  induction ops generalizing s t with
  | nil => rfl
  | cons op ops ih =>
    obtain ⟨hop, hrest⟩ := kept
    have hnext := hs.apply op
    cases op with
    | enqueue item now =>
      simp only [Scheduler.ordinaryOps, Scheduler.ordinaryPops]
      split
      · rename_i hcontrol
        exact ih (h.enqueue_control hcontrol now) hnext hrest
      · rw [Scheduler.ordinaryPops]
        · exact ih (h.enqueue hs item now) hnext hrest
        · exact fun _ heq => nomatch heq
    | pop control now =>
      cases control with
      | false =>
        obtain ⟨hsame, hitem⟩ := @SameOrdinary.popLoop _ _ p _ _ now p.keys.length h
        simp only [Scheduler.ordinaryOps, Scheduler.ordinaryPops]
        exact congrArg₂ List.cons hitem (ih hsame hnext hrest)
      | true =>
        simp only [Scheduler.ordinaryOps, Scheduler.ordinaryPops]
        exact ih (h.pop_control hs hop) hnext hrest

/-- The control lane is not seen in the ordinary one while it keeps the rotation. -/
theorem ordinary_undisturbed {ops : List (SchedulerOp α)} (kept : KeepsRotation p (.new α) ops) :
    (Scheduler.new α).ordinaryPops p ops =
      (Scheduler.new α).ordinaryPops p ((Scheduler.new α).ordinaryOps p ops) :=
  SameOrdinary.run ⟨fun _ => rfl, fun _ => rfl, rfl⟩ ⟨Nat.zero_mod _, Nat.zero_lt_one⟩ kept

section Example

theorem base_bounded : 1 ≤ 100 := by decide

def evenly : SchedulerProfile where
  assuredShare := [("org-a", 1), ("org-b", 1)]
  controlReserve := 1
  baseQuantum := 1
  maxDeficit := 100
  maximumWaitSeconds := 0
  tenants := by decide
  shares := by decide
  quantum := by decide
  bounded := base_bounded

def work (organization : String) (workClass : WorkClass) : SchedulerItem Nat where
  organizationId := organization
  payload := 0
  cost := 1
  workClass := workClass
  tenantSequence := 0
  enqueuedAt := none
  positive := Nat.one_pos

/-- Both tenants have ordinary work, and the first has control work too. -/
def bothWaiting (control : WorkClass) : List (SchedulerOp Nat) :=
  [.enqueue (work "org-a" .interactiveAsk) 0, .enqueue (work "org-b" .interactiveAsk) 0,
    .enqueue (work "org-a" control) 0, .pop true 0, .pop false 0]

instance (s : Scheduler α) (now : Int) (key : String) : Decidable (Unserved p s now key) :=
  inferInstanceAs (Decidable (∀ item ∈ p.itemForLane (s.queues key) true now, _))

instance (s : Scheduler α) (op : SchedulerOp α) : Decidable (RotationKept p s op) :=
  match op with
  | .pop true _ => inferInstanceAs (Decidable (∀ i < p.keys.length - 1, _))
  | .pop false _ | .enqueue _ _ => isTrue trivial

instance decidableKeepsRotation :
    (s : Scheduler α) → (ops : List (SchedulerOp α)) → Decidable (KeepsRotation p s ops)
  | _, [] => isTrue trivial
  | s, op :: ops =>
    have := decidableKeepsRotation (s.apply p op) ops
    inferInstanceAs (Decidable (RotationKept p s op ∧ KeepsRotation p (s.apply p op) ops))

theorem ordinary_undisturbed_idle :
    ((Scheduler.new Nat).ordinaryPops evenly (bothWaiting .background)).map
        (Option.map SchedulerItem.organizationId) = [some "org-a"] ∧
      (Scheduler.new Nat).ordinaryPops evenly (bothWaiting .background) =
        (Scheduler.new Nat).ordinaryPops evenly
          ((Scheduler.new Nat).ordinaryOps evenly (bothWaiting .background)) :=
  ⟨by decide +kernel, ordinary_undisturbed (by decide +kernel)⟩

/-- A control item moves the rotation on, and the other tenant is served first. -/
theorem ordinary_disturbed :
    ¬∀ (p : SchedulerProfile) (ops : List (SchedulerOp Nat)),
      (Scheduler.new Nat).ordinaryPops p ops =
        (Scheduler.new Nat).ordinaryPops p ((Scheduler.new Nat).ordinaryOps p ops) := by
  intro hall
  exact absurd (hall evenly (bothWaiting .reconciliation)) (by decide +kernel)

end Example

end Solvan.Scale
