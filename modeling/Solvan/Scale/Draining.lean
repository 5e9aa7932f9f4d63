import Solvan.Base.Drain
import Solvan.Scale.Fairness

/-! What becomes of the items of a scheduler: each is returned once or still queued, and
pops empty the queues. -/
namespace Solvan.Scale

variable {α : Type u} [DecidableEq α] {p : SchedulerProfile} {s : Scheduler α} {control : Bool}
  {now : Int} {key : String} {visits : Nat} {item : SchedulerItem α}

/-- All that is queued. -/
def Scheduler.queued (p : SchedulerProfile) (s : Scheduler α) : List (SchedulerItem α) := p.keys.flatMap s.queues

/-- The items that a run lets in, as it stamps them. -/
def Scheduler.admitted (p : SchedulerProfile) : Scheduler α → List (SchedulerOp α) → List (SchedulerItem α)
  | _, [] => []
  | s, .enqueue item now :: ops =>
    (if p.keys.contains item.organizationId then [s.stamped item now] else []) ++
      admitted p (s.apply p (.enqueue item now)) ops
  | s, .pop control now :: ops => admitted p (s.apply p (.pop control now)) ops

/-- The items that the pops of a run return, each with the lane it was asked for. -/
def Scheduler.popped (p : SchedulerProfile) : Scheduler α → List (SchedulerOp α) → List (Bool × SchedulerItem α)
  | _, [] => []
  | s, .enqueue item now :: ops => popped p (s.apply p (.enqueue item now)) ops
  | s, .pop control now :: ops =>
    (s.pop p control now).2.toList.map (Prod.mk control) ++ popped p (s.apply p (.pop control now)) ops

/-- Enough pops of both lanes leave nothing. -/
def Drains (p : SchedulerProfile) (s : Scheduler α) : Prop :=
  ∃ enough, ∀ pops : List (Bool × Int), (∀ lane, enough ≤ pops.countP (fun pop => pop.1 == lane)) →
    (s.run p (pops.map (fun pop => .pop pop.1 pop.2))).queued p = []

/-- A scheduler that serves what the bound on the deficit can pay for. -/
def Fits (p : SchedulerProfile) (s : Scheduler α) : Prop := ∀ item ∈ s.queued p, item.cost ≤ p.maxDeficit

theorem SchedulerProfile.key_mem (hkeys : 0 < p.keys.length) (cursor : Nat) : p.key cursor ∈ p.keys := by
  have hplace := Nat.mod_lt cursor hkeys
  unfold SchedulerProfile.key
  rw [List.getD_eq_getElem _ _ hplace]
  exact List.getElem_mem hplace

omit [DecidableEq α] in
theorem mem_queued : item ∈ s.queued p ↔ ∃ key ∈ p.keys, item ∈ s.queues key := List.mem_flatMap

/-- The three ways a visit goes. -/
theorem visit_cases (p : SchedulerProfile) (control : Bool) (now : Int) (s : Scheduler α) :
    (s.lane (p.key s.cursor) control = [] ∧ s.visit p control now =
      (⟨s.queues, Function.update s.deficit (p.key s.cursor, control) 0, (s.cursor + 1) % p.keys.length,
        s.nextSequence⟩, none)) ∨
    ∃ item, item ∈ s.lane (p.key s.cursor) control ∧
      ((p.credit (p.key s.cursor) (s.deficit (p.key s.cursor, control)) < item.cost ∧ s.visit p control now =
        (⟨s.queues, Function.update s.deficit (p.key s.cursor, control)
          (p.credit (p.key s.cursor) (s.deficit (p.key s.cursor, control))), (s.cursor + 1) % p.keys.length,
          s.nextSequence⟩, none)) ∨
       (item.cost ≤ p.credit (p.key s.cursor) (s.deficit (p.key s.cursor, control)) ∧ s.visit p control now =
        (⟨Function.update s.queues (p.key s.cursor) ((s.queues (p.key s.cursor)).erase item),
          Function.update s.deficit (p.key s.cursor, control)
            (p.credit (p.key s.cursor) (s.deficit (p.key s.cursor, control)) - item.cost),
          (s.cursor + 1) % p.keys.length, s.nextSequence⟩, some item))) := by
  simp only [Scheduler.visit]
  cases hitem : p.itemForLane (s.queues (p.key s.cursor)) control now with
  | none =>
    refine .inl ⟨List.filter_eq_nil_iff.mpr (fun item hmem => ?_), rfl⟩
    simpa using itemForLane_none hitem item hmem
  | some item =>
    obtain ⟨hmem, hlane⟩ := mem_of_itemForLane hitem
    refine .inr ⟨item, List.mem_filter.mpr ⟨hmem, by simpa using hlane⟩, ?_⟩
    by_cases hcredit : p.credit (p.key s.cursor) (s.deficit (p.key s.cursor, control)) < item.cost
    · exact .inl ⟨hcredit, if_pos hcredit⟩
    · exact .inr ⟨by omega, if_neg hcredit⟩

/-- A visit takes what it returns out of the queues. -/
theorem visit_queued (hkeys : 0 < p.keys.length) (s : Scheduler α) :
    (s.queued p).Perm ((s.visit p control now).2.toList ++ (s.visit p control now).1.queued p) := by
  rcases visit_cases p control now s with ⟨-, hvisit⟩ | ⟨item, hitem, ⟨-, hvisit⟩ | ⟨-, hvisit⟩⟩
  · rw [hvisit]
    exact List.Perm.refl _
  · rw [hvisit]
    exact List.Perm.refl _
  · rw [hvisit]
    refine Drain.flatMap_perm p.tenants (SchedulerProfile.key_mem hkeys s.cursor) ?_
      (fun other hother => (Function.update_of_ne hother _ _).symm)
    simp only [Function.update_self, Option.toList_some, List.singleton_append]
    exact List.perm_cons_erase (List.mem_of_mem_filter hitem)

theorem popLoop_queued (hkeys : 0 < p.keys.length) (s : Scheduler α) :
    (s.queued p).Perm ((s.popLoop p control now visits).2.toList ++ (s.popLoop p control now visits).1.queued p) := by
  induction visits generalizing s with
  | zero => exact List.Perm.refl _
  | succ visits ih =>
    have hvisit := @visit_queued α _ p control now hkeys s
    unfold Scheduler.popLoop
    rcases hcase : s.visit p control now with ⟨s', none | item⟩
    · rw [hcase] at hvisit
      exact hvisit.trans (ih s')
    · rw [hcase] at hvisit
      exact hvisit

/-- A pop returns items of its lane alone. -/
theorem popLoop_lane {returned : SchedulerItem α} (h : (s.popLoop p control now visits).2 = some returned) :
    returned.workClass.control = control := by
  induction visits generalizing s with
  | zero => cases h
  | succ visits ih =>
    unfold Scheduler.popLoop at h
    rcases visit_cases p control now s with ⟨-, hvisit⟩ | ⟨item, hitem, ⟨-, hvisit⟩ | ⟨-, hvisit⟩⟩
    · rw [hvisit] at h
      exact ih h
    · rw [hvisit] at h
      exact ih h
    · rw [hvisit] at h
      obtain rfl := Option.some.inj h
      simpa using (List.mem_filter.mp hitem).2

/-- What a tenant's lane still has to be visited for, at most. -/
def Scheduler.laneLoad (p : SchedulerProfile) (s : Scheduler α) (control : Bool) (key : String) : Nat :=
  (s.lane key control).length * (p.maxDeficit + 1) +
    if s.lane key control = [] then 0 else p.maxDeficit - s.deficit (key, control)

def Scheduler.load (p : SchedulerProfile) (control : Bool) (s : Scheduler α) : Nat :=
  (p.keys.map (s.laneLoad p control)).sum

omit [DecidableEq α] in
theorem grant_pos (hkey : key ∈ p.keys) : 0 < p.grant key := by
  obtain ⟨named, hnamed, rfl⟩ := List.mem_map.mp hkey
  obtain ⟨share, hshare⟩ : ∃ share, p.assuredShare.lookup named.1 = some share := by
    rw [← Option.isSome_iff_exists, List.lookup_isSome_iff]
    exact ⟨named, hnamed, beq_self_eq_true _⟩
  obtain ⟨before, after, heq, -⟩ := List.lookup_eq_some_iff.mp hshare
  have hpositive := p.shares (named.1, share) (heq ▸ List.mem_append_right _ List.mem_cons_self)
  have hweight : p.weight named.1 = share := by rw [SchedulerProfile.weight, hshare, Option.getD_some]
  exact Nat.mul_pos p.quantum (hweight ▸ hpositive)

/-- A visit to another lane changes nothing here. -/
theorem visit_otherLane {other : Bool} (hother : other ≠ control) (s : Scheduler α) :
    (∀ key, (s.visit p control now).1.lane key other = s.lane key other) ∧
      ∀ key, (s.visit p control now).1.deficit (key, other) = s.deficit (key, other) := by
  have hdeficit : ∀ key d, Function.update s.deficit (p.key s.cursor, control) d (key, other) =
      s.deficit (key, other) := fun key d => Function.update_of_ne (by simp [hother]) _ _
  rcases visit_cases p control now s with ⟨-, hvisit⟩ | ⟨item, hitem, ⟨-, hvisit⟩ | ⟨-, hvisit⟩⟩
  · rw [hvisit]
    exact ⟨fun _ => rfl, fun key => hdeficit key _⟩
  · rw [hvisit]
    exact ⟨fun _ => rfl, fun key => hdeficit key _⟩
  · rw [hvisit]
    refine ⟨fun key => ?_, fun key => hdeficit key _⟩
    unfold Scheduler.lane
    simp only [Function.update_apply]
    split
    · rename_i hkey
      have hlane : item.workClass.control = control := by simpa using (List.mem_filter.mp hitem).2
      rw [hkey, lane_erase, erase_other (fun heq => hother (heq.symm.trans hlane))]
    · rfl

/-- A visit lowers what a lane has to be visited for, if there is anything in it. -/
theorem visit_load (hkeys : 0 < p.keys.length) (hsound : s.Sound p) (hfits : Fits p s) :
    (s.visit p control now).1.load p control ≤ s.load p control ∧
      (s.lane (p.key s.cursor) control ≠ [] → (s.visit p control now).1.load p control < s.load p control) := by
  have hmem := SchedulerProfile.key_mem hkeys s.cursor
  have hothers : ∀ other, other ≠ p.key s.cursor →
      (s.visit p control now).1.laneLoad p control other = s.laneLoad p control other := by
    intro other hother
    obtain ⟨hqueues, hdeficit⟩ := @Scheduler.visit_other α p control now _ s other hother control
    unfold Scheduler.laneLoad Scheduler.lane
    rw [hqueues, hdeficit]
  have htenants : p.keys.Nodup := p.tenants
  have hsum := Drain.sum_change htenants hmem hothers
  have hbound := hsound.bounded (p.key s.cursor, control)
  have hgrant := grant_pos hmem
  unfold Scheduler.load
  -- The load of the lane that is visited.
  rcases visit_cases p control now s with ⟨hnone, hvisit⟩ | ⟨item, hitem, hcase⟩
  · have hsame : (s.visit p control now).1.laneLoad p control (p.key s.cursor) =
        s.laneLoad p control (p.key s.cursor) := by
      unfold Scheduler.laneLoad Scheduler.lane at *
      rw [hvisit]
      simp [hnone]
    exact ⟨by omega, fun hne => absurd hnone hne⟩
  · have hcost : item.cost ≤ p.maxDeficit := hfits item (mem_queued.mpr ⟨_, hmem, List.mem_of_mem_filter hitem⟩)
    have hcredit : p.credit (p.key s.cursor) (s.deficit (p.key s.cursor, control)) =
        min p.maxDeficit (s.deficit (p.key s.cursor, control) + p.grant (p.key s.cursor)) := rfl
    have hless : (s.visit p control now).1.laneLoad p control (p.key s.cursor) <
        s.laneLoad p control (p.key s.cursor) := by
      have hne : s.lane (p.key s.cursor) control ≠ [] := List.ne_nil_of_mem hitem
      have hload : s.laneLoad p control (p.key s.cursor) =
          (s.lane (p.key s.cursor) control).length * (p.maxDeficit + 1) +
            (p.maxDeficit - s.deficit (p.key s.cursor, control)) := by
        rw [Scheduler.laneLoad, if_neg hne]
      rcases hcase with ⟨hpoor, hvisit⟩ | ⟨hpaid, hvisit⟩
      · rw [hload, hvisit]
        unfold Scheduler.laneLoad Scheduler.lane at *
        simp only [Function.update_self, if_neg hne]
        omega
      · rw [hload, hvisit]
        unfold Scheduler.laneLoad Scheduler.lane at *
        simp only [Function.update_self, lane_erase]
        have hlength := List.length_erase_of_mem hitem
        obtain ⟨rest, hrest⟩ := Nat.exists_eq_add_one.mpr (List.length_pos_of_mem hitem)
        rw [hlength, hrest, Nat.add_sub_cancel, Nat.succ_mul]
        split <;> omega
    exact ⟨by omega, fun _ => by omega⟩

omit [DecidableEq α] in
theorem lanes_queued (h : ∀ key ∈ p.keys, ∀ control, s.lane key control = []) : s.queued p = [] := by
  refine List.flatMap_eq_nil_iff.mpr (fun key hkey => List.eq_nil_iff_forall_not_mem.mpr (fun item hitem => ?_))
  have hlane : item ∈ s.lane key item.workClass.control := List.mem_filter.mpr ⟨hitem, beq_self_eq_true _⟩
  rw [h key hkey] at hlane
  cases hlane

omit [DecidableEq α] in
theorem load_zero (h : s.load p control = 0) (hkey : key ∈ p.keys) : s.lane key control = [] := by
  have hzero := List.sum_eq_zero_iff_forall_eq_nat.mp h _ (List.mem_map_of_mem hkey)
  unfold Scheduler.laneLoad at hzero
  refine List.eq_nil_of_length_eq_zero ?_
  rcases Nat.eq_zero_or_pos (s.lane key control).length with hnone | hsome
  · exact hnone
  · have hgrows : 0 < (s.lane key control).length * (p.maxDeficit + 1) := Nat.mul_pos hsome (Nat.succ_pos _)
    omega

/-- What is let in fits when its cost does, and what fits stays so. -/
theorem Fits.visit (hkeys : 0 < p.keys.length) (h : Fits p s) : Fits p (s.visit p control now).1 :=
  fun item hitem => h item ((visit_queued hkeys s).mem_iff.mpr (List.mem_append_right _ hitem))

theorem popLoop_load (hkeys : 0 < p.keys.length) (hsound : s.Sound p) (hfits : Fits p s) :
    (s.popLoop p control now visits).1.load p control ≤ s.load p control ∧
      ((∃ i < visits, s.lane (p.key (s.cursor + i)) control ≠ []) →
        (s.popLoop p control now visits).1.load p control < s.load p control) := by
  induction visits generalizing s with
  | zero =>
    refine ⟨Nat.le_refl _, ?_⟩
    rintro ⟨i, hi, -⟩
    exact absurd hi (Nat.not_lt_zero i)
  | succ visits ih =>
    obtain ⟨hle, hlt⟩ := @visit_load α _ p s control now hkeys hsound hfits
    have hsound' : (s.visit p control now).1.Sound p := hsound.visit
    have hfits' : Fits p (s.visit p control now).1 := hfits.visit hkeys
    have hqueues : (s.visit p control now).2 = none → (s.visit p control now).1.queues = s.queues := visit_queues
    have hcursor : (s.visit p control now).1.cursor = (s.cursor + 1) % p.keys.length := visit_cursor
    have hserved : (s.visit p control now).2 ≠ none → s.lane (p.key s.cursor) control ≠ [] := by
      intro hsome
      rcases visit_cases p control now s with ⟨-, hvisit⟩ | ⟨item, hitem, -⟩
      · exact absurd (congrArg Prod.snd hvisit) hsome
      · exact List.ne_nil_of_mem hitem
    unfold Scheduler.popLoop
    rcases hcase : s.visit p control now with ⟨s', none | item⟩
    · rw [hcase] at hle hlt hsound' hfits' hqueues hcursor
      obtain ⟨hlater, hwaiting⟩ := ih hsound' hfits'
      refine ⟨hlater.trans hle, ?_⟩
      rintro ⟨i, hi, hlane⟩
      cases i with
      | zero => exact lt_of_le_of_lt hlater (hlt hlane)
      | succ i =>
        refine lt_of_lt_of_le (hwaiting ⟨i, by omega, ?_⟩) hle
        rw [hcursor, SchedulerProfile.key_mod, Nat.add_assoc, Nat.add_comm 1 i]
        unfold Scheduler.lane at hlane ⊢
        rw [hqueues rfl]
        exact hlane
    · rw [hcase] at hle hlt hserved
      exact ⟨hle, fun _ => hlt (hserved (Option.some_ne_none _))⟩

/-- A rotation comes to every tenant. -/
theorem key_visited (hkey : key ∈ p.keys) (cursor : Nat) : ∃ i < p.keys.length, p.key (cursor + i) = key := by
  have hplace := SchedulerProfile.place_lt hkey
  have hless := Nat.mod_lt cursor (Nat.zero_lt_of_lt hplace)
  refine ⟨(p.place key + p.keys.length - cursor % p.keys.length) % p.keys.length,
    Nat.mod_lt _ (Nat.zero_lt_of_lt hplace), (SchedulerProfile.key_eq_place hkey _).mpr ?_⟩
  rw [Nat.add_mod_mod, ← Nat.mod_add_mod,
    show cursor % p.keys.length + (p.place key + p.keys.length - cursor % p.keys.length) =
      p.place key + p.keys.length by omega, Nat.add_mod_right, Nat.mod_eq_of_lt hplace]

/-- A pop lowers what its lane has to be visited for while there is anything in it. -/
theorem pop_load (hsound : s.Sound p) (hfits : Fits p s) (hload : 0 < s.load p control) :
    (s.pop p control now).1.load p control < s.load p control := by
  obtain ⟨key, hkey, hlane⟩ : ∃ key ∈ p.keys, s.lane key control ≠ [] := by
    by_contra hnone
    refine Nat.ne_of_gt hload (List.sum_eq_zero_iff_forall_eq_nat.mpr (fun load hmem => ?_))
    obtain ⟨key, hkey, rfl⟩ := List.mem_map.mp hmem
    have hempty : s.lane key control = [] := by_contra fun hne => hnone ⟨key, hkey, hne⟩
    simp [Scheduler.laneLoad, hempty]
  obtain ⟨i, hi, hplace⟩ := key_visited hkey s.cursor
  exact (popLoop_load (List.length_pos_of_mem hkey) hsound hfits).2 ⟨i, hi, hplace.symm ▸ hlane⟩

/-- No pop raises it, whatever its lane. -/
theorem pop_load_le (hsound : s.Sound p) (hfits : Fits p s) (lane : Bool) :
    (s.pop p control now).1.load p lane ≤ s.load p lane := by
  by_cases hsame : lane = control
  · subst hsame
    rcases Nat.eq_zero_or_pos p.keys.length with hnone | hkeys
    · unfold Scheduler.pop
      rw [hnone]
      exact Nat.le_refl _
    · exact (popLoop_load hkeys hsound hfits).1
  · have hkeeps : (∀ key, (s.pop p control now).1.lane key lane = s.lane key lane) ∧
        ∀ key, (s.pop p control now).1.deficit (key, lane) = s.deficit (key, lane) := by
      refine Scheduler.popLoop_keeps (P := fun t => (∀ key, t.lane key lane = s.lane key lane) ∧
        ∀ key, t.deficit (key, lane) = s.deficit (key, lane)) (fun t ht => ?_) ⟨fun _ => rfl, fun _ => rfl⟩
      obtain ⟨hlane, hdeficit⟩ := @visit_otherLane α _ p control now lane hsame t
      exact ⟨fun key => (hlane key).trans (ht.1 key), fun key => (hdeficit key).trans (ht.2 key)⟩
    have hloads : (s.pop p control now).1.laneLoad p lane = s.laneLoad p lane :=
      funext fun key => by rw [Scheduler.laneLoad, Scheduler.laneLoad, hkeeps.1, hkeeps.2]
    unfold Scheduler.load
    rw [hloads]

theorem Fits.pop (hfits : Fits p s) : Fits p (s.pop p control now).1 := by
  rcases Nat.eq_zero_or_pos p.keys.length with hnone | hkeys
  · unfold Scheduler.pop
    rw [hnone]
    exact hfits
  · exact Scheduler.popLoop_keeps (fun _ h => h.visit hkeys) hfits

/-- What no deficit pays for is never taken. -/
theorem oversize_visit (hcost : p.maxDeficit < item.cost) (h : item ∈ s.queued p) :
    item ∈ (s.visit p control now).1.queued p := by
  obtain ⟨key, hkey, hitem⟩ := mem_queued.mp h
  refine mem_queued.mpr ⟨key, hkey, ?_⟩
  rcases visit_cases p control now s with ⟨-, hvisit⟩ | ⟨other, -, ⟨-, hvisit⟩ | ⟨hpaid, hvisit⟩⟩
  · rw [hvisit]
    exact hitem
  · rw [hvisit]
    exact hitem
  · have hcredit := Nat.min_le_left p.maxDeficit
      (s.deficit (p.key s.cursor, control) + p.grant (p.key s.cursor))
    have hne : item ≠ other := by
      rintro rfl
      exact absurd (hpaid.trans hcredit) (Nat.not_le_of_lt hcost)
    rw [hvisit]
    simp only [Function.update_apply]
    split
    · rename_i hsame
      exact (List.mem_erase_of_ne hne).mpr (hsame ▸ hitem)
    · exact hitem

/-- Pops empty the queues of a scheduler exactly if the bound on the deficit pays for each item. -/
theorem drains_iff (hsound : s.Sound p) : Drains p s ↔ Fits p s := by
  constructor
  · rintro ⟨enough, hdrains⟩ item hitem
    by_contra hcost
    have hlanes : ∀ lane : Bool, enough ≤ (List.replicate enough (true, (0 : Int)) ++
        List.replicate enough (false, (0 : Int))).countP (fun pop => pop.1 == lane) := by
      intro lane
      cases lane <;> simp [List.countP_replicate]
    have hkept : item ∈ (s.run p ((List.replicate enough (true, (0 : Int)) ++
        List.replicate enough (false, (0 : Int))).map (fun pop => .pop pop.1 pop.2))).queued p := by
      refine Scheduler.run_keeps (P := fun t => item ∈ t.queued p) (fun t ht op hop => ?_) hitem
      obtain ⟨pop, -, rfl⟩ := List.mem_map.mp hop
      exact Scheduler.popLoop_keeps (P := fun t => item ∈ t.queued p)
        (fun _ h => oversize_visit (Nat.lt_of_not_le hcost) h) ht
    rw [hdrains _ hlanes] at hkept
    cases hkept
  · intro hfits
    refine ⟨s.load p true + s.load p false, fun pops henough => lanes_queued (fun key hkey lane => ?_)⟩
    refine load_zero ?_ hkey
    unfold Scheduler.run
    rw [List.foldl_map]
    have hkeeps : ∀ (t : Scheduler α) (pop : Bool × Int), t.Sound p ∧ Fits p t →
        (t.apply p (.pop pop.1 pop.2)).Sound p ∧ Fits p (t.apply p (.pop pop.1 pop.2)) :=
      fun t pop h => ⟨h.1.apply _, h.2.pop⟩
    have hless : ∀ (t : Scheduler α) (pop : Bool × Int), t.Sound p ∧ Fits p t → (pop.1 == lane) = true →
        0 < t.load p lane → (t.apply p (.pop pop.1 pop.2)).load p lane < t.load p lane := by
      rintro t ⟨control, now⟩ h hlane hload
      obtain rfl := beq_iff_eq.mp hlane
      exact pop_load h.1 h.2 hload
    refine Drain.run_zero hkeeps (fun t pop h => pop_load_le h.1 h.2 lane) hless ⟨hsound, hfits⟩ ?_
    refine Nat.le_trans ?_ (henough lane)
    cases lane <;> omega

/-- What is let in is returned once or still there, and what is returned is of the lane
that it is returned for. -/
structure Conserved (p : SchedulerProfile) (ops : List (SchedulerOp α)) : Prop where
  items : (((Scheduler.new α).popped p ops).map Prod.snd ++ ((Scheduler.new α).run p ops).queued p).Perm
    ((Scheduler.new α).admitted p ops)
  lanes : ∀ returned ∈ (Scheduler.new α).popped p ops, returned.2.workClass.control = returned.1
  deficits : ∀ lane, ((Scheduler.new α).run p ops).deficit lane ≤ p.maxDeficit

theorem apply_enqueue_queued (item : SchedulerItem α) (now : Int) :
    ((if p.keys.contains item.organizationId then [s.stamped item now] else []) ++ s.queued p).Perm
      ((s.apply p (.enqueue item now)).queued p) := by
  cases hadmitted : p.keys.contains item.organizationId with
  | false =>
    have hrefused : s.apply p (.enqueue item now) = s := by
      rw [Scheduler.apply, Scheduler.enqueue, hadmitted]
      rfl
    rw [hrefused]
    exact List.Perm.refl _
  | true =>
    have hqueues : (s.apply p (.enqueue item now)).queues = Function.update s.queues item.organizationId
        (s.queues item.organizationId ++ [s.stamped item now]) := by
      rw [Scheduler.apply, Scheduler.enqueue, hadmitted]
      rfl
    unfold Scheduler.queued
    rw [hqueues]
    refine (Drain.flatMap_perm p.tenants (List.contains_iff_mem.mp hadmitted) ?_
      (fun other hother => Function.update_of_ne hother _ _)).symm
    rw [Function.update_self]
    exact List.perm_append_comm

theorem pop_queued (s : Scheduler α) (p : SchedulerProfile) (control : Bool) (now : Int) :
    (s.queued p).Perm ((s.pop p control now).2.toList ++ (s.pop p control now).1.queued p) := by
  rcases Nat.eq_zero_or_pos p.keys.length with hnone | hkeys
  · unfold Scheduler.pop
    rw [hnone]
    exact List.Perm.refl _
  · exact popLoop_queued hkeys s

theorem run_conserves (s : Scheduler α) (ops : List (SchedulerOp α)) :
    ((s.popped p ops).map Prod.snd ++ (s.run p ops).queued p).Perm (s.queued p ++ s.admitted p ops) := by
  induction ops generalizing s with
  | nil => simp [Scheduler.popped, Scheduler.admitted, Scheduler.run]
  | cons op ops ih =>
    have hlater := ih (s.apply p op)
    cases op with
    | enqueue item now =>
      have hadmitted : s.admitted p (.enqueue item now :: ops) =
          (if p.keys.contains item.organizationId then [s.stamped item now] else []) ++
            (s.apply p (.enqueue item now)).admitted p ops := rfl
      rw [hadmitted, ← List.append_assoc]
      refine hlater.trans (List.Perm.append_right _ ?_)
      exact (apply_enqueue_queued item now).symm.trans List.perm_append_comm
    | pop control now =>
      have hpopped : (s.popped p (.pop control now :: ops)).map Prod.snd =
          (s.pop p control now).2.toList ++ ((s.apply p (.pop control now)).popped p ops).map Prod.snd := by
        rw [Scheduler.popped, List.map_append, List.map_map]
        simp [Function.comp_def]
      have hadmitted : s.admitted p (.pop control now :: ops) =
          (s.apply p (.pop control now)).admitted p ops := rfl
      rw [hpopped, hadmitted, List.append_assoc]
      refine (hlater.append_left _).trans ?_
      rw [← List.append_assoc]
      exact List.Perm.append_right _ (pop_queued s p control now).symm

theorem popped_lane (s : Scheduler α) (ops : List (SchedulerOp α)) :
    ∀ returned ∈ s.popped p ops, returned.2.workClass.control = returned.1 := by
  induction ops generalizing s with
  | nil => exact fun _ hreturned => nomatch hreturned
  | cons op ops ih =>
    cases op with
    | enqueue item now => exact ih _
    | pop control now =>
      intro returned hreturned
      rcases List.mem_append.mp hreturned with hfirst | hlater
      · obtain ⟨item, hitem, rfl⟩ := List.mem_map.mp hfirst
        exact popLoop_lane (Option.mem_toList.mp hitem)
      · exact ih _ returned hlater

/-- A scheduler keeps account of its items in every run, and drains exactly if none that is
queued costs more than the bound on the deficit. -/
theorem items_drain_iff (p : SchedulerProfile) (ops : List (SchedulerOp α)) :
    Conserved p ops ∧ (Drains p ((Scheduler.new α).run p ops) ↔ Fits p ((Scheduler.new α).run p ops)) := by
  have hsound : ((Scheduler.new α).run p ops).Sound p :=
    Scheduler.run_keeps (fun _ h op _ => h.apply op) (Scheduler.sound_new p)
  refine ⟨⟨?_, popped_lane _ ops, hsound.bounded⟩, drains_iff hsound⟩
  have hnone : (Scheduler.new α).queued p = [] := List.flatMap_eq_nil_iff.mpr fun _ _ => rfl
  have hall := run_conserves (p := p) (Scheduler.new α) ops
  rwa [hnone, List.nil_append] at hall

section Example

/-- Work that costs more than a tenant's credit can become. -/
def oversized : SchedulerItem Nat := { work "org-a" .background with cost := 101, positive := by decide }

/-- No number of pops returns it. -/
theorem oversized_undrained : ¬Drains evenly ((Scheduler.new Nat).run evenly [.enqueue oversized 0]) := by
  have hsound : ((Scheduler.new Nat).run evenly [.enqueue oversized 0]).Sound evenly :=
    Scheduler.run_keeps (fun _ h op _ => h.apply op) (Scheduler.sound_new evenly)
  intro hdrains
  have hcosts : ((Scheduler.new Nat).run evenly [.enqueue oversized 0]).queued evenly ≠ [] ∧
      ∀ item ∈ ((Scheduler.new Nat).run evenly [.enqueue oversized 0]).queued evenly, 100 < item.cost := by
    decide
  obtain ⟨item, hitem⟩ := List.exists_mem_of_ne_nil _ hcosts.1
  exact absurd ((drains_iff hsound).mp hdrains item hitem) (Nat.not_le_of_lt (hcosts.2 item hitem))

end Example

end Solvan.Scale
