import Solvan.Scale.Draining

/-! In what order the work of a tenant is served. -/
namespace Solvan.Scale

variable {α : Type u} {p : SchedulerProfile} {control : Bool} {now : Int} {key : String} {workClass : WorkClass}
  {queue : List (SchedulerItem α)} {item other : SchedulerItem α}

/-- Work that no scheduler has stamped. -/
def SchedulerOp.Fresh : SchedulerOp α → Prop
  | .enqueue item _ => item.tenantSequence = 0 ∧ item.enqueuedAt = none
  | .pop _ _ => True

/-- The clock of each enqueue. -/
def clocks (ops : List (SchedulerOp α)) : List Int :=
  ops.filterMap fun op => match op with
    | .enqueue _ now => some now
    | .pop _ _ => none

/-- Fresh work that comes while the clock of the enqueues does not go back. -/
structure Arrivals (ops : List (SchedulerOp α)) : Prop where
  fresh : ∀ op ∈ ops, op.Fresh
  forward : (clocks ops).Pairwise (· ≤ ·)

/-- One item was stamped before another. -/
structure SchedulerItem.Earlier (a b : SchedulerItem α) : Prop where
  sequence : a.tenantSequence < b.tenantSequence
  time : ∀ later ∈ b.enqueuedAt, ∃ earlier ∈ a.enqueuedAt, earlier ≤ later

/-- Queues in the order of their stamps, all of them before the stamps to come. -/
structure Scheduler.Filed (s : Scheduler α) (clock : List Int) : Prop where
  ordered : ∀ key, (s.queues key).Pairwise SchedulerItem.Earlier
  stamped : ∀ key, ∀ item ∈ s.queues key, item.tenantSequence < s.nextSequence ∧
    ∃ time, item.enqueuedAt = some time ∧ ∀ later ∈ clock, time ≤ later
  counting : 0 < s.nextSequence

/-- What waits of a tenant's work of one class. -/
def Scheduler.waitingOf (s : Scheduler α) (key : String) (workClass : WorkClass) : List (SchedulerItem α) :=
  (s.queues key).filter (fun item => item.workClass == workClass)

/-- Whether an item is a tenant's work of one class. -/
def SchedulerItem.isOf (key : String) (workClass : WorkClass) (item : SchedulerItem α) : Bool :=
  item.organizationId == key && item.workClass == workClass

/-- Nothing is before the first of the least. -/
theorem firstMin_least {β : Type u} {before : β → β → Bool} {l : List β} {a : β}
    (hasymm : ∀ a b, before a b = true → before b a = false)
    (hneg : ∀ a b c, before c a = true → before c b = true ∨ before b a = true)
    (h : firstMin before l = some a) : ∀ b ∈ l, before b a = false := by
  induction l generalizing a with
  | nil => cases h
  | cons first rest ih =>
    intro b hb
    unfold firstMin at h
    split at h
    · rename_i hnone
      obtain rfl := Option.some.inj h
      rw [firstMin_none.mp hnone] at hb
      obtain rfl := List.mem_singleton.mp hb
      rw [Bool.eq_false_iff]
      exact fun hself => Bool.eq_false_iff.mp (hasymm b b hself) hself
    · rename_i least hleast
      split at h
      · rename_i hbefore
        obtain rfl := Option.some.inj h
        obtain rfl | hmem := List.mem_cons.mp hb
        · exact hasymm _ _ hbefore
        · exact ih hleast b hmem
      · rename_i hnot
        obtain rfl := Option.some.inj h
        rw [Bool.eq_false_iff]
        intro hbefore
        obtain rfl | hmem := List.mem_cons.mp hb
        · exact Bool.eq_false_iff.mp (hasymm _ _ hbefore) hbefore
        · obtain hless | hless := hneg _ least b hbefore
          · exact Bool.eq_false_iff.mp (ih hleast b hmem) hless
          · exact hnot hless

/-- The sequence of what a lane serves next, against all that has waited as long as any may. -/
theorem itemForLane_aged (h : p.itemForLane queue control now = some item) (hother : other ∈ queue)
    (hlane : other.workClass.control = control) (haged : p.aged now other = true) :
    item.tenantSequence ≤ other.tenantSequence := by
  have hmem : other ∈ (queue.filter (fun item => item.workClass.control == control)).filter (p.aged now) := by
    rw [List.mem_filter, List.mem_filter, beq_iff_eq]
    exact ⟨⟨hother, hlane⟩, haged⟩
  unfold SchedulerProfile.itemForLane at h
  rw [if_neg (fun hempty => by rw [List.isEmpty_iff.mp hempty] at hmem; cases hmem)] at h
  have hleast := firstMin_least (fun a b hab => by simp only [decide_eq_true_eq, decide_eq_false_iff_not] at *; omega)
    (fun a b c hca => by simp only [decide_eq_true_eq] at *; omega) h other hmem
  exact Nat.le_of_not_lt (of_decide_eq_false hleast)

/-- Nothing of its class is before what a lane serves next. -/
theorem itemForLane_first (h : p.itemForLane queue control now = some item) (hother : other ∈ queue)
    (hclass : other.workClass = item.workClass) : ¬other.Earlier item := by
  intro hearlier
  have hcontrol := (mem_of_itemForLane h).2
  by_cases haged : p.aged now item = true
  · have hotherAged : p.aged now other = true := by
      obtain ⟨hwait, htime⟩ := Bool.and_eq_true_iff.mp haged
      obtain ⟨later, hlater, hlong⟩ := (Option.any_eq_true _ _).mp htime
      obtain ⟨earlier, hearly, hle⟩ := hearlier.time later hlater
      refine Bool.and_eq_true_iff.mpr ⟨hwait, (Option.any_eq_true _ _).mpr ⟨earlier, hearly, ?_⟩⟩
      simp only [decide_eq_true_eq] at hlong ⊢
      omega
    exact absurd (itemForLane_aged h hother (hclass ▸ hcontrol) hotherAged) (Nat.not_le_of_lt hearlier.sequence)
  · have hmem : other ∈ queue.filter (fun item => item.workClass.control == control) := by
      rw [List.mem_filter, beq_iff_eq]
      exact ⟨hother, hclass ▸ hcontrol⟩
    unfold SchedulerProfile.itemForLane at h
    dsimp only at h
    split at h
    · have hleast := firstMin_least
        (fun a b hab => by simp only [SchedulerItem.before, decide_eq_true_eq, decide_eq_false_iff_not] at *; omega)
        (fun a b c hca => by simp only [SchedulerItem.before, decide_eq_true_eq] at *; omega) h other hmem
      exact absurd (.inr ⟨congrArg WorkClass.order hclass, hearlier.sequence⟩) (of_decide_eq_false hleast)
    · exact haged (List.mem_filter.mp (firstMin_mem h)).2

variable [DecidableEq α] {s : Scheduler α} {clock : List Int} {ops : List (SchedulerOp α)}

/-- What a lane serves next is the first of its class, and taking it away leaves the rest in order. -/
theorem erase_waiting (hordered : queue.Pairwise SchedulerItem.Earlier)
    (h : p.itemForLane queue control now = some item) (workClass : WorkClass) :
    queue.filter (fun item => item.workClass == workClass) =
      [item].filter (fun item => item.workClass == workClass) ++
        (queue.erase item).filter (fun item => item.workClass == workClass) := by
  obtain ⟨before, after, hqueue⟩ := List.append_of_mem (mem_of_itemForLane h).1
  have hbefore : ∀ other ∈ before, other.Earlier item := by
    intro other hother
    rw [hqueue, List.pairwise_append] at hordered
    exact hordered.2.2 other hother item List.mem_cons_self
  have habsent : item ∉ before := fun hmem => Nat.lt_irrefl _ (hbefore item hmem).sequence
  have herase : queue.erase item = before ++ after := by
    rw [hqueue, List.erase_append_right _ habsent, List.erase_cons_head]
  rw [herase, hqueue, List.filter_append, List.filter_append, ← List.singleton_append, List.filter_append]
  by_cases hclass : item.workClass = workClass
  · have hnone : before.filter (fun item => item.workClass == workClass) = [] := by
      refine List.filter_eq_nil_iff.mpr fun other hother hsame => ?_
      refine itemForLane_first h ?_ ((beq_iff_eq.mp hsame).trans hclass.symm) (hbefore other hother)
      rw [hqueue]
      exact List.mem_append_left _ hother
    rw [hnone]
    rfl
  · have hnone : [item].filter (fun item => item.workClass == workClass) = [] := by
      refine List.filter_eq_nil_iff.mpr fun other hother hsame => ?_
      rw [List.mem_singleton.mp hother] at hsame
      exact hclass (beq_iff_eq.mp hsame)
    rw [hnone]
    rfl

omit [DecidableEq α] in
theorem Scheduler.Filed.weaken {later : List Int} (h : s.Filed clock) (hlater : ∀ time ∈ later, time ∈ clock) :
    s.Filed later where
  ordered := h.ordered
  stamped := fun key item hitem => by
    obtain ⟨hsequence, time, htime, hall⟩ := h.stamped key item hitem
    exact ⟨hsequence, time, htime, fun next hnext => hall next (hlater next hnext)⟩
  counting := h.counting

/-- A visit takes from a tenant's work of one class the first, or nothing. -/
theorem visit_waiting (hsound : s.Sound p) (hfiled : s.Filed clock) : (s.visit p control now).1.Filed clock ∧
    ∀ key workClass, s.waitingOf key workClass = (s.visit p control now).2.toList.filter (SchedulerItem.isOf key workClass) ++
      (s.visit p control now).1.waitingOf key workClass := by
  simp only [Scheduler.visit]
  split
  · exact ⟨⟨hfiled.ordered, hfiled.stamped, hfiled.counting⟩, fun _ _ => rfl⟩
  · rename_i item hitem
    split
    · exact ⟨⟨hfiled.ordered, hfiled.stamped, hfiled.counting⟩, fun _ _ => rfl⟩
    · have howner := hsound.owned _ item (mem_of_itemForLane hitem).1
      have hsublist : ∀ key, (Function.update s.queues (p.key s.cursor)
          ((s.queues (p.key s.cursor)).erase item) key).Sublist (s.queues key) := by
        intro key
        rw [Function.update_apply]
        split
        · rename_i hkey
          rw [hkey]
          exact List.erase_sublist
        · exact List.Sublist.refl _
      refine ⟨⟨fun key => (hfiled.ordered key).sublist (hsublist key),
        fun key other hother => hfiled.stamped key other ((hsublist key).subset hother), hfiled.counting⟩, ?_⟩
      intro key workClass
      unfold Scheduler.waitingOf
      dsimp only
      rw [Function.update_apply, Option.toList_some]
      split
      · rename_i hkey
        rw [hkey, erase_waiting (hfiled.ordered _) hitem workClass]
        congr 1
        refine List.filter_congr fun other hother => ?_
        rw [List.mem_singleton.mp hother, SchedulerItem.isOf, howner, beq_self_eq_true, Bool.true_and]
      · rename_i hkey
        have hnone : [item].filter (SchedulerItem.isOf key workClass) = [] := by
          refine List.filter_eq_nil_iff.mpr fun other hother hof => hkey ?_
          rw [List.mem_singleton.mp hother] at hof
          exact (beq_iff_eq.mp (Bool.and_eq_true_iff.mp hof).1).symm.trans howner
        rw [hnone, List.nil_append]

theorem popLoop_waiting {visits : Nat} (hsound : s.Sound p) (hfiled : s.Filed clock) :
    (s.popLoop p control now visits).1.Filed clock ∧ ∀ key workClass, s.waitingOf key workClass =
      (s.popLoop p control now visits).2.toList.filter (SchedulerItem.isOf key workClass) ++
        (s.popLoop p control now visits).1.waitingOf key workClass := by
  induction visits generalizing s with
  | zero => exact ⟨hfiled, fun _ _ => rfl⟩
  | succ visits ih =>
    have hkeeps := @Scheduler.Sound.visit α _ p s control now hsound
    obtain ⟨hfiled', hwaiting⟩ := @visit_waiting α p control now _ s clock hsound hfiled
    unfold Scheduler.popLoop
    rcases hcase : s.visit p control now with ⟨s', none | item⟩
    · rw [hcase] at hkeeps hfiled' hwaiting
      obtain ⟨hlater, hrest⟩ := ih hkeeps hfiled'
      exact ⟨hlater, fun key workClass => (hwaiting key workClass).trans (hrest key workClass)⟩
    · rw [hcase] at hfiled' hwaiting
      exact ⟨hfiled', hwaiting⟩

/-- What waits behind an item that is served and has waited as long as any may came after it. -/
theorem popLoop_aged {visits : Nat} (hfiled : s.Filed clock) (h : (s.popLoop p control now visits).2 = some item)
    (hother : other ∈ (s.popLoop p control now visits).1.queues item.organizationId) (hsound : s.Sound p)
    (hlane : other.workClass.control = control) (haged : p.aged now other = true) :
    item.tenantSequence < other.tenantSequence := by
  induction visits generalizing s with
  | zero => cases h
  | succ visits ih =>
    have hkeeps := @Scheduler.Sound.visit α _ p s control now hsound
    obtain ⟨hfiled', -⟩ := @visit_waiting α p control now _ s clock hsound hfiled
    unfold Scheduler.popLoop at h hother
    rcases hcase : s.visit p control now with ⟨s', none | served⟩
    · rw [hcase] at h hother hkeeps hfiled'
      exact ih hfiled' h hother hkeeps
    · rw [hcase] at h hother
      obtain rfl := Option.some.inj h
      simp only [Scheduler.visit] at hcase
      split at hcase
      · cases hcase
      · rename_i found hfound
        split at hcase
        · cases hcase
        · obtain ⟨rfl, hsome⟩ := Prod.mk.inj hcase
          obtain rfl := Option.some.inj hsome
          rw [hsound.owned _ found (mem_of_itemForLane hfound).1] at hother
          dsimp only at hother
          rw [Function.update_self] at hother
          have hle := itemForLane_aged hfound (List.mem_of_mem_erase hother) hlane haged
          obtain ⟨before, after, hqueue⟩ := List.append_of_mem (mem_of_itemForLane hfound).1
          have hordered := hfiled.ordered (p.key s.cursor)
          rw [hqueue, List.pairwise_append, List.pairwise_cons] at hordered
          have habsent : found ∉ before := fun hmem =>
            Nat.lt_irrefl _ (hordered.2.2 found hmem found List.mem_cons_self).sequence
          rw [hqueue, List.erase_append_right _ habsent, List.erase_cons_head] at hother
          obtain hbefore | hafter := List.mem_append.mp hother
          · exact absurd (hordered.2.2 other hbefore found List.mem_cons_self).sequence (Nat.not_lt_of_le hle)
          · exact (hordered.2.1.1 other hafter).sequence

theorem apply_enqueue (s : Scheduler α) (item : SchedulerItem α) (now : Int) : s.apply p (.enqueue item now) =
    if p.keys.contains item.organizationId then
      { s with
        queues := Function.update s.queues item.organizationId
          (s.queues item.organizationId ++ [s.stamped item now])
        nextSequence := if item.tenantSequence = 0 then s.nextSequence + 1 else s.nextSequence }
    else s := by
  rw [Scheduler.apply, Scheduler.enqueue]
  cases p.keys.contains item.organizationId <;> rfl

/-- Fresh work is filed behind all there is. -/
theorem Scheduler.Filed.enqueue (h : s.Filed (now :: clock)) (hforward : ∀ later ∈ clock, now ≤ later)
    (hsequence : item.tenantSequence = 0) (htime : item.enqueuedAt = none) :
    (s.apply p (.enqueue item now)).Filed clock := by
  have hlater : s.Filed clock := h.weaken fun time htime => List.mem_cons_of_mem _ htime
  rw [apply_enqueue]
  cases hadmitted : p.keys.contains item.organizationId with
  | false => exact hlater
  | true =>
    have hstamped : (s.stamped item now).tenantSequence = s.nextSequence ∧ (s.stamped item now).enqueuedAt = some now := by
      unfold Scheduler.stamped
      rw [hsequence, htime]
      exact ⟨rfl, rfl⟩
    rw [if_pos rfl, if_pos hsequence]
    refine ⟨fun key => ?_, fun key other hother => ?_, Nat.succ_pos _⟩
    · show (Function.update s.queues item.organizationId
        (s.queues item.organizationId ++ [s.stamped item now]) key).Pairwise SchedulerItem.Earlier
      rw [Function.update_apply]
      split
      · refine List.pairwise_append.mpr ⟨h.ordered _, List.pairwise_singleton _ _, fun old hold new hnew => ?_⟩
        obtain rfl := List.mem_singleton.mp hnew
        obtain ⟨hless, time, holdTime, hall⟩ := h.stamped _ old hold
        refine ⟨by rw [hstamped.1]; exact hless, fun later hlater => ⟨time, holdTime, ?_⟩⟩
        rw [hstamped.2] at hlater
        obtain rfl := Option.some.inj hlater
        exact hall _ List.mem_cons_self
      · exact h.ordered key
    · have hmem : other ∈ Function.update s.queues item.organizationId
        (s.queues item.organizationId ++ [s.stamped item now]) key := hother
      have hold : other ∈ s.queues key ∨ other = s.stamped item now := by
        rw [Function.update_apply] at hmem
        split at hmem
        · rename_i hkey
          rw [hkey]
          exact (List.mem_append.mp hmem).imp_right List.mem_singleton.mp
        · exact .inl hmem
      show other.tenantSequence < s.nextSequence + 1 ∧ _
      obtain hin | rfl := hold
      · obtain ⟨hless, hrest⟩ := hlater.stamped key other hin
        exact ⟨Nat.lt_succ_of_lt hless, hrest⟩
      · exact ⟨by rw [hstamped.1]; exact Nat.lt_succ_self _, now, hstamped.2, hforward⟩

/-- Work that is let in waits behind its own. -/
theorem enqueue_waiting (s : Scheduler α) (item : SchedulerItem α) (now : Int) (key : String) (workClass : WorkClass) :
    (s.apply p (.enqueue item now)).waitingOf key workClass = s.waitingOf key workClass ++
      (if p.keys.contains item.organizationId then [s.stamped item now] else []).filter
        (SchedulerItem.isOf key workClass) := by
  rw [apply_enqueue]
  unfold Scheduler.waitingOf
  cases hadmitted : p.keys.contains item.organizationId with
  | false => exact (List.append_nil _).symm
  | true =>
    show (Function.update s.queues item.organizationId
      (s.queues item.organizationId ++ [s.stamped item now]) key).filter _ = _ ++ [s.stamped item now].filter _
    rw [Function.update_apply]
    split
    · rename_i hkey
      rw [hkey, List.filter_append]
      congr 1
      refine List.filter_congr fun other hother => ?_
      rw [List.mem_singleton.mp hother, SchedulerItem.isOf]
      show _ = (item.organizationId == item.organizationId && _)
      rw [beq_self_eq_true, Bool.true_and]
    · rename_i hkey
      have hnone : [s.stamped item now].filter (SchedulerItem.isOf key workClass) = [] := by
        refine List.filter_eq_nil_iff.mpr fun other hother hof => hkey ?_
        rw [List.mem_singleton.mp hother] at hof
        exact (beq_iff_eq.mp (Bool.and_eq_true_iff.mp hof).1).symm
      rw [hnone, List.append_nil]

omit [DecidableEq α] in
theorem Arrivals.tail {op : SchedulerOp α} (h : Arrivals (op :: ops)) : Arrivals ops := by
  refine ⟨fun later hlater => h.fresh later (List.mem_cons_of_mem _ hlater), h.forward.sublist ?_⟩
  unfold clocks
  exact (List.sublist_cons_self op ops).filterMap _

/-- What waits, and what is let in, leaves in this order or is still there. -/
theorem run_waiting (hsound : s.Sound p) (hfiled : s.Filed (clocks ops)) (h : Arrivals ops) :
    (s.run p ops).Filed [] ∧ ∀ key workClass,
      s.waitingOf key workClass ++ (s.admitted p ops).filter (SchedulerItem.isOf key workClass) =
        ((s.popped p ops).map Prod.snd).filter (SchedulerItem.isOf key workClass) ++
          (s.run p ops).waitingOf key workClass := by
  induction ops generalizing s with
  | nil => exact ⟨hfiled, fun _ _ => List.append_nil _⟩
  | cons op ops ih =>
    cases op with
    | enqueue item now =>
      obtain ⟨hsequence, htime⟩ := h.fresh (.enqueue item now) List.mem_cons_self
      have hforward := List.pairwise_cons.mp (show (now :: clocks ops).Pairwise (· ≤ ·) from h.forward)
      have hnext : (s.apply p (.enqueue item now)).Filed (clocks ops) :=
        Scheduler.Filed.enqueue hfiled hforward.1 hsequence htime
      obtain ⟨hlast, hwaiting⟩ := ih (hsound.apply _) hnext h.tail
      refine ⟨hlast, fun key workClass => ?_⟩
      have hadmitted : s.admitted p (.enqueue item now :: ops) =
          (if p.keys.contains item.organizationId then [s.stamped item now] else []) ++
            (s.apply p (.enqueue item now)).admitted p ops := rfl
      rw [hadmitted, List.filter_append, ← List.append_assoc, ← enqueue_waiting s item now key workClass]
      exact hwaiting key workClass
    | pop control now =>
      obtain ⟨hnext, hserved⟩ := @popLoop_waiting α p control now _ s (clocks ops) p.keys.length hsound hfiled
      obtain ⟨hlast, hwaiting⟩ := ih (hsound.apply (.pop control now)) hnext h.tail
      refine ⟨hlast, fun key workClass => ?_⟩
      have hpopped : (s.popped p (.pop control now :: ops)).map Prod.snd =
          (s.pop p control now).2.toList ++ ((s.apply p (.pop control now)).popped p ops).map Prod.snd := by
        rw [Scheduler.popped, List.map_append, List.map_map]
        simp [Function.comp_def]
      rw [hpopped, List.filter_append, List.append_assoc, hserved key workClass, List.append_assoc]
      exact congrArg _ (hwaiting key workClass)

/-- In every run a tenant's work of one class is served in the order in which it came, and work that has waited as long
as any may is passed over for nothing of its lane that came after it. -/
theorem work_in_order (p : SchedulerProfile) (ops : List (SchedulerOp α)) (h : Arrivals ops) :
    (∀ key workClass, ((Scheduler.new α).admitted p ops).filter (SchedulerItem.isOf key workClass) =
      (((Scheduler.new α).popped p ops).map Prod.snd).filter (SchedulerItem.isOf key workClass) ++
        ((Scheduler.new α).run p ops).waitingOf key workClass) ∧
      ∀ control now item, (((Scheduler.new α).run p ops).pop p control now).2 = some item →
        ∀ other ∈ (((Scheduler.new α).run p ops).pop p control now).1.queues item.organizationId,
          other.workClass.control = control → p.aged now other = true → item.tenantSequence < other.tenantSequence := by
  have hnew : (Scheduler.new α).Filed (clocks ops) :=
    ⟨fun _ => List.Pairwise.nil, fun _ _ hitem => (nomatch hitem), Nat.one_pos⟩
  have hsound : ((Scheduler.new α).run p ops).Sound p :=
    Scheduler.run_keeps (fun _ h op _ => h.apply op) (Scheduler.sound_new p)
  obtain ⟨hfiled, hwaiting⟩ := run_waiting (Scheduler.sound_new p) hnew h
  refine ⟨fun key workClass => hwaiting key workClass, fun control now item hitem other hother hlane haged => ?_⟩
  exact popLoop_aged hfiled hitem hother hsound hlane haged

/-- Two questions of a tenant, and one pop. -/
def arriving : List (SchedulerOp Nat) :=
  [.enqueue (work "org-a" .interactiveAsk) 0, .enqueue (work "org-a" .interactiveAsk) 1, .pop false 2]

/-- The first is served first. -/
theorem arriving_in_order : ((Scheduler.new Nat).admitted evenly arriving).filter
      (SchedulerItem.isOf "org-a" .interactiveAsk) =
    (((Scheduler.new Nat).popped evenly arriving).map Prod.snd).filter (SchedulerItem.isOf "org-a" .interactiveAsk) ++
      ((Scheduler.new Nat).run evenly arriving).waitingOf "org-a" .interactiveAsk := by
  refine (work_in_order evenly arriving ⟨?_, by decide⟩).1 "org-a" .interactiveAsk
  exact List.forall_mem_cons.mpr ⟨⟨rfl, rfl⟩, List.forall_mem_cons.mpr ⟨⟨rfl, rfl⟩,
    List.forall_mem_cons.mpr ⟨trivial, fun _ h => (nomatch h)⟩⟩⟩

end Solvan.Scale
