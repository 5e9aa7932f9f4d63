import Solvan.Base.RoundRobin
import Solvan.Scale.Lanes
import Mathlib.Tactic.Ring

/-! What tenants with work in the queue are served, by their shares. -/
namespace Solvan.Scale
open Solvan.Base

variable {α : Type u} [DecidableEq α] {p : SchedulerProfile} {s : Scheduler α} {control : Bool}
  {now : Int} {key : String} {visits : Nat}

/-- What a tenant is served by an outcome. -/
def costTo (key : String) : Option (SchedulerItem α) → Nat
  | none => 0
  | some item => if item.organizationId = key then item.cost else 0

/-- What a tenant is served by the ordinary pops of a run. -/
def Scheduler.served (p : SchedulerProfile) (key : String) (s : Scheduler α)
    (ops : List (SchedulerOp α)) : Nat :=
  ((s.ordinaryPops p ops).map (costTo key)).sum

/-- What a visit's grant loses to the bound on the deficit. -/
def Scheduler.visitLoss (p : SchedulerProfile) (now : Int) (key : String) (s : Scheduler α) : Nat :=
  if p.key s.cursor = key ∧ (p.itemForLane (s.queues key) false now).isSome then
    s.deficit (key, false) + p.grant key - p.credit key (s.deficit (key, false))
  else 0

def Scheduler.popLoss (p : SchedulerProfile) (now : Int) (key : String) : Nat → Scheduler α → Nat
  | 0, _ => 0
  | visits + 1, s =>
    s.visitLoss p now key +
      match s.visit p false now with
      | (_, some _) => 0
      | (s, none) => popLoss p now key visits s

/-- The credit of a tenant's ordinary lane that a run cuts off. -/
def Scheduler.lost (p : SchedulerProfile) (key : String) : Scheduler α → List (SchedulerOp α) → Nat
  | _, [] => 0
  | s, .pop false now :: ops =>
    s.popLoss p now key p.keys.length + lost p key (s.apply p (.pop false now)) ops
  | s, op :: ops => lost p key (s.apply p op) ops

def SchedulerOp.controlPop : SchedulerOp α → Bool
  | .pop control _ => control
  | .enqueue _ _ => false

/-- A tenant has ordinary work, if it is a pop. -/
def Waiting (key : String) (s : Scheduler α) : SchedulerOp α → Prop
  | .pop _ _ => s.lane key false ≠ []
  | .enqueue _ _ => True

/-- A tenant has ordinary work at every pop of a run. -/
def Backlogged (p : SchedulerProfile) (key : String) : Scheduler α → List (SchedulerOp α) → Prop
  | _, [] => True
  | s, op :: ops => Waiting key s op ∧ Backlogged p key (s.apply p op) ops

/-- The scheduler after a run. -/
def Scheduler.run (p : SchedulerProfile) (s : Scheduler α) (ops : List (SchedulerOp α)) : Scheduler α :=
  ops.foldl (Scheduler.apply p) s

/-- What holds of every scheduler that is reached. -/
structure Scheduler.Sound (p : SchedulerProfile) (s : Scheduler α) : Prop where
  owned : ∀ key, ∀ item ∈ s.queues key, item.organizationId = key
  bounded : ∀ lane, s.deficit lane ≤ p.maxDeficit

omit [DecidableEq α] in
theorem Scheduler.sound_new (p : SchedulerProfile) : (Scheduler.new α).Sound p where
  owned := fun _ _ hitem => nomatch hitem
  bounded := fun _ => Nat.zero_le _

theorem update_le {deficit : String × Bool → Nat} {bound value : Nat} (h : ∀ lane, deficit lane ≤ bound)
    (hvalue : value ≤ bound) (at_ lane : String × Bool) : Function.update deficit at_ value lane ≤ bound := by
  rw [Function.update_apply]
  split
  · exact hvalue
  · exact h lane

theorem Scheduler.Sound.visit (h : s.Sound p) : ((s.visit p control now).1).Sound p := by
  have hcredit : ∀ key deficit, p.credit key deficit ≤ p.maxDeficit := fun _ _ => Nat.min_le_left _ _
  simp only [Scheduler.visit]
  split
  · exact ⟨h.owned, update_le h.bounded (Nat.zero_le _) _⟩
  · rename_i item hitem
    split
    · exact ⟨h.owned, update_le h.bounded (hcredit _ _) _⟩
    · refine ⟨fun key item hmem => ?_, update_le h.bounded ((Nat.sub_le _ _).trans (hcredit _ _)) _⟩
      simp only [Function.update_apply] at hmem
      split at hmem
      · rename_i hkey
        exact (h.owned _ item (List.mem_of_mem_erase hmem)).trans hkey.symm
      · exact h.owned key item hmem

theorem Scheduler.Sound.apply (h : s.Sound p) (op : SchedulerOp α) : (s.apply p op).Sound p := by
  cases op with
  | enqueue item now =>
    simp only [Scheduler.apply, Scheduler.enqueue]
    split
    · exact ⟨h.owned, h.bounded⟩
    · refine ⟨fun key queued hmem => ?_, h.bounded⟩
      simp only [Option.getD_some, Function.update_apply] at hmem
      split at hmem
      · rename_i hkey
        rcases List.mem_append.mp hmem with hold | hnew
        · exact (h.owned _ queued hold).trans hkey.symm
        · rw [List.mem_singleton.mp hnew]
          exact hkey.symm
      · exact h.owned key queued hmem
  | pop control now => exact Scheduler.popLoop_keeps (fun _ hsound => hsound.visit) h

/-- What every operation keeps, a run keeps. -/
theorem Scheduler.run_keeps {P : Scheduler α → Prop} {ops : List (SchedulerOp α)}
    (happly : ∀ s, P s → ∀ op ∈ ops, P (s.apply p op)) (h : P s) : P (s.run p ops) := by
  induction ops generalizing s with
  | nil => exact h
  | cons op ops ih =>
    exact ih (fun s hs later hlater => happly s hs later (List.mem_cons_of_mem _ hlater))
      (happly s h op List.mem_cons_self)

/-- A visit that serves nothing leaves every queue. -/
theorem visit_queues (h : (s.visit p control now).2 = none) :
    (s.visit p control now).1.queues = s.queues := by
  simp only [Scheduler.visit] at h ⊢
  split
  · rfl
  · rename_i item hitem
    simp only [hitem] at h
    split
    · rfl
    · rename_i hpaid
      rw [if_neg hpaid] at h
      cases h

/-- A visit moves the cursor on. -/
theorem visit_cursor : (s.visit p control now).1.cursor = (s.cursor + 1) % p.keys.length := by
  simp only [Scheduler.visit]
  split
  · rfl
  · split <;> rfl

/-- Where a tenant stands in the rotation. -/
def SchedulerProfile.place (p : SchedulerProfile) (key : String) : Nat := p.keys.idxOf key

theorem SchedulerProfile.place_lt (hkey : key ∈ p.keys) : p.place key < p.keys.length :=
  List.idxOf_lt_length_iff.mpr hkey

theorem SchedulerProfile.key_eq_place (hkey : key ∈ p.keys) (cursor : Nat) :
    p.key cursor = key ↔ cursor % p.keys.length = p.place key := by
  have hplace := SchedulerProfile.place_lt hkey
  have hat : p.key (p.place key) = key := by
    unfold SchedulerProfile.key
    rw [Nat.mod_eq_of_lt hplace, List.getD_eq_getElem _ _ hplace]
    exact List.getElem_idxOf hplace
  have hiff := SchedulerProfile.key_eq_iff (p := p) (Nat.zero_lt_of_lt hplace)
    (a := cursor) (b := p.place key)
  rw [hat, Nat.mod_eq_of_lt hplace] at hiff
  exact hiff

/-- A visit's grant is served, cut off or kept. -/
theorem visit_balance (h : s.Sound p) (hbacklog : s.lane key false ≠ []) :
    costTo key (s.visit p false now).2 + s.visitLoss p now key +
        (s.visit p false now).1.deficit (key, false) =
      s.deficit (key, false) + if p.key s.cursor = key then p.grant key else 0 := by
  by_cases hkey : p.key s.cursor = key
  · obtain ⟨item, hitem⟩ : ∃ item, p.itemForLane (s.queues key) false now = some item := by
      rw [← Option.ne_none_iff_exists']
      intro hnone
      refine hbacklog (List.filter_eq_nil_iff.mpr (fun item hmem => ?_))
      simpa using itemForLane_none hnone item hmem
    have howned := h.owned key item (mem_of_itemForLane hitem).1
    have hcredit : p.credit key (s.deficit (key, false)) ≤ s.deficit (key, false) + p.grant key :=
      Nat.min_le_right _ _
    simp only [Scheduler.visitLoss, Scheduler.visit, hkey, hitem, Option.isSome_some, and_self,
      if_true]
    split
    · simp only [costTo, Function.update_self]
      omega
    · simp only [costTo, howned, if_true, Function.update_self]
      omega
  · have hloss : s.visitLoss p now key = 0 := if_neg (fun hboth => hkey hboth.1)
    have hcost : costTo key (s.visit p false now).2 = 0 := by
      simp only [Scheduler.visit]
      split
      · rfl
      · rename_i item hitem
        have howned := h.owned _ item (mem_of_itemForLane hitem).1
        split
        · rfl
        · simp only [costTo, howned, hkey, if_false]
    rw [hloss, hcost, (s.visit_other (fun heq => hkey heq.symm) false).2, if_neg hkey]
    omega

theorem popLoop_balance (hs : s.Sound p) (hw : s.Wound p) :
    ∃ count, (s.popLoop p false now visits).1.cursor = (s.cursor + count) % p.keys.length ∧
      ∀ key ∈ p.keys, s.lane key false ≠ [] →
        costTo key (s.popLoop p false now visits).2 + s.popLoss p now key visits +
            (s.popLoop p false now visits).1.deficit (key, false) =
          s.deficit (key, false) +
            p.grant key * turns p.keys.length (p.place key) s.cursor count := by
  induction visits generalizing s with
  | zero =>
    refine ⟨0, hw.cursor.symm, fun key _ _ => ?_⟩
    simp [Scheduler.popLoop, Scheduler.popLoss, costTo, turns]
  | succ visits ih =>
    have hbalance : ∀ key ∈ p.keys, s.lane key false ≠ [] →
        costTo key (s.visit p false now).2 + s.visitLoss p now key +
            (s.visit p false now).1.deficit (key, false) =
          s.deficit (key, false) + p.grant key * turns p.keys.length (p.place key) s.cursor 1 := by
      intro key hkey hbacklog
      rw [visit_balance hs hbacklog]
      simp [turns, SchedulerProfile.key_eq_place hkey]
    have hcursor : (s.visit p false now).1.cursor = (s.cursor + 1) % p.keys.length := visit_cursor
    have hqueues : (s.visit p false now).2 = none → (s.visit p false now).1.queues = s.queues :=
      visit_queues
    have hsound : (s.visit p false now).1.Sound p := hs.visit
    have hwound : (s.visit p false now).1.Wound p := hw.visit
    unfold Scheduler.popLoop Scheduler.popLoss
    rcases hvisit : s.visit p false now with ⟨s', none | item⟩
    · rw [hvisit] at hbalance hcursor hqueues hsound hwound
      obtain ⟨count, hlater, hrest⟩ := ih hsound hwound
      simp only at hcursor
      refine ⟨1 + count, ?_, fun key hkey hbacklog => ?_⟩
      · simp only [hlater]
        rw [hcursor, Nat.mod_add_mod, Nat.add_assoc]
      · have hlane : s'.lane key false ≠ [] := by
          simp only at hqueues
          unfold Scheduler.lane
          rw [hqueues trivial]
          exact hbacklog
        have hfirst := hbalance key hkey hbacklog
        have hlast := hrest key hkey hlane
        rw [hcursor, turns_mod] at hlast
        rw [turns_append, Nat.mul_add]
        simp only [costTo, Nat.zero_add] at hfirst
        dsimp only at hlast ⊢
        omega
    · rw [hvisit] at hbalance hcursor
      exact ⟨1, hcursor, hbalance⟩

theorem Scheduler.served_enqueue (item : SchedulerItem α) (ops : List (SchedulerOp α)) :
    s.served p key (.enqueue item now :: ops) = (s.apply p (.enqueue item now)).served p key ops := rfl

theorem Scheduler.served_pop (ops : List (SchedulerOp α)) :
    s.served p key (.pop false now :: ops) =
      costTo key (s.pop p false now).2 + (s.apply p (.pop false now)).served p key ops := rfl

/-- What a tenant's lane is granted in a run is served, cut off or kept. -/
theorem run_balance {ops : List (SchedulerOp α)} (hs : s.Sound p) (hw : s.Wound p)
    (hordinary : ∀ op ∈ ops, op.controlPop = false) :
    ∃ count, ∀ key ∈ p.keys, Backlogged p key s ops →
      s.served p key ops + s.lost p key ops + (s.run p ops).deficit (key, false) =
        s.deficit (key, false) + p.grant key * turns p.keys.length (p.place key) s.cursor count := by
  induction ops generalizing s with
  | nil => exact ⟨0, fun key _ _ => by simp [Scheduler.served, Scheduler.ordinaryPops,
      Scheduler.lost, Scheduler.run, turns]⟩
  | cons op ops ih =>
    obtain ⟨later, hrest⟩ := ih (hs.apply op) (hw.apply op)
      (fun later hlater => hordinary later (List.mem_cons_of_mem _ hlater))
    cases op with
    | enqueue item now =>
      have hsame : (s.apply p (.enqueue item now)).deficit = s.deficit ∧
          (s.apply p (.enqueue item now)).cursor = s.cursor := by
        simp only [Scheduler.apply, Scheduler.enqueue]
        split <;> exact ⟨rfl, rfl⟩
      rw [hsame.1, hsame.2] at hrest
      exact ⟨later, fun key hkey hbacklog => hrest key hkey hbacklog.2⟩
    | pop control now =>
      obtain rfl : control = false := hordinary _ List.mem_cons_self
      obtain ⟨count, hcursor, hpop⟩ := @popLoop_balance _ _ p s now p.keys.length hs hw
      refine ⟨count + later, fun key hkey hbacklog => ?_⟩
      have hfirst := hpop key hkey hbacklog.1
      have hlast := hrest key hkey hbacklog.2
      have hat : (s.apply p (.pop false now)).cursor = (s.cursor + count) % p.keys.length := hcursor
      rw [hat, turns_mod] at hlast
      rw [Scheduler.served_pop, turns_append, Nat.mul_add]
      simp only [Scheduler.lost, Scheduler.run, List.foldl_cons] at hlast ⊢
      simp only [Scheduler.apply, Scheduler.pop] at hfirst hlast ⊢
      omega

/-- The shares of two backlogged tenants are served alike, but for what is cut off. -/
theorem served_alike {ops : List (SchedulerOp α)} {a b : String} (hs : s.Sound p) (hw : s.Wound p)
    (hordinary : ∀ op ∈ ops, op.controlPop = false) (ha : a ∈ p.keys) (hb : b ∈ p.keys)
    (hbacka : Backlogged p a s ops) (hbackb : Backlogged p b s ops) :
    p.weight b * (s.served p a ops + s.lost p a ops) ≤
      p.weight a * (s.served p b ops + s.lost p b ops) +
        (p.baseQuantum * p.weight a * p.weight b + p.maxDeficit * (p.weight a + p.weight b)) := by
  obtain ⟨count, hbalance⟩ := run_balance hs hw hordinary
  have hround : turns p.keys.length (p.place a) s.cursor count ≤
      turns p.keys.length (p.place b) s.cursor count + 1 :=
    turns_le (SchedulerProfile.place_lt ha) (SchedulerProfile.place_lt hb)
  have hearned := hbalance a ha hbacka
  have hearned' := hbalance b hb hbackb
  have hstart := hs.bounded (a, false)
  have hkept : (s.run p ops).deficit (b, false) ≤ p.maxDeficit :=
    (Scheduler.run_keeps (fun _ hsound op _ => hsound.apply op) hs).bounded (b, false)
  unfold SchedulerProfile.grant at hearned hearned'
  generalize turns p.keys.length (p.place a) s.cursor count = turnsA at *
  generalize turns p.keys.length (p.place b) s.cursor count = turnsB at *
  calc p.weight b * (s.served p a ops + s.lost p a ops)
      ≤ p.weight b * (p.maxDeficit + p.baseQuantum * p.weight a * (turnsB + 1)) := by
        refine Nat.mul_le_mul_left _ ?_
        have hmore := Nat.mul_le_mul_left (p.baseQuantum * p.weight a) hround
        omega
    _ = p.weight a * (p.baseQuantum * p.weight b * turnsB) +
          (p.baseQuantum * p.weight a * p.weight b + p.maxDeficit * p.weight b) := by ring
    _ ≤ p.weight a * (s.served p b ops + s.lost p b ops + p.maxDeficit) +
          (p.baseQuantum * p.weight a * p.weight b + p.maxDeficit * p.weight b) := by
        refine Nat.add_le_add_right (Nat.mul_le_mul_left _ ?_) _
        omega
    _ = p.weight a * (s.served p b ops + s.lost p b ops) +
          (p.baseQuantum * p.weight a * p.weight b + p.maxDeficit * (p.weight a + p.weight b)) := by
        ring

/-- Work that a tenant's grants pay for at no loss: no item costs less than a grant, and the
dearest comes within the bound while a grant still fits. -/
def SchedulerProfile.Paced (p : SchedulerProfile) (key : String) (item : SchedulerItem α) : Prop :=
  p.grant key ≤ item.cost ∧ item.cost + p.grant key ≤ p.maxDeficit + 1

/-- A lane that loses nothing at its next visit, and has only work of that kind. -/
structure Lossless (p : SchedulerProfile) (key : String) (s : Scheduler α) : Prop where
  room : s.deficit (key, false) + p.grant key ≤ p.maxDeficit
  paced : ∀ item ∈ s.queues key, item.workClass.control = false → p.Paced key item

theorem Lossless.visit (h : Lossless p key s) (hgrant : p.grant key ≤ p.maxDeficit) :
    Lossless p key (s.visit p control now).1 := by
  have hcredit : p.credit key (s.deficit (key, false)) = s.deficit (key, false) + p.grant key :=
    Nat.min_eq_right h.room
  by_cases hkey : p.key s.cursor = key
  · cases control with
    | true =>
      refine ⟨?_, ?_⟩
      · have hdeficit := (visit_control s p now).2.1 key
        rw [hdeficit]
        exact h.room
      · intro item hitem hcontrol
        refine h.paced item ?_ hcontrol
        have hlane := (visit_control s p now).1 key
        have hin : item ∈ (s.visit p true now).1.lane key false :=
          List.mem_filter.mpr ⟨hitem, by simp [hcontrol]⟩
        rw [hlane] at hin
        exact List.mem_of_mem_filter hin
    | false =>
      simp only [Scheduler.visit, hkey]
      split
      · refine ⟨?_, h.paced⟩
        simpa using hgrant
      · rename_i item hitem
        obtain ⟨hmem, hcontrol⟩ := mem_of_itemForLane hitem
        obtain ⟨hatleast, hatmost⟩ := h.paced item hmem hcontrol
        rw [hcredit]
        split
        · refine ⟨?_, h.paced⟩
          simp only [Function.update_self]
          omega
        · refine ⟨?_, fun item hitem => h.paced item ?_⟩
          · have hroom := h.room
            simp only [Function.update_self]
            omega
          · simp only [Function.update_self] at hitem
            exact List.mem_of_mem_erase hitem
  · obtain ⟨hqueue, hdeficit⟩ : (s.visit p control now).1.queues key = s.queues key ∧
        (s.visit p control now).1.deficit (key, false) = s.deficit (key, false) :=
      s.visit_other (fun heq => hkey heq.symm) false
    refine ⟨?_, ?_⟩
    · rw [hdeficit]
      exact h.room
    · rw [hqueue]
      exact h.paced

omit [DecidableEq α] in
theorem Lossless.visitLoss (h : Lossless p key s) : s.visitLoss p now key = 0 := by
  have hcredit : p.credit key (s.deficit (key, false)) = s.deficit (key, false) + p.grant key :=
    Nat.min_eq_right h.room
  unfold Scheduler.visitLoss
  rw [hcredit, Nat.sub_self, ite_self]

theorem Lossless.popLoss (h : Lossless p key s) (hgrant : p.grant key ≤ p.maxDeficit) :
    s.popLoss p now key visits = 0 := by
  induction visits generalizing s with
  | zero => rfl
  | succ visits ih =>
    have hnext : Lossless p key (s.visit p false now).1 := h.visit hgrant
    unfold Scheduler.popLoss
    rw [h.visitLoss, Nat.zero_add]
    split
    · rfl
    · rename_i s' heq
      rw [heq] at hnext
      exact ih hnext

/-- What a tenant asks for ordinary service. -/
def SchedulerProfile.PacedOp (p : SchedulerProfile) (key : String) : SchedulerOp α → Prop
  | .enqueue item _ =>
    item.organizationId = key → item.workClass.control = false → p.Paced key item
  | .pop _ _ => True

theorem Lossless.apply (h : Lossless p key s) (hgrant : p.grant key ≤ p.maxDeficit) {op : SchedulerOp α}
    (hop : p.PacedOp key op) : Lossless p key (s.apply p op) := by
  cases op with
  | enqueue item now =>
    simp only [Scheduler.apply, Scheduler.enqueue]
    split
    · exact h
    · refine ⟨h.room, fun queued hmem hcontrol => ?_⟩
      simp only [Option.getD_some, Function.update_apply] at hmem
      split at hmem
      · rename_i hkey
        rcases List.mem_append.mp hmem with hold | hnew
        · exact h.paced queued (hkey ▸ hold) hcontrol
        · rw [List.mem_singleton.mp hnew] at hcontrol ⊢
          exact hop hkey.symm hcontrol
      · exact h.paced queued hmem hcontrol
  | pop control now => exact Scheduler.popLoop_keeps (fun _ hlossless => hlossless.visit hgrant) h

theorem Lossless.lost {ops : List (SchedulerOp α)} (h : Lossless p key s)
    (hgrant : p.grant key ≤ p.maxDeficit) (hops : ∀ op ∈ ops, p.PacedOp key op) :
    s.lost p key ops = 0 := by
  induction ops generalizing s with
  | nil => rfl
  | cons op ops ih =>
    have hnext := ih (h.apply hgrant (hops op List.mem_cons_self))
      (fun later hlater => hops later (List.mem_cons_of_mem _ hlater))
    cases op with
    | enqueue item now => exact hnext
    | pop control now =>
      cases control with
      | false =>
        simp only [Scheduler.lost]
        rw [h.popLoss hgrant, hnext]
      | true => exact hnext

/-- What two tenants with work at every pop are served keeps to their shares, but for the
credit that is cut off. None is, where their work is paced. -/
theorem shares_served {a b : String} {before ops : List (SchedulerOp α)} (ha : a ∈ p.keys)
    (hb : b ∈ p.keys) (hordinary : ∀ op ∈ ops, op.controlPop = false)
    (hbacka : Backlogged p a ((Scheduler.new α).run p before) ops)
    (hbackb : Backlogged p b ((Scheduler.new α).run p before) ops) :
    let s := (Scheduler.new α).run p before
    let bound := p.baseQuantum * p.weight a * p.weight b + p.maxDeficit * (p.weight a + p.weight b)
    p.weight b * (s.served p a ops + s.lost p a ops) ≤
        p.weight a * (s.served p b ops + s.lost p b ops) + bound ∧
      ((∀ key, key = a ∨ key = b →
          p.grant key ≤ p.maxDeficit ∧ ∀ op ∈ before ++ ops, p.PacedOp key op) →
        p.weight b * s.served p a ops ≤ p.weight a * s.served p b ops + bound) := by
  intro s bound
  have hsound : s.Sound p :=
    Scheduler.run_keeps (fun _ hsound op _ => hsound.apply op) (Scheduler.sound_new p)
  have hwound : s.Wound p :=
    Scheduler.run_keeps (P := Scheduler.Wound p) (fun _ hwound op _ => hwound.apply op)
      ⟨Nat.zero_mod _, Nat.zero_lt_one⟩
  have halike := served_alike hsound hwound hordinary ha hb hbacka hbackb
  refine ⟨halike, fun hpaced => ?_⟩
  have hlost : ∀ key, key = a ∨ key = b → s.lost p key ops = 0 := by
    intro key hkey
    obtain ⟨hgrant, hops⟩ := hpaced key hkey
    have hstart : Lossless p key (Scheduler.new α) :=
      ⟨(Nat.zero_add _).trans_le hgrant, fun _ hitem => nomatch hitem⟩
    have hreached : Lossless p key s :=
      Scheduler.run_keeps (fun _ hlossless op hop =>
        hlossless.apply hgrant (hops op (List.mem_append_left _ hop))) hstart
    exact hreached.lost hgrant (fun op hop => hops op (List.mem_append_right _ hop))
  rw [hlost a (.inl rfl), hlost b (.inr rfl)] at halike
  exact halike

theorem Scheduler.run_append (first second : List (SchedulerOp α)) :
    s.run p (first ++ second) = (s.run p first).run p second := List.foldl_append

theorem Scheduler.ordinaryPops_append (first second : List (SchedulerOp α)) :
    s.ordinaryPops p (first ++ second) =
      s.ordinaryPops p first ++ (s.run p first).ordinaryPops p second := by
  induction first generalizing s with
  | nil => rfl
  | cons op ops ih =>
    cases op with
    | enqueue item now => exact ih
    | pop control now =>
      cases control with
      | true => exact ih
      | false => exact congrArg (List.cons _) ih

theorem Scheduler.served_append (first second : List (SchedulerOp α)) :
    s.served p key (first ++ second) = s.served p key first + (s.run p first).served p key second := by
  unfold Scheduler.served
  rw [Scheduler.ordinaryPops_append, List.map_append, List.sum_append]

theorem Backlogged.append {first second : List (SchedulerOp α)} (hfirst : Backlogged p key s first)
    (hsecond : Backlogged p key (s.run p first) second) : Backlogged p key s (first ++ second) := by
  induction first generalizing s with
  | nil => exact hsecond
  | cons op ops ih => exact ⟨hfirst.1, ih hfirst.2 hsecond⟩

/-- The tenant at the cursor is served what it can pay for. -/
theorem pop_paid (item : SchedulerItem α) (hkeys : 0 < p.keys.length)
    (hitem : p.itemForLane (s.queues (p.key s.cursor)) control now = some item)
    (hpaid : item.cost ≤ p.credit (p.key s.cursor) (s.deficit (p.key s.cursor, control))) :
    s.pop p control now =
      ({ s with
          queues := Function.update s.queues (p.key s.cursor) ((s.queues (p.key s.cursor)).erase item)
          deficit := Function.update s.deficit (p.key s.cursor, control)
            (p.credit (p.key s.cursor) (s.deficit (p.key s.cursor, control)) - item.cost)
          cursor := (s.cursor + 1) % p.keys.length }, some item) := by
  obtain ⟨visits, hvisits⟩ := Nat.exists_eq_succ_of_ne_zero (Nat.pos_iff_ne_zero.mp hkeys)
  unfold Scheduler.pop
  rw [hvisits]
  simp only [Nat.succ_eq_add_one, Scheduler.popLoop, Scheduler.visit, hitem,
    if_neg (Nat.not_lt.mpr hpaid)]
  rw [hvisits]

section Example

/-- Ten shares to one. -/
def unevenly : SchedulerProfile where
  assuredShare := [("org-a", 10), ("org-b", 1)]
  controlReserve := 1
  baseQuantum := 1
  maxDeficit := 100
  maximumWaitSeconds := 0
  tenants := by decide
  shares := by decide
  quantum := evenly.quantum
  bounded := base_bounded

/-- Work of cost one with its place in the queue given. -/
def unit (organization : String) : SchedulerItem Nat :=
  { work organization .interactiveAsk with tenantSequence := 1 }

/-- The item of a tenant as it waits. -/
def waiting (organization : String) : SchedulerItem Nat :=
  { unit organization with enqueuedAt := some 0 }

/-- A tenant has one more item, and one is served. -/
def serving (organization : String) : List (SchedulerOp Nat) :=
  [.enqueue (unit organization) 0, .pop false 0]

def rounds : Nat → List (SchedulerOp Nat)
  | 0 => []
  | n + 1 => serving "org-a" ++ serving "org-b" ++ rounds n

theorem enqueue_unit {s : Scheduler Nat} {organization : String} (hadmitted : organization ∈ unevenly.keys)
    (hqueue : s.queues organization = [waiting organization]) :
    s.apply unevenly (.enqueue (unit organization) 0) =
      { s with
        queues := Function.update s.queues organization [waiting organization, waiting organization] } := by
  have hcontains : unevenly.keys.contains (unit organization).organizationId = true :=
    List.contains_iff_mem.mpr hadmitted
  have hlonger : [waiting organization, waiting organization] =
      s.queues organization ++ [waiting organization] := by
    rw [hqueue]
    rfl
  simp only [Scheduler.apply, Scheduler.enqueue, hcontains, Bool.not_true]
  rw [hlonger]
  rfl

theorem lane_waiting {s : Scheduler Nat} {organization : String} {items : List (SchedulerItem Nat)}
    (h : s.queues organization = waiting organization :: items) : s.lane organization false ≠ [] := by
  unfold Scheduler.lane
  rw [h, List.filter_cons_of_pos rfl]
  exact List.cons_ne_nil _ _

/-- One item of each waits, and it is the turn of a tenant that can pay. -/
structure Due (organization : String) (s : Scheduler Nat) : Prop where
  queue : ∀ key ∈ unevenly.keys, s.queues key = [waiting key]
  key : unevenly.key s.cursor = organization
  admitted : organization ∈ unevenly.keys
  paid : 1 ≤ unevenly.credit organization (s.deficit (organization, false))

/-- The scheduler after a tenant's turn. -/
def turned (organization : String) (s : Scheduler Nat) : Scheduler Nat :=
  { s with
    deficit := Function.update s.deficit (organization, false)
      (unevenly.credit organization (s.deficit (organization, false)) - 1)
    cursor := (s.cursor + 1) % 2 }

theorem turned_deficit (organization : String) (s : Scheduler Nat) :
    (turned organization s).deficit (organization, false) =
      unevenly.credit organization (s.deficit (organization, false)) - 1 := by
  unfold turned
  exact Function.update_self _ _ _

theorem Due.pop {s : Scheduler Nat} {organization : String} (h : Due organization s) :
    (s.apply unevenly (.enqueue (unit organization) 0)).pop unevenly false 0 =
      (turned organization s, some (waiting organization)) := by
  have hqueue := h.queue organization h.admitted
  have hback : Function.update s.queues organization [waiting organization] = s.queues := by
    rw [← hqueue, Function.update_eq_self]
  rw [enqueue_unit h.admitted hqueue, pop_paid (waiting organization) (by decide)]
  · simp only [h.key, Function.update_self, Function.update_idem, List.erase_cons_head, hback]
    rfl
  · simp only [h.key, Function.update_self]
    rfl
  · rw [h.key]
    exact h.paid

theorem Due.serving {s : Scheduler Nat} {organization : String} (h : Due organization s) :
    s.run unevenly (serving organization) = turned organization s ∧
      s.ordinaryPops unevenly (serving organization) = [some (waiting organization)] ∧
      ∀ key ∈ unevenly.keys, Backlogged unevenly key s (serving organization) := by
  refine ⟨congrArg Prod.fst h.pop, congrArg (fun popped : Scheduler Nat × Option (SchedulerItem Nat) => [popped.2]) h.pop,
    fun key hkey => ?_⟩
  refine ⟨trivial, ?_, trivial⟩
  have hqueue := h.queue key hkey
  rw [enqueue_unit h.admitted (h.queue organization h.admitted)]
  by_cases hsame : key = organization
  · rw [hsame]
    exact lane_waiting (Function.update_self _ _ _)
  · exact lane_waiting ((Function.update_of_ne hsame _ _).trans hqueue)

/-- One item of each waits, and the second tenant has no credit. -/
structure Even (s : Scheduler Nat) : Prop where
  queue : ∀ key ∈ unevenly.keys, s.queues key = [waiting key]
  deficit : s.deficit ("org-b", false) = 0
  cursor : s.cursor = 0

theorem Even.due {s : Scheduler Nat} (h : Even s) :
    Due "org-a" s ∧ Due "org-b" (turned "org-a" s) ∧ Even (turned "org-b" (turned "org-a" s)) := by
  have hdeficit : (turned "org-a" s).deficit ("org-b", false) = 0 := by
    have hother : (("org-b", false) : String × Bool) ≠ ("org-a", false) := by decide
    rw [← h.deficit, turned]
    exact Function.update_of_ne hother (unevenly.credit "org-a" (s.deficit ("org-a", false)) - 1) _
  have hcursor : (turned "org-a" s).cursor = 1 := by
    unfold turned
    rw [h.cursor]
  refine ⟨⟨h.queue, ?_, by decide, ?_⟩, ⟨h.queue, ?_, by decide, ?_⟩, ⟨h.queue, ?_, ?_⟩⟩
  · rw [h.cursor]
    rfl
  · exact Nat.le_min.mpr ⟨by decide, Nat.le_add_left_of_le (by decide)⟩
  · rw [hcursor]
    rfl
  · rw [hdeficit]
    decide
  · have hspent : unevenly.credit "org-b" 0 - 1 = 0 := rfl
    rw [← hspent, ← hdeficit]
    exact turned_deficit "org-b" _
  · rw [turned, hcursor]

/-- Both tenants are served once a round. -/
theorem Even.rounds {s : Scheduler Nat} (h : Even s) (n : Nat) :
    s.served unevenly "org-a" (rounds n) = n ∧ s.served unevenly "org-b" (rounds n) = n ∧
      (∀ op ∈ rounds n, op.controlPop = false) ∧
      ∀ key ∈ unevenly.keys, Backlogged unevenly key s (rounds n) := by
  induction n generalizing s with
  | zero => exact ⟨rfl, rfl, by simp [Scale.rounds], fun _ _ => trivial⟩
  | succ n ih =>
    obtain ⟨hfirst, hsecond, heven⟩ := h.due
    obtain ⟨hrun, hpops, hbacklog⟩ := hfirst.serving
    obtain ⟨hrun', hpops', hbacklog'⟩ := hsecond.serving
    obtain ⟨hserved, hserved', hordinary, hrest⟩ := ih heven
    have hboth : s.run unevenly (Scale.serving "org-a" ++ Scale.serving "org-b") =
        turned "org-b" (turned "org-a" s) := by
      rw [Scheduler.run_append, hrun, hrun']
    have hcost : s.served unevenly "org-a" (Scale.serving "org-a" ++ Scale.serving "org-b") = 1 ∧
        s.served unevenly "org-b" (Scale.serving "org-a" ++ Scale.serving "org-b") = 1 := by
      rw [Scheduler.served_append, Scheduler.served_append, hrun]
      unfold Scheduler.served
      rw [hpops, hpops']
      decide
    refine ⟨?_, ?_, ?_, fun key hkey => ?_⟩
    · rw [Scale.rounds, Scheduler.served_append, hboth, hserved, hcost.1, Nat.add_comm]
    · rw [Scale.rounds, Scheduler.served_append, hboth, hserved', hcost.2, Nat.add_comm]
    · intro op hop
      rcases List.mem_append.mp hop with hnow | hlater
      · have hboth : ∀ op ∈ Scale.serving "org-a" ++ Scale.serving "org-b",
            op.controlPop = false := by decide
        exact hboth op hnow
      · exact hordinary op hlater
    · refine Backlogged.append (Backlogged.append (hbacklog key hkey) ?_) ?_
      · rw [hrun]
        exact hbacklog' key hkey
      · rw [hboth]
        exact hrest key hkey

instance (key : String) (s : Scheduler α) (op : SchedulerOp α) : Decidable (Waiting key s op) :=
  match op with
  | .pop _ _ => inferInstanceAs (Decidable (s.lane key false ≠ []))
  | .enqueue _ _ => isTrue trivial

instance (key : String) (op : SchedulerOp α) : Decidable (p.PacedOp key op) :=
  match op with
  | .enqueue _ _ => inferInstanceAs (Decidable (_ = _ → _ = _ → _ ≤ _ ∧ _ ≤ _))
  | .pop _ _ => isTrue trivial

instance decidableBacklogged (key : String) :
    (s : Scheduler α) → (ops : List (SchedulerOp α)) → Decidable (Backlogged p key s ops)
  | _, [] => isTrue trivial
  | s, op :: ops =>
    have := decidableBacklogged key (s.apply p op) ops
    inferInstanceAs (Decidable (Waiting key s op ∧ Backlogged p key (s.apply p op) ops))

/-- What each tenant has in its queue to begin with. -/
def queued : List (SchedulerOp Nat) :=
  [.enqueue (unit "org-a") 0, .enqueue (unit "org-b") 0]

/-- Each tenant is served once. -/
def onceEach : List (SchedulerOp Nat) := serving "org-a" ++ serving "org-b"

def SchedulerOp.cost : SchedulerOp α → Nat
  | .enqueue item _ => item.cost
  | .pop _ _ => 0

theorem shares_served_evenly :
    ((Scheduler.new Nat).run evenly queued).served evenly "org-a" onceEach = 1 ∧
      evenly.weight "org-b" * ((Scheduler.new Nat).run evenly queued).served evenly "org-a" onceEach ≤
        evenly.weight "org-a" * ((Scheduler.new Nat).run evenly queued).served evenly "org-b" onceEach +
          (evenly.baseQuantum * evenly.weight "org-a" * evenly.weight "org-b" +
            evenly.maxDeficit * (evenly.weight "org-a" + evenly.weight "org-b")) :=
  ⟨by decide +kernel,
    (shares_served (by decide) (by decide) (by decide) (by decide +kernel) (by decide +kernel)).2
      (by
        rintro key (rfl | rfl) <;> exact ⟨by decide, by decide⟩)⟩

/-- Items that cost less than a grant are served one a turn, whatever the shares. -/
theorem shares_unserved :
    ¬∀ (p : SchedulerProfile) (largest : Nat), largest ≤ p.maxDeficit →
      ∃ bound, ∀ a ∈ p.keys, ∀ b ∈ p.keys, ∀ before ops : List (SchedulerOp Nat),
        (∀ op ∈ before ++ ops, op.cost ≤ largest) → (∀ op ∈ ops, op.controlPop = false) →
        Backlogged p a ((Scheduler.new Nat).run p before) ops →
        Backlogged p b ((Scheduler.new Nat).run p before) ops →
        p.weight b * ((Scheduler.new Nat).run p before).served p a ops ≤
          p.weight a * ((Scheduler.new Nat).run p before).served p b ops + bound := by
  intro hall
  obtain ⟨bound, hbound⟩ := hall unevenly 1 (by decide)
  have hqueued : Even ((Scheduler.new Nat).run unevenly queued) := ⟨by decide +kernel, rfl, rfl⟩
  obtain ⟨hserved, hserved', hordinary, hbacklog⟩ := hqueued.rounds (bound + 1)
  have hcost : ∀ n, ∀ op ∈ rounds n, op.cost ≤ 1 := by
    intro n
    induction n with
    | zero => decide
    | succ n ih =>
      have hround : ∀ op ∈ serving "org-a" ++ serving "org-b", op.cost ≤ 1 := by decide
      exact fun op hop => (List.mem_append.mp hop).elim (hround op) (ih op)
  have hfair := hbound "org-b" (by decide) "org-a" (by decide) queued (rounds (bound + 1))
    (fun op hop => (List.mem_append.mp hop).elim ((by decide : ∀ op ∈ queued, op.cost ≤ 1) op)
      (hcost _ op))
    hordinary (hbacklog _ (by decide)) (hbacklog _ (by decide))
  have hweight : unevenly.weight "org-a" = 10 ∧ unevenly.weight "org-b" = 1 := ⟨rfl, rfl⟩
  rw [hserved, hserved', hweight.1, hweight.2] at hfair
  omega

end Example

end Solvan.Scale
