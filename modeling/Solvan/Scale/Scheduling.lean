import Mathlib.Data.List.GetD
import Mathlib.Data.List.Nodup
import Mathlib.Logic.Function.Basic

/-! Tenant-first deficit round robin with an ordinary and a control lane for every
tenant. -/
namespace Solvan.Scale

inductive WorkClass where
  | controlReconciliation | security | reconciliation | deletion | openSevere | openOther
  | interactiveAsk | background
deriving DecidableEq, Repr

/-- `_CONTROL_CLASSES` -/
def WorkClass.control : WorkClass → Bool
  | .controlReconciliation | .security | .reconciliation | .deletion => true
  | _ => false

/-- `_CLASS_ORDER` -/
def WorkClass.order : WorkClass → Nat
  | .controlReconciliation | .security | .reconciliation | .deletion => 0
  | .openSevere => 1
  | .openOther => 2
  | .interactiveAsk => 3
  | .background => 4

/-- Work of a tenant. Times are in microseconds. -/
structure SchedulerItem (α : Type u) where
  organizationId : String
  payload : α
  cost : Nat
  workClass : WorkClass
  tenantSequence : Nat
  enqueuedAt : Option Int
  positive : 0 < cost
deriving DecidableEq

/-- What a scheduler is made with. -/
structure SchedulerProfile where
  assuredShare : List (String × Nat)
  controlReserve : Nat
  baseQuantum : Nat
  maxDeficit : Nat
  maximumWaitSeconds : Nat
  tenants : (assuredShare.map Prod.fst).Nodup
  shares : ∀ share ∈ assuredShare, 0 < share.2
  quantum : 0 < baseQuantum
  bounded : baseQuantum ≤ maxDeficit

def SchedulerProfile.keys (p : SchedulerProfile) : List String := p.assuredShare.map Prod.fst

/-- The tenant that a cursor stands at. -/
def SchedulerProfile.key (p : SchedulerProfile) (cursor : Nat) : String :=
  p.keys.getD (cursor % p.keys.length) ""

def SchedulerProfile.weight (p : SchedulerProfile) (key : String) : Nat :=
  (p.assuredShare.lookup key).getD 0

/-- What a tenant's lane is granted at a visit. -/
def SchedulerProfile.grant (p : SchedulerProfile) (key : String) : Nat :=
  p.baseQuantum * p.weight key

/-- The deficit after a visit's grant. -/
def SchedulerProfile.credit (p : SchedulerProfile) (key : String) (deficit : Nat) : Nat :=
  min p.maxDeficit (deficit + p.grant key)

structure Scheduler (α : Type u) where
  queues : String → List (SchedulerItem α)
  deficit : String × Bool → Nat
  cursor : Nat
  nextSequence : Nat

def Scheduler.new (α : Type u) : Scheduler α := ⟨fun _ => [], fun _ => 0, 0, 1⟩

/-- The first of the least. -/
def firstMin {β : Type u} (before : β → β → Bool) : List β → Option β
  | [] => none
  | a :: as =>
    match firstMin before as with
    | none => some a
    | some b => if before b a then some b else some a

variable {α : Type u}

/-- The item as `enqueue` leaves it in its queue. -/
def Scheduler.stamped (s : Scheduler α) (item : SchedulerItem α) (now : Int) : SchedulerItem α :=
  { item with
    enqueuedAt := some (item.enqueuedAt.getD now)
    tenantSequence := if item.tenantSequence = 0 then s.nextSequence else item.tenantSequence }

/-- `enqueue` -/
def Scheduler.enqueue (p : SchedulerProfile) (s : Scheduler α) (item : SchedulerItem α) (now : Int) :
    Option (Scheduler α) :=
  if !p.keys.contains item.organizationId then none
  else
    some
      { s with
        queues := Function.update s.queues item.organizationId
          (s.queues item.organizationId ++ [s.stamped item now])
        nextSequence := if item.tenantSequence = 0 then s.nextSequence + 1 else s.nextSequence }

/-- Whether an item has waited as long as any may. -/
def SchedulerProfile.aged (p : SchedulerProfile) (now : Int) (item : SchedulerItem α) : Bool :=
  p.maximumWaitSeconds != 0 &&
    item.enqueuedAt.any (fun at_ => decide ((p.maximumWaitSeconds : Int) * 1000000 ≤ now - at_))

/-- By class, then by sequence. -/
def SchedulerItem.before (a b : SchedulerItem α) : Bool :=
  decide (a.workClass.order < b.workClass.order ∨
    a.workClass.order = b.workClass.order ∧ a.tenantSequence < b.tenantSequence)

/-- `_item_for_lane` -/
def SchedulerProfile.itemForLane (p : SchedulerProfile) (queue : List (SchedulerItem α))
    (control : Bool) (now : Int) : Option (SchedulerItem α) :=
  let candidates := queue.filter (fun item => item.workClass.control == control)
  let aged := candidates.filter (p.aged now)
  if aged.isEmpty then firstMin SchedulerItem.before candidates
  else firstMin (fun a b => decide (a.tenantSequence < b.tenantSequence)) aged

theorem firstMin_mem {β : Type u} {before : β → β → Bool} {l : List β} {a : β}
    (h : firstMin before l = some a) : a ∈ l := by
  induction l generalizing a with
  | nil => cases h
  | cons b l ih =>
    unfold firstMin at h
    split at h
    · rw [Option.some.injEq] at h
      exact h ▸ List.mem_cons_self
    · rename_i c hc
      split at h
      · rw [Option.some.injEq] at h
        exact h ▸ List.mem_cons_of_mem _ (ih hc)
      · rw [Option.some.injEq] at h
        exact h ▸ List.mem_cons_self

theorem firstMin_none {β : Type u} {before : β → β → Bool} {l : List β} :
    firstMin before l = none ↔ l = [] := by
  cases l with
  | nil => simp [firstMin]
  | cons a l =>
    simp only [firstMin, reduceCtorEq, iff_false]
    split
    · simp
    · split <;> simp

variable {p : SchedulerProfile} {queue : List (SchedulerItem α)} {control : Bool} {now : Int}
  {item : SchedulerItem α}

/-- What a lane serves next is queued, and is of that lane. -/
theorem mem_of_itemForLane (h : p.itemForLane queue control now = some item) :
    item ∈ queue ∧ item.workClass.control = control := by
  unfold SchedulerProfile.itemForLane at h
  have hmem : item ∈ queue.filter (fun item => item.workClass.control == control) := by
    simp only at h
    split at h
    · exact firstMin_mem h
    · exact List.mem_of_mem_filter (firstMin_mem h)
  simpa using List.mem_filter.mp hmem

theorem itemForLane_none (h : p.itemForLane queue control now = none) :
    ∀ item ∈ queue, item.workClass.control ≠ control := by
  unfold SchedulerProfile.itemForLane at h
  simp only at h
  intro item hitem hcontrol
  split at h
  · have hnil := firstMin_none.mp h
    have hin := List.filter_eq_nil_iff.mp hnil item hitem
    exact hin (by simpa using hcontrol)
  · rename_i haged
    rw [firstMin_none.mp h] at haged
    exact haged rfl

/-- A lane sees its own items alone. -/
theorem itemForLane_congr {queue' : List (SchedulerItem α)}
    (h : queue.filter (fun item => item.workClass.control == control) =
      queue'.filter (fun item => item.workClass.control == control)) :
    p.itemForLane queue control now = p.itemForLane queue' control now := by
  unfold SchedulerProfile.itemForLane
  rw [h]

variable [DecidableEq α]

/-- One turn of the loop of `pop`. -/
def Scheduler.visit (p : SchedulerProfile) (control : Bool) (now : Int) (s : Scheduler α) :
    Scheduler α × Option (SchedulerItem α) :=
  let key := p.key s.cursor
  let s := { s with cursor := (s.cursor + 1) % p.keys.length }
  match p.itemForLane (s.queues key) control now with
  | none => ({ s with deficit := Function.update s.deficit (key, control) 0 }, none)
  | some item =>
    let credit := p.credit key (s.deficit (key, control))
    if credit < item.cost then
      ({ s with deficit := Function.update s.deficit (key, control) credit }, none)
    else
      ({ s with
          queues := Function.update s.queues key ((s.queues key).erase item)
          deficit := Function.update s.deficit (key, control) (credit - item.cost) }, some item)

/-- The loop of `pop`, for so many visits. -/
def Scheduler.popLoop (p : SchedulerProfile) (control : Bool) (now : Int) :
    Nat → Scheduler α → Scheduler α × Option (SchedulerItem α)
  | 0, s => (s, none)
  | visits + 1, s =>
    match s.visit p control now with
    | (s, some item) => (s, some item)
    | (s, none) => popLoop p control now visits s

/-- `pop` -/
def Scheduler.pop (p : SchedulerProfile) (control : Bool) (now : Int) (s : Scheduler α) :
    Scheduler α × Option (SchedulerItem α) :=
  s.popLoop p control now p.keys.length

inductive SchedulerOp (α : Type u) where
  | enqueue (item : SchedulerItem α) (now : Int)
  | pop (control : Bool) (now : Int)

/-- The scheduler after an operation. A tenant that is not admitted is refused. -/
def Scheduler.apply (p : SchedulerProfile) (s : Scheduler α) : SchedulerOp α → Scheduler α
  | .enqueue item now => (s.enqueue p item now).getD s
  | .pop control now => (s.pop p control now).1

/-- Two places of the rotation have one tenant only a whole rotation apart. -/
theorem SchedulerProfile.key_eq_iff (hkeys : 0 < p.keys.length) {a b : Nat} :
    p.key a = p.key b ↔ a % p.keys.length = b % p.keys.length := by
  have ha := Nat.mod_lt a hkeys
  have hb := Nat.mod_lt b hkeys
  have hnodup : p.keys.Nodup := p.tenants
  unfold SchedulerProfile.key
  rw [List.getD_eq_getElem _ _ ha, List.getD_eq_getElem _ _ hb, hnodup.getElem_inj_iff]

theorem SchedulerProfile.key_mod (a b : Nat) : p.key (a % p.keys.length + b) = p.key (a + b) := by
  unfold SchedulerProfile.key
  rw [Nat.mod_add_mod]

/-- A visit leaves every other tenant alone. -/
theorem Scheduler.visit_other (s : Scheduler α) {key : String} (hkey : key ≠ p.key s.cursor)
    (lane : Bool) : (s.visit p control now).1.queues key = s.queues key ∧
      (s.visit p control now).1.deficit (key, lane) = s.deficit (key, lane) := by
  simp only [Scheduler.visit]
  split
  · exact ⟨rfl, Function.update_of_ne (by simp [hkey]) _ _⟩
  · split
    · exact ⟨rfl, Function.update_of_ne (by simp [hkey]) _ _⟩
    · exact ⟨Function.update_of_ne hkey _ _, Function.update_of_ne (by simp [hkey]) _ _⟩

/-- What every visit keeps, a pop keeps. -/
theorem Scheduler.popLoop_keeps {P : Scheduler α → Prop} {s : Scheduler α} {visits : Nat}
    (hvisit : ∀ s, P s → P (s.visit p control now).1) (h : P s) :
    P (s.popLoop p control now visits).1 := by
  induction visits generalizing s with
  | zero => exact h
  | succ visits ih =>
    have hnext := hvisit s h
    unfold Scheduler.popLoop
    split
    · rename_i s' item heq
      rw [heq] at hnext
      exact hnext
    · rename_i s' heq
      rw [heq] at hnext
      exact ih hnext

end Solvan.Scale
