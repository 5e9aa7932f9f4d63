import Mathlib.Algebra.Order.BigOperators.Group.List
import Mathlib.Algebra.Order.Group.Int
import Mathlib.Logic.Function.Basic
import Solvan.Scale.Events

/-! Reservations of a tenant's quota, their settlement and their expiry. -/
namespace Solvan.Scale

open Solvan.Base

/-- A tenant's resource. -/
structure QuotaKey where
  organizationId : String
  resource : String
deriving DecidableEq, Repr

structure QuotaReservation where
  reservationId : String
  organizationId : String
  resource : String
  units : Int
  expiresAt : Datetime
  requestHash : Option String

def QuotaReservation.key (r : QuotaReservation) : QuotaKey := ⟨r.organizationId, r.resource⟩

/-- `a <= b` of times: an aware one and a naive one do not compare. -/
def notAfter (a b : Datetime) : Except Refusal Bool :=
  if a.aware = b.aware then .ok (decide (a.instant ≤ b.instant))
  else .error (.type "can't compare offset-naive and offset-aware datetimes")

/-- `a == b` of times. -/
def sameTime (a b : Datetime) : Bool := a.aware == b.aware && a.instant == b.instant

/-- `a == b` of reservations. -/
def QuotaReservation.same (a b : QuotaReservation) : Bool :=
  a.reservationId == b.reservationId && a.organizationId == b.organizationId &&
    a.resource == b.resource && a.units == b.units && sameTime a.expiresAt b.expiresAt &&
    a.requestHash == b.requestHash

/-- The ledger. `used` is a `defaultdict`: to read a key is to read zero where there
is none. -/
structure QuotaLedger where
  limits : QuotaKey → Option Int
  used : QuotaKey → Int
  reservations : List QuotaReservation
  settled : String → Option Int

def QuotaLedger.new (limits : QuotaKey → Option Int) : QuotaLedger :=
  ⟨limits, fun _ => 0, [], fun _ => none⟩

/-- `self._reservations.get(reservation_id)` -/
def QuotaLedger.reservation (s : QuotaLedger) (reservationId : String) : Option QuotaReservation :=
  Keyed.get QuotaReservation.reservationId s.reservations reservationId

/-- `self._used[key] += units` -/
def QuotaLedger.spend (s : QuotaLedger) (key : QuotaKey) (units : Int) : QuotaLedger :=
  { s with used := Function.update s.used key (s.used key + units) }

/-- `self._settled[reservation_id] = units` -/
def QuotaLedger.close (s : QuotaLedger) (reservationId : String) (units : Int) : QuotaLedger :=
  { s with settled := Function.update s.settled reservationId (some units) }

/-- `reserve`, `now` being the time given or else the clock's. -/
def QuotaLedger.reserve (s : QuotaLedger) (request : QuotaReservation) (now : Datetime) :
    QuotaLedger × Except Refusal QuotaReservation :=
  if request.units ≤ 0 ∨ !request.expiresAt.aware ∨ !now.aware ∨ request.expiresAt.instant ≤ now.instant then
    (s, .error (.value "quota reservation operands are invalid"))
  else
    match s.reservation request.reservationId with
    | some existing =>
      if !existing.same request then
        (s, .error (.runtime "reservation id was reused with different operands"))
      else (s, .ok existing)
    | none =>
      if (s.limits request.key).all (fun limit => decide (limit < s.used request.key + request.units)) then
        (s, .error (.runtime "tenant quota exhausted"))
      else
        let s := { s with
          reservations := Keyed.put QuotaReservation.reservationId s.reservations request }
        (s.spend request.key request.units, .ok request)

/-- `settle` -/
def QuotaLedger.settle (s : QuotaLedger) (reservationId : String) (actualUnits : Int) (now : Datetime) :
    QuotaLedger × Except Refusal Unit :=
  match s.reservation reservationId with
  | none => (s, .error (.runtime "unknown quota reservation"))
  | some reservation =>
    match s.settled reservationId with
    | some settledUnits =>
      if settledUnits ≠ actualUnits then
        (s, .error (.runtime "quota settlement was replayed with different usage"))
      else (s, .ok ())
    | none =>
      match notAfter reservation.expiresAt now with
      | .error refusal => (s, .error refusal)
      | .ok true => (s, .error (.runtime "quota reservation expired before settlement"))
      | .ok false =>
        if actualUnits < 0 ∨ reservation.units < actualUnits then
          (s, .error (.value "settled units must be within the reserved bound"))
        else
          let s := s.spend reservation.key (actualUnits - reservation.units)
          if s.used reservation.key < 0 then
            (s, .error (.runtime "quota settlement would underflow"))
          else (s.close reservationId actualUnits, .ok ())

/-- The loop of `release_expired`, with the ids released so far. -/
def QuotaLedger.releaseLoop (now : Datetime) (s : QuotaLedger) (released : List String) :
    List QuotaReservation → QuotaLedger × Except Refusal (List String)
  | [] => (s, .ok released)
  | reservation :: rest =>
    if (s.settled reservation.reservationId).isSome then s.releaseLoop now released rest
    else
      match notAfter reservation.expiresAt now with
      | .error refusal => (s, .error refusal)
      | .ok false => s.releaseLoop now released rest
      | .ok true =>
        let s := s.spend reservation.key (-reservation.units)
        if s.used reservation.key < 0 then (s, .error (.runtime "quota expiry would underflow"))
        else
          (s.close reservation.reservationId 0).releaseLoop now (released ++ [reservation.reservationId]) rest

/-- `release_expired` -/
def QuotaLedger.releaseExpired (s : QuotaLedger) (now : Datetime) :
    QuotaLedger × Except Refusal (List String) :=
  s.releaseLoop now [] s.reservations

inductive QuotaCall where
  | reserve (request : QuotaReservation) (now : Datetime)
  | settle (reservationId : String) (actualUnits : Int) (now : Datetime)
  | releaseExpired (now : Datetime)

inductive QuotaAnswer where
  | reserved (reservation : QuotaReservation)
  | settled
  | released (reservationIds : List String)

def QuotaLedger.perform (s : QuotaLedger) : QuotaCall → QuotaLedger × Except Refusal QuotaAnswer
  | .reserve request now => ((s.reserve request now).1, (s.reserve request now).2.map .reserved)
  | .settle reservationId actualUnits now =>
    ((s.settle reservationId actualUnits now).1,
      (s.settle reservationId actualUnits now).2.map (fun _ => .settled))
  | .releaseExpired now => ((s.releaseExpired now).1, (s.releaseExpired now).2.map .released)

/-- What a reservation counts for: what it was settled or released with, or else what
it reserves. -/
def QuotaLedger.charge (s : QuotaLedger) (reservation : QuotaReservation) : Int :=
  (s.settled reservation.reservationId).getD reservation.units

/-- What the reservations of a key count for together. -/
def QuotaLedger.charged (s : QuotaLedger) (key : QuotaKey) : Int :=
  ((s.reservations.filter (fun reservation => reservation.key == key)).map s.charge).sum

/-- The reservations that count for less in one ledger than in another. -/
def QuotaLedger.refunded (s s' : QuotaLedger) : List String :=
  (s.reservations.filter (fun reservation => decide (s'.charge reservation < s.charge reservation))).map
    QuotaReservation.reservationId

/-- A call that was made: its answer, and what it refunded. -/
structure QuotaMove where
  call : QuotaCall
  answer : Except Refusal QuotaAnswer
  refunded : List String

def quotas (limits : QuotaKey → Option Int) : Machine QuotaLedger QuotaMove where
  start s := s = .new limits
  step s move s' := s.perform move.call = (s', move.answer) ∧ move.refunded = s.refunded s'

/-- The ledger's books. -/
structure Balanced (limits : QuotaKey → Option Int) (s : QuotaLedger) : Prop where
  configured : s.limits = limits
  ids : (s.reservations.map QuotaReservation.reservationId).Nodup
  reserved : ∀ reservation ∈ s.reservations, 0 < reservation.units ∧ reservation.expiresAt.aware = true
  settled : ∀ reservation ∈ s.reservations, ∀ units, s.settled reservation.reservationId = some units →
    0 ≤ units ∧ units ≤ reservation.units
  known : ∀ reservationId, (s.settled reservationId).isSome → (s.reservation reservationId).isSome
  used : ∀ key, s.used key = s.charged key
  bounded : ∀ key, s.used key = 0 ∨ ∃ limit, limits key = some limit ∧ s.used key ≤ limit

variable {limits : QuotaKey → Option Int} {s s' t : QuotaLedger} {reservation : QuotaReservation}
  {key : QuotaKey} {now : Datetime} {units : Int} {reservationId : String} {call : QuotaCall}
  {answer : Except Refusal QuotaAnswer} {moves : List QuotaMove} {move : QuotaMove}

theorem Balanced.new : Balanced limits (.new limits) where
  configured := rfl
  ids := List.nodup_nil
  reserved _ h := nomatch h
  settled _ h := nomatch h
  known _ h := nomatch h
  used _ := rfl
  bounded _ := .inl rfl

theorem Balanced.charge_nonneg (h : Balanced limits s) (hmem : reservation ∈ s.reservations) :
    0 ≤ s.charge reservation := by
  unfold QuotaLedger.charge
  cases hsettled : s.settled reservation.reservationId with
  | none => exact (h.reserved _ hmem).1.le
  | some units => exact (h.settled _ hmem units hsettled).1

theorem Balanced.nonneg (h : Balanced limits s) (key : QuotaKey) : 0 ≤ s.used key := by
  rw [h.used]
  refine List.sum_nonneg (fun charge hcharge => ?_)
  obtain ⟨reservation, hmem, rfl⟩ := List.mem_map.mp hcharge
  exact h.charge_nonneg (List.mem_filter.mp hmem).1

/-- What a settlement or a release writes. -/
def QuotaLedger.refund (s : QuotaLedger) (reservation : QuotaReservation) (units : Int) : QuotaLedger :=
  (s.spend reservation.key (units - reservation.units)).close reservation.reservationId units

theorem charge_refund_self : (s.refund reservation units).charge reservation = units := by
  simp [QuotaLedger.charge, QuotaLedger.refund, QuotaLedger.close]

theorem charge_refund_other {other : QuotaReservation}
    (hne : other.reservationId ≠ reservation.reservationId) :
    (s.refund reservation units).charge other = s.charge other := by
  simp [QuotaLedger.charge, QuotaLedger.refund, QuotaLedger.close, QuotaLedger.spend, hne]

theorem charge_open (hopen : s.settled reservation.reservationId = none) :
    s.charge reservation = reservation.units := by
  rw [QuotaLedger.charge, hopen, Option.getD_none]

/-- A refund takes off the key what it takes off the reservation. -/
theorem Balanced.charged_refund (h : Balanced limits s) (hmem : reservation ∈ s.reservations)
    (hopen : s.settled reservation.reservationId = none) :
    (s.refund reservation units).charged key =
      s.charged key + if key = reservation.key then units - reservation.units else 0 := by
  change ((s.reservations.filter _).map (s.refund reservation units).charge).sum = _
  split
  · rename_i hkey
    subst hkey
    have hin : reservation ∈ s.reservations.filter (fun other => other.key == reservation.key) :=
      List.mem_filter.mpr ⟨hmem, beq_self_eq_true _⟩
    have hrest : ∀ other ∈ s.reservations.filter (fun other => other.key == reservation.key),
        other.reservationId ≠ reservation.reservationId →
          (s.refund reservation units).charge other = s.charge other :=
      fun _ _ hne => charge_refund_other hne
    have hsum := Keyed.sum_map_change (h.ids.sublist (List.filter_sublist.map _)) hin hrest
    rw [charge_refund_self, charge_open hopen] at hsum
    exact hsum
  · rename_i hkey
    rw [Int.add_zero]
    refine congrArg List.sum (List.map_congr_left (fun other hother => ?_))
    obtain ⟨hin, hother⟩ := List.mem_filter.mp hother
    refine charge_refund_other (fun hsame => hkey ?_)
    rw [← List.inj_on_of_nodup_map h.ids hin hmem hsame]
    exact (beq_iff_eq.mp hother).symm

/-- A reservation that is open is charged in full to its key. -/
theorem Balanced.units_le (h : Balanced limits s) (hmem : reservation ∈ s.reservations)
    (hopen : s.settled reservation.reservationId = none) :
    reservation.units ≤ s.used reservation.key := by
  rw [h.used, ← charge_open hopen]
  refine List.single_le_sum (fun charge hcharge => ?_) _
    (List.mem_map_of_mem (List.mem_filter.mpr ⟨hmem, beq_self_eq_true _⟩))
  obtain ⟨other, hother, rfl⟩ := List.mem_map.mp hcharge
  exact h.charge_nonneg (List.mem_filter.mp hother).1

theorem used_refund : (s.refund reservation units).used key =
    s.used key + if key = reservation.key then units - reservation.units else 0 := by
  simp only [QuotaLedger.refund, QuotaLedger.close, QuotaLedger.spend, Function.update_apply]
  split
  · rename_i hkey
    rw [hkey]
  · exact (Int.add_zero _).symm

theorem Balanced.refund (h : Balanced limits s) (hmem : reservation ∈ s.reservations)
    (hopen : s.settled reservation.reservationId = none) (hnonneg : 0 ≤ units)
    (hle : units ≤ reservation.units) : Balanced limits (s.refund reservation units) where
  configured := h.configured
  ids := h.ids
  reserved := h.reserved
  settled other hother settledUnits hsettled := by
    by_cases hid : other.reservationId = reservation.reservationId
    · cases List.inj_on_of_nodup_map h.ids hother hmem hid
      simp only [QuotaLedger.refund, QuotaLedger.close, Function.update_self, Option.some.injEq] at hsettled
      subst hsettled
      exact ⟨hnonneg, hle⟩
    · simp only [QuotaLedger.refund, QuotaLedger.close, Function.update_of_ne hid] at hsettled
      exact h.settled other hother settledUnits hsettled
  known id hid := by
    by_cases hsame : id = reservation.reservationId
    · subst hsame
      have hget : s.reservation reservation.reservationId = some reservation := Keyed.get_of_mem h.ids hmem
      exact Option.isSome_of_eq_some hget
    · simp only [QuotaLedger.refund, QuotaLedger.close, Function.update_of_ne hsame] at hid
      exact h.known id hid
  used key := by rw [h.charged_refund hmem hopen, used_refund, h.used]
  bounded key := by
    have hunits := h.units_le hmem hopen
    have hpositive := h.nonneg key
    rw [used_refund]
    rcases h.bounded key with hzero | ⟨limit, hlimit, hused⟩
    · left
      split
      · rename_i hkey
        subst hkey
        omega
      · omega
    · right
      refine ⟨limit, hlimit, ?_⟩
      split <;> omega

/-- What a refund takes off a key is charged to it, so no refund underflows. -/
theorem Balanced.no_underflow (h : Balanced limits s) (hmem : reservation ∈ s.reservations)
    (hopen : s.settled reservation.reservationId = none) (hnonneg : 0 ≤ units) :
    ¬(s.spend reservation.key (units - reservation.units)).used reservation.key < 0 := by
  have hunits := h.units_le hmem hopen
  simp only [QuotaLedger.spend, Function.update_self]
  omega

theorem Balanced.reserve (h : Balanced limits s) (habsent : s.reservation reservation.reservationId = none)
    (hunits : 0 < reservation.units) (haware : reservation.expiresAt.aware = true)
    (hlimit : ∃ limit, s.limits reservation.key = some limit ∧
      s.used reservation.key + reservation.units ≤ limit) :
    Balanced limits (QuotaLedger.spend
      { s with reservations := Keyed.put QuotaReservation.reservationId s.reservations reservation }
      reservation.key reservation.units) := by
  have hput : Keyed.put QuotaReservation.reservationId s.reservations reservation =
      s.reservations ++ [reservation] := Keyed.put_of_absent (Keyed.get_none.mp habsent)
  have hopen : s.settled reservation.reservationId = none := by
    by_contra hsettled
    have hknown := h.known _ (Option.isSome_iff_ne_none.mpr hsettled)
    rw [habsent] at hknown
    cases hknown
  have hused : ∀ key, (QuotaLedger.spend
      { s with reservations := Keyed.put QuotaReservation.reservationId s.reservations reservation }
      reservation.key reservation.units).used key =
      s.used key + if key = reservation.key then reservation.units else 0 := by
    intro key
    simp only [QuotaLedger.spend, Function.update_apply]
    split
    · rename_i hkey
      rw [hkey]
    · exact (Int.add_zero _).symm
  refine ⟨h.configured, Keyed.put_nodup h.ids, ?_, ?_, ?_, ?_, ?_⟩
  · intro other hother
    simp only [QuotaLedger.spend, hput] at hother
    rcases List.mem_append.mp hother with hold | hnew
    · exact h.reserved other hold
    · rw [List.mem_singleton.mp hnew]
      exact ⟨hunits, haware⟩
  · intro other hother units hsettled
    simp only [QuotaLedger.spend, hput] at hother
    rcases List.mem_append.mp hother with hold | hnew
    · exact h.settled other hold units hsettled
    · rw [List.mem_singleton.mp hnew] at hsettled
      have hnone : none = some units := hopen.symm.trans hsettled
      cases hnone
  · intro id hid
    by_cases hsame : id = reservation.reservationId
    · subst hsame
      exact Option.isSome_of_eq_some Keyed.get_put_self
    · have hother : (QuotaLedger.spend
          { s with reservations := Keyed.put QuotaReservation.reservationId s.reservations reservation }
          reservation.key reservation.units).reservation id = s.reservation id := Keyed.get_put_ne hsame
      rw [hother]
      exact h.known id hid
  · intro key
    rw [hused, h.used]
    simp only [QuotaLedger.charged, QuotaLedger.spend, hput, List.filter_append, List.map_append,
      List.sum_append]
    congr 1
    by_cases hkey : key = reservation.key
    · simp [hkey, QuotaLedger.charge, hopen]
    · have hne : (reservation.key == key) = false := by simpa using Ne.symm hkey
      simp [hkey, hne]
  · intro key
    rw [hused]
    split
    · rename_i hkey
      obtain ⟨limit, hconfigured, hle⟩ := hlimit
      rw [h.configured] at hconfigured
      exact .inr ⟨limit, hkey ▸ hconfigured, hkey ▸ hle⟩
    · rw [Int.add_zero]
      exact h.bounded key

/-- What is settled stays as it was settled. -/
def Kept (s s' : QuotaLedger) : Prop :=
  ∀ reservationId units, s.settled reservationId = some units → s'.settled reservationId = some units

theorem kept_refund (hopen : s.settled reservation.reservationId = none) :
    Kept s (s.refund reservation units) := by
  intro id settledUnits hsettled
  have hne : id ≠ reservation.reservationId := by
    rintro rfl
    rw [hopen] at hsettled
    cases hsettled
  simp only [QuotaLedger.refund, QuotaLedger.close, Function.update_of_ne hne]
  exact hsettled

theorem notAfter_aware {a b : Datetime} (ha : a.aware = true) (hb : b.aware = true) :
    notAfter a b = .ok (decide (a.instant ≤ b.instant)) := by
  rw [notAfter, if_pos (ha.trans hb.symm)]

theorem notAfter_naive {a b : Datetime} (ha : a.aware = true) (hb : b.aware = false) :
    ∃ refusal, notAfter a b = .error refusal := by
  rw [notAfter, if_neg (by simp [ha, hb])]
  exact ⟨_, rfl⟩

/-- An aware clock releases every open reservation that has run out, and raises nothing. -/
theorem Balanced.releaseLoop (h : Balanced limits s) (haware : now.aware = true) {released : List String}
    {rest : List QuotaReservation} (hrest : ∀ reservation ∈ rest, reservation ∈ s.reservations) :
    Balanced limits (s.releaseLoop now released rest).1 ∧ Kept s (s.releaseLoop now released rest).1 ∧
      ∃ ids, (s.releaseLoop now released rest).2 = .ok ids := by
  induction rest generalizing s released with
  | nil => exact ⟨h, fun _ _ => id, released, rfl⟩
  | cons reservation rest ih =>
    have hmem := hrest reservation List.mem_cons_self
    have htail : ∀ other ∈ rest, other ∈ s.reservations := fun other hother =>
      hrest other (List.mem_cons_of_mem _ hother)
    unfold QuotaLedger.releaseLoop
    cases hsettled : s.settled reservation.reservationId with
    | some units => exact ih h htail
    | none =>
      rw [if_neg (by simp), notAfter_aware (h.reserved _ hmem).2 haware]
      split
      · rename_i heq
        cases heq
      · exact ih h htail
      · have hrefund : s.spend reservation.key (-reservation.units) =
            s.spend reservation.key (0 - reservation.units) := by rw [Int.zero_sub]
        simp only [hrefund]
        rw [if_neg (h.no_underflow hmem hsettled le_rfl)]
        obtain ⟨hbalanced, hkept, hids⟩ := ih (h.refund hmem hsettled le_rfl (h.reserved _ hmem).1.le) htail
        exact ⟨hbalanced, fun id units hid => hkept id units (kept_refund hsettled id units hid), hids⟩

/-- A naive clock raises at the first open reservation. -/
theorem Balanced.releaseLoop_naive (h : Balanced limits s) (hnaive : now.aware = false)
    {released : List String} {rest : List QuotaReservation}
    (hrest : ∀ reservation ∈ rest, reservation ∈ s.reservations) :
    (s.releaseLoop now released rest).1 = s := by
  induction rest with
  | nil => rfl
  | cons reservation rest ih =>
    unfold QuotaLedger.releaseLoop
    split
    · exact ih (fun other hother => hrest other (List.mem_cons_of_mem _ hother))
    · obtain ⟨refusal, hrefusal⟩ :=
        notAfter_naive (h.reserved _ (hrest reservation List.mem_cons_self)).2 hnaive
      rw [hrefusal]

/-- What every call keeps, and that a call that raises changes nothing. -/
structure Performed (limits : QuotaKey → Option Int) (s s' : QuotaLedger) {α : Type}
    (answer : Except Refusal α) : Prop where
  balanced : Balanced limits s'
  kept : Kept s s'
  unchanged : ∀ refusal, answer = .error refusal → s' = s

theorem Balanced.same {α : Type} (h : Balanced limits s) (answer : Except Refusal α) :
    Performed limits s s answer := ⟨h, fun _ _ => id, fun _ _ => rfl⟩

theorem Balanced.reserve_performed (h : Balanced limits s) :
    Performed limits s (s.reserve reservation now).1 (s.reserve reservation now).2 := by
  unfold QuotaLedger.reserve
  split
  · exact h.same _
  · rename_i hoperands
    simp only [not_or, Bool.not_eq_true, Bool.not_eq_false', not_le] at hoperands
    obtain ⟨hunits, haware, -, -⟩ := hoperands
    split
    · split <;> exact h.same _
    · rename_i habsent
      split
      · exact h.same _
      · rename_i hlimit
        refine ⟨h.reserve habsent hunits haware ?_, fun _ _ => id, fun _ hanswer => nomatch hanswer⟩
        cases hconfigured : s.limits reservation.key with
        | none =>
          rw [hconfigured] at hlimit
          exact absurd rfl hlimit
        | some limit =>
          rw [hconfigured] at hlimit
          exact ⟨limit, rfl, by simpa using hlimit⟩

theorem Balanced.settle_performed (h : Balanced limits s) :
    Performed limits s (s.settle reservationId units now).1 (s.settle reservationId units now).2 := by
  unfold QuotaLedger.settle
  split
  · exact h.same _
  · rename_i reservation hget
    obtain ⟨hmem, rfl⟩ := Keyed.get_some hget
    split
    · split <;> exact h.same _
    · rename_i hopen
      split
      · exact h.same _
      · exact h.same _
      · split
        · exact h.same _
        · rename_i hunits
          obtain ⟨hnonneg, hle⟩ := not_or.mp hunits
          simp only
          rw [if_neg (h.no_underflow hmem hopen (not_lt.mp hnonneg))]
          exact ⟨h.refund hmem hopen (not_lt.mp hnonneg) (not_lt.mp hle), kept_refund hopen,
            fun _ hanswer => nomatch hanswer⟩

theorem Balanced.release_performed (h : Balanced limits s) :
    Performed limits s (s.releaseExpired now).1 (s.releaseExpired now).2 := by
  cases haware : now.aware with
  | true =>
    obtain ⟨hbalanced, hkept, ids, hids⟩ :=
      @Balanced.releaseLoop _ _ _ h haware [] s.reservations (fun _ hmem => hmem)
    refine ⟨hbalanced, hkept, fun refusal hanswer => ?_⟩
    rw [QuotaLedger.releaseExpired, hids] at hanswer
    cases hanswer
  | false =>
    have hsame : (s.releaseExpired now).1 = s := h.releaseLoop_naive haware (fun _ hmem => hmem)
    rw [hsame]
    exact h.same _

theorem Performed.map {α β : Type} {answer : Except Refusal α} (f : α → β)
    (h : Performed limits s s' answer) : Performed limits s s' (answer.map f) := by
  refine ⟨h.balanced, h.kept, fun refusal hanswer => ?_⟩
  cases answer with
  | error _ => exact h.unchanged _ rfl
  | ok _ => cases hanswer

theorem Balanced.performed (h : Balanced limits s) (call : QuotaCall) :
    Performed limits s (s.perform call).1 (s.perform call).2 := by
  cases call with
  | reserve request now => exact h.reserve_performed.map _
  | settle reservationId units now => exact h.settle_performed.map _
  | releaseExpired now => exact h.release_performed.map _

/-- Only what is open is refunded, and it is not open any more. -/
theorem refunded_open (hkept : Kept s s') (hmem : reservationId ∈ s.refunded s') :
    s.settled reservationId = none ∧ (s'.settled reservationId).isSome := by
  obtain ⟨reservation, hfilter, rfl⟩ := List.mem_map.mp hmem
  have hless : s'.charge reservation < s.charge reservation := by
    simpa using (List.mem_filter.mp hfilter).2
  cases hsettled : s.settled reservation.reservationId with
  | some units =>
    rw [QuotaLedger.charge, QuotaLedger.charge, hsettled, hkept _ _ hsettled] at hless
    exact absurd hless (lt_irrefl _)
  | none =>
    refine ⟨rfl, ?_⟩
    cases hafter : s'.settled reservation.reservationId with
    | some units => rfl
    | none =>
      rw [QuotaLedger.charge, QuotaLedger.charge, hsettled, hafter] at hless
      exact absurd hless (lt_irrefl _)

/-- The books after some calls, and what these have refunded. -/
structure Booked (limits : QuotaKey → Option Int) (moves : List QuotaMove) (s : QuotaLedger) : Prop where
  balanced : Balanced limits s
  once : (moves.flatMap QuotaMove.refunded).Nodup
  closed : ∀ reservationId ∈ moves.flatMap QuotaMove.refunded, (s.settled reservationId).isSome

theorem Booked.step (h : Booked limits moves s) (hmove : (quotas limits).step s move s') :
    Booked limits (moves ++ [move]) s' := by
  obtain ⟨hperform, hrefunded⟩ := hmove
  have hperformed := h.balanced.performed move.call
  rw [hperform] at hperformed
  have happend : (moves ++ [move]).flatMap QuotaMove.refunded =
      moves.flatMap QuotaMove.refunded ++ s.refunded s' := by
    simp [List.flatMap_append, hrefunded]
  refine ⟨hperformed.balanced, ?_, ?_⟩
  · rw [happend]
    refine List.Nodup.append h.once (h.balanced.ids.sublist (List.filter_sublist.map _)) ?_
    intro id hbefore hnow
    have hsettled := h.closed id hbefore
    rw [(refunded_open hperformed.kept hnow).1] at hsettled
    cases hsettled
  · intro id hid
    rw [happend] at hid
    rcases List.mem_append.mp hid with hbefore | hnow
    · obtain ⟨units, hunits⟩ := Option.isSome_iff_exists.mp (h.closed id hbefore)
      exact Option.isSome_of_eq_some (hperformed.kept id units hunits)
    · exact (refunded_open hperformed.kept hnow).2

/-- Make calls one after the other. -/
def QuotaLedger.record (s : QuotaLedger) : List QuotaCall → List QuotaMove × QuotaLedger
  | [] => ([], s)
  | call :: calls =>
    let (s', answer) := s.perform call
    let rest := s'.record calls
    (⟨call, answer, s.refunded s'⟩ :: rest.1, rest.2)

theorem path_of_quota_calls (calls : List QuotaCall) :
    (quotas limits).Path s (s.record calls).1 (s.record calls).2 := by
  induction calls generalizing s with
  | nil => exact .nil
  | cons call calls ih => exact .cons ⟨rfl, rfl⟩ ih

/-- So many seconds into the first year. -/
def quotaTime (seconds : Fin 60) : Datetime := ⟨seconds * 1000000, some 0, by
  have hlt := seconds.isLt
  simp only [Calendar.maxMicros]
  omega⟩

/-- One reservation settles for less than it reserved, one runs out, and the sweep and
the settlement come again, on a clock that has gone back. -/
def quotaCalls : List QuotaCall :=
  [.reserve ⟨"res-1", "org-a", "MODEL_REQUEST", 2, quotaTime 30, none⟩ (quotaTime 0),
    .reserve ⟨"res-2", "org-a", "MODEL_REQUEST", 3, quotaTime 10, none⟩ (quotaTime 0),
    .reserve ⟨"res-3", "org-a", "MODEL_REQUEST", 1, quotaTime 30, none⟩ (quotaTime 0),
    .settle "res-1" 1 (quotaTime 5), .releaseExpired (quotaTime 11), .settle "res-1" 1 (quotaTime 2),
    .settle "res-2" 3 (quotaTime 2), .releaseExpired (quotaTime 40)]

end Solvan.Scale
