import Solvan.Base.Failing
import Solvan.Base.Machine
import Solvan.Relay.Ledger

/-! How long a Relay remembers its attempts. -/
namespace Solvan.Relay.Attempts
open Base Failing

def dayMicros : Int := 86400000000

/-- `now.astimezone(UTC) - moment` -/
def since (now moment : Datetime) : Except Raised Int := do
  let current ← toUtc now
  if moment.aware then .ok (current.instant - moment.instant) else .error .other

/-- `_record` -/
def readRow (row : Row) : Except Raised AttemptRecord :=
  match row.2 with
  | some record => .ok record
  | none => .error .other

/-- The moment that the retention of a record is counted from. -/
def AttemptFields.cutoff (record : AttemptFields) : Datetime := record.acknowledgedAt.getD record.updatedAt

/-- A day once it is acknowledged, and a week before. -/
def AttemptFields.window (record : AttemptFields) : Int :=
  if record.acknowledgedAt.isSome then dayMicros else 7 * dayMicros

/-- A record that is not acknowledged, and not terminal for more than a week. -/
def isPending (now : Datetime) (record : AttemptRecord) : Except Raised Bool :=
  match record.acknowledgedAt, record.terminalAt with
  | some _, _ => .ok false
  | none, none => .ok true
  | none, some terminal => (since now terminal).map (fun age => age ≤ 7 * dayMicros)

def pendingRows (now : Datetime) : List Row → Except Raised (List AttemptRecord)
  | [] => .ok []
  | row :: rows => do
    let record ← readRow row
    let pending ← isPending now record
    let rest ← pendingRows now rows
    return if pending then record :: rest else rest

/-- What of a ledger a purge changes, one row after the other: the files at once, the rows at the end. -/
def purgeRows (now : Datetime) : List Row → List Row → Nat → Failing Raised EncryptedAttemptLedger (List Row × Nat)
  | [], rows, removed => pure (rows, removed)
  | row :: rest, rows, removed => do
    let record ← lift (readRow row)
    let age ← lift (since now record.cutoff)
    if record.window ≤ age then do
      lift (EncryptedAttemptLedger.checkPath row.1)
      Failing.modify fun ledger => { ledger with results := Keyed.del Prod.fst ledger.results row.1 }
      purgeRows now rest (Keyed.del Prod.fst rows row.1) (removed + 1)
    else purgeRows now rest rows removed

namespace EncryptedAttemptLedger

/-- `pending_reconciliation` -/
def pendingReconciliation (now : Datetime) (ledger : EncryptedAttemptLedger) : Except Raised (List AttemptRecord) := do
  requireAware now "now must be timezone-aware"
  let rows ← ledger.load
  pendingRows now rows

/-- The rows as they are written after a purge, if any row was removed. -/
def purged (purge : List Row × Nat) : Failing Raised EncryptedAttemptLedger Nat :=
  if purge.2 = 0 then pure 0
  else do
    Failing.modify fun ledger => { ledger with index := .rows purge.1 }
    return purge.2

/-- `purge` -/
def purge (now : Datetime) (legalHold : Bool) : Failing Raised EncryptedAttemptLedger Nat := do
  lift (requireAware now "now must be timezone-aware")
  if legalHold then pure 0
  else do
    let rows ← view load
    let kept ← purgeRows now rows rows 0
    purged kept

end EncryptedAttemptLedger

inductive LedgerCall where
  | upsert (nonce : List UInt8) (record : AttemptRecord) (resultBytes : Option (List UInt8))
  | acknowledge (nonce : List UInt8) (record : AttemptRecord) (at' : Datetime)
  | purge (now : Datetime) (legalHold : Bool)

/-- The ledger after a call, whether it succeeds or not. -/
def EncryptedAttemptLedger.after (vault : Vault) (ledger : EncryptedAttemptLedger) : LedgerCall → EncryptedAttemptLedger
  | .upsert nonce record resultBytes =>
    match ledger.upsert vault nonce record resultBytes with
    | .ok ledger' => ledger'
    | .error _ => ledger
  | .acknowledge nonce record at' =>
    match ledger.acknowledge vault nonce record at' with
    | .ok ledger' => ledger'
    | .error _ => ledger
  | .purge now legalHold => (purge now legalHold ledger).2

/-- What may become of the ledger of an empty directory. -/
def retaining (vault : Vault) : Machine EncryptedAttemptLedger LedgerCall where
  start ledger := ledger.index = .absent ∧ ledger.results = []
  step ledger call ledger' := ledger' = ledger.after vault call

/-- A ledger in its bounds, with every row under its attempt and no evidence of an attempt without a row. -/
structure Orderly (ledger : EncryptedAttemptLedger) (rows : List Row) : Prop where
  loaded : ledger.load = .ok rows
  distinct : (rows.map Prod.fst).Nodup
  bounded : rows.length ≤ ledger.maxRecords
  filed : ∀ row ∈ rows, ∃ record : AttemptRecord, row = (record.attemptId, some record)
  evidenced : ∀ result ∈ ledger.results, result.1 ∈ rows.map Prod.fst

/-- A record whose retention is over. -/
def AttemptFields.Expired (record : AttemptFields) (now : Datetime) : Prop :=
  record.window ≤ now.instant - record.cutoff.instant

section Purges

variable {now moment : Datetime} {record : AttemptRecord} {row : Row} {rows todo : List Row}
  {ledger : EncryptedAttemptLedger} {removed : Nat}

theorem since_ok {age : Int} (h : since now moment = .ok age) : age = now.instant - moment.instant := by
  obtain ⟨current, hcurrent, h⟩ := Checks.bind_ok.mp h
  split at h
  · obtain rfl := Except.ok.inj h
    rw [(toUtc_ok hcurrent).2]
  · cases h

theorem readRow_ok (h : readRow row = .ok record) : row.2 = some record := by
  unfold readRow at h
  split at h
  · rename_i found hfound
    rw [hfound, Except.ok.inj h]
  · cases h

/-- What the rows and files are after some of the rows were gone through. -/
structure Swept (now : Datetime) (todo rows kept : List Row) (removed n : Nat) (ledger after : EncryptedAttemptLedger) :
    Prop where
  sublist : kept.Sublist rows
  counted : removed ≤ n ∧ (n = removed → kept = rows ∧ after = ledger)
  evidenced : ∀ result ∈ after.results, result.1 ∈ kept.map Prod.fst
  expired : ∀ row ∈ rows, row ∈ kept ∨ ∃ record ∈ row.2, record.Expired now
  fresh : ∀ row ∈ todo, ∀ record ∈ row.2, record.Expired now → row.1 ∉ kept.map Prod.fst

theorem mem_del {key : String} {other : Row} (h : other ∈ rows) (hkey : other.1 ≠ key) :
    other ∈ Keyed.del Prod.fst rows key := List.mem_filter.mpr ⟨h, by simpa using hkey⟩

theorem Swept.removed_first {first : Row} {rest kept : List Row} {n : Nat} {after : EncryptedAttemptLedger}
    (hfirst : first.2 = some record) (hexpired : record.Expired now) (hsame : ∀ row ∈ rows, row.1 = first.1 → row = first)
    (h : Swept now rest (Keyed.del Prod.fst rows first.1) kept (removed + 1) n
      { ledger with results := Keyed.del Prod.fst ledger.results first.1 } after) :
    Swept now (first :: rest) rows kept removed n ledger after := by
  have hsublist : kept.Sublist rows := h.sublist.trans List.filter_sublist
  refine ⟨hsublist, ⟨Nat.le_of_succ_le h.counted.1, fun hn => absurd h.counted.1 (by omega)⟩, h.evidenced, ?_, ?_⟩
  · intro row hrow
    by_cases hkey : row.1 = first.1
    · rw [hsame row hrow hkey]
      exact .inr ⟨record, hfirst, hexpired⟩
    · exact h.expired row (mem_del hrow hkey)
  · intro row hrow held hheld hover
    obtain rfl | hrest := List.mem_cons.mp hrow
    · intro hmem
      obtain ⟨other, hother, hkey⟩ := List.mem_map.mp hmem
      exact absurd hkey (by simpa using (List.mem_filter.mp (h.sublist.subset hother)).2)
    · exact h.fresh row hrest held hheld hover

/-- A purge takes files away, and leaves the index for the end. -/
theorem purgeRows_ends (hevidenced : ∀ result ∈ ledger.results, result.1 ∈ rows.map Prod.fst)
    (hsame : ∀ row ∈ rows, ∀ row' ∈ todo, row.1 = row'.1 → row = row') :
    Ends (purgeRows now todo rows removed) ledger fun r after =>
      (∃ results, results.Sublist ledger.results ∧ after = { ledger with results := results }) ∧
        ∀ kept n, r = .ok (kept, n) → Swept now todo rows kept removed n ledger after := by
  induction todo generalizing rows ledger removed with
  | nil =>
    refine ⟨⟨_, List.Sublist.refl _, rfl⟩, ?_⟩
    rintro kept n ⟨⟩
    exact ⟨List.Sublist.refl _, ⟨Nat.le_refl _, fun _ => ⟨rfl, rfl⟩⟩, hevidenced, fun row hrow => .inl hrow, fun row hrow => (nomatch hrow)⟩
  | cons first rest ih =>
    have hstay : ∃ results, results.Sublist ledger.results ∧ ledger = { ledger with results := results } :=
      ⟨_, List.Sublist.refl _, rfl⟩
    unfold purgeRows
    refine Ends.lift_bind (fun _ _ => ⟨hstay, nofun⟩) fun record hrecord => ?_
    refine Ends.lift_bind (fun _ _ => ⟨hstay, nofun⟩) fun age hage => ?_
    have hfirst := readRow_ok hrecord
    obtain rfl := since_ok hage
    split
    · rename_i hexpired
      refine Ends.lift_bind (fun _ _ => ⟨hstay, nofun⟩) fun _ _ => ?_
      refine ends_bind.mpr (ends_modify.mpr ?_)
      have hcovered : ∀ result ∈ Keyed.del Prod.fst ledger.results first.1,
          result.1 ∈ (Keyed.del Prod.fst rows first.1).map Prod.fst := by
        intro result hresult
        obtain ⟨hmem, hkey⟩ := List.mem_filter.mp hresult
        obtain ⟨row, hrow, hrowKey⟩ := List.mem_map.mp (hevidenced result hmem)
        have hne : row.1 ≠ first.1 := by
          rw [hrowKey]
          simpa using hkey
        exact List.mem_map.mpr ⟨row, mem_del hrow hne, hrowKey⟩
      refine (@ih (Keyed.del Prod.fst rows first.1)
        { ledger with results := Keyed.del Prod.fst ledger.results first.1 } (removed + 1) hcovered ?_).imp ?_
      · exact fun row hrow row' hrow' => hsame row (List.mem_filter.mp hrow).1 row' (List.mem_cons_of_mem _ hrow')
      · rintro r after ⟨⟨results, hresults, rfl⟩, hswept⟩
        refine ⟨⟨results, hresults.trans List.filter_sublist, rfl⟩, fun kept n hr => ?_⟩
        exact Swept.removed_first hfirst hexpired (fun row hrow => hsame row hrow first List.mem_cons_self)
          (hswept kept n hr)
    · rename_i hfresh
      refine (@ih rows ledger removed hevidenced fun row hrow row' hrow' =>
        hsame row hrow row' (List.mem_cons_of_mem _ hrow')).imp ?_
      rintro r after ⟨hresults, hswept⟩
      refine ⟨hresults, fun kept n hr => { hswept kept n hr with fresh := ?_ }⟩
      intro row hrow held hheld hover
      obtain rfl | hrest := List.mem_cons.mp hrow
      · obtain rfl := Option.some.inj (hfirst.symm.trans hheld)
        exact absurd hover hfresh
      · exact (hswept kept n hr).fresh row hrest held hheld hover

/-- A purge of an orderly ledger takes away what has expired, or nothing of the index where it fails. -/
theorem purge_ends (h : Orderly ledger rows) {legalHold : Bool} :
    Ends (EncryptedAttemptLedger.purge now legalHold) ledger fun r after => ∃ kept, Orderly after kept ∧
      (∀ row ∈ rows, row ∈ kept ∨ legalHold = false ∧ ∃ record ∈ row.2, record.Expired now) ∧
        ∀ n, r = .ok n → legalHold = false → ∀ row ∈ kept, ∀ record ∈ row.2, ¬record.Expired now := by
  have hstay (r : Except Raised Nat) (hr : ∀ n, r = .ok n → legalHold = true) : ∃ kept, Orderly ledger kept ∧
      (∀ row ∈ rows, row ∈ kept ∨ legalHold = false ∧ ∃ record ∈ row.2, record.Expired now) ∧
        ∀ n, r = .ok n → legalHold = false → ∀ row ∈ kept, ∀ record ∈ row.2, ¬record.Expired now :=
    ⟨rows, h, fun row hrow => .inl hrow, fun n hn hnone => absurd (hr n hn) (by rw [hnone]; nofun)⟩
  unfold EncryptedAttemptLedger.purge
  refine Ends.lift_bind (fun _ _ => hstay _ nofun) fun _ _ => ?_
  cases legalHold with
  | true => exact hstay _ fun _ _ => rfl
  | false =>
    refine Ends.view_bind (fun _ _ => hstay _ nofun) fun loaded hloaded => ?_
    obtain rfl := Except.ok.inj (h.loaded.symm.trans hloaded)
    refine ends_bind.mpr ((purgeRows_ends h.evidenced fun row hrow row' hrow' hkey =>
      List.inj_on_of_nodup_map h.distinct hrow hrow' hkey).imp ?_)
    rintro r after ⟨⟨results, hresults, rfl⟩, hswept⟩
    cases r with
    | error e =>
      exact ⟨rows, { h with evidenced := fun result hresult => h.evidenced result (hresults.subset hresult) },
        fun row hrow => .inl hrow, nofun⟩
    | ok purged =>
      obtain ⟨kept, n⟩ := purged
      have hkept := hswept kept n rfl
      have hfresh : ∀ row ∈ kept, ∀ record ∈ row.2, ¬record.Expired now := fun row hrow record hrecord hexpired =>
        hkept.fresh row (hkept.sublist.subset hrow) record hrecord hexpired (List.mem_map_of_mem hrow)
      unfold EncryptedAttemptLedger.purged
      dsimp only
      split
      · rename_i hn
        obtain ⟨rfl, hsame⟩ := hkept.counted.2 hn
        exact ⟨kept, hsame ▸ h, fun row hrow => .inl hrow, fun _ _ _ => hfresh⟩
      · refine ⟨kept, ⟨rfl, h.distinct.sublist (hkept.sublist.map _), hkept.sublist.length_le.trans h.bounded,
          fun row hrow => h.filed row (hkept.sublist.subset hrow), hkept.evidenced⟩, ?_, fun _ _ _ => hfresh⟩
        exact fun row hrow => (hkept.expired row hrow).imp_right fun hexpired => ⟨rfl, hexpired⟩

end Purges

section Calls

variable {vault : Vault} {nonce : List UInt8} {now : Datetime} {record : AttemptRecord} {rows : List Row}
  {ledger ledger' : EncryptedAttemptLedger} {resultBytes : Option (List UInt8)} {attemptId : String}

theorem Orderly.holds_iff (h : Orderly ledger rows) : ledger.Holds attemptId record ↔ (attemptId, some record) ∈ rows := by
  constructor
  · rintro ⟨loaded, hindex, hget⟩
    have hload : ledger.load = .ok loaded := by
      unfold EncryptedAttemptLedger.load
      rw [hindex]
    obtain rfl := Except.ok.inj (h.loaded.symm.trans hload)
    exact (Keyed.get_some hget).1
  · intro hrow
    have hloaded := h.loaded
    unfold EncryptedAttemptLedger.load at hloaded
    split at hloaded
    · rw [← Except.ok.inj hloaded] at hrow
      cases hrow
    · cases hloaded
    · rename_i found hindex
      obtain rfl := Except.ok.inj hloaded
      exact ⟨_, hindex, Keyed.get_of_mem h.distinct hrow⟩

/-- What is written with a record. -/
theorem upsert_written (h : ledger.upsert vault nonce record resultBytes = .ok ledger') :
    ∃ rows results, ledger.load = .ok rows ∧ ledger.Admits record.toAttemptFields ∧
      (∀ result ∈ results, result ∈ ledger.results ∨ result.1 = record.attemptId) ∧ ledger' =
        { ledger with index := .rows (Keyed.put Prod.fst rows (record.attemptId, some record)), results := results } := by
  obtain ⟨rows, hload, h⟩ := Checks.bind_ok.mp h
  obtain ⟨_, hadmits, h⟩ := Checks.bind_ok.mp h
  obtain ⟨written, hwritten, h⟩ := Checks.bind_ok.mp h
  obtain rfl := Except.ok.inj h
  unfold EncryptedAttemptLedger.keepResult at hwritten
  cases resultBytes with
  | none =>
    obtain rfl := Except.ok.inj hwritten
    exact ⟨rows, _, hload, (EncryptedAttemptLedger.admission_ok hload).mp hadmits, fun result hresult => .inl hresult, rfl⟩
  | some bytes =>
    obtain ⟨_, _, hwritten⟩ := Checks.bind_ok.mp hwritten
    obtain ⟨_, _, hwritten⟩ := Checks.bind_ok.mp hwritten
    obtain ⟨_, _, hwritten⟩ := Checks.bind_ok.mp hwritten
    obtain ⟨_, _, hwritten⟩ := Checks.bind_ok.mp hwritten
    obtain rfl := Except.ok.inj hwritten
    refine ⟨rows, _, hload, (EncryptedAttemptLedger.admission_ok hload).mp hadmits, fun result hresult => ?_, rfl⟩
    obtain rfl | hold := Keyed.mem_put hresult
    · exact .inr rfl
    · exact .inl hold

theorem key_mem_put {key : String} (row : Row) (h : key ∈ rows.map Prod.fst) :
    key ∈ (Keyed.put Prod.fst rows row).map Prod.fst := by
  by_contra hnot
  have hnone := Keyed.get_none.mpr hnot
  by_cases hkey : key = row.1
  · rw [hkey, Keyed.get_put_self] at hnone
    cases hnone
  · rw [Keyed.get_put_ne hkey] at hnone
    exact Keyed.get_none.mp hnone h

theorem length_put (row : Row) (h : row.1 ∈ rows.map Prod.fst) : (Keyed.put Prod.fst rows row).length = rows.length := by
  obtain ⟨old, hold, hkey⟩ := List.mem_map.mp h
  have hany : rows.any (fun old => old.1 == row.1) = true := List.any_eq_true.mpr ⟨old, hold, beq_iff_eq.mpr hkey⟩
  unfold Keyed.put
  rw [if_pos hany, List.length_map]

/-- What a call may make of the attempts that are held. -/
def Moved (call : LedgerCall) (rows rows' : List Row) : Prop :=
  ∀ attemptId record, (attemptId, some record) ∈ rows →
    (∃ kept : AttemptRecord, (attemptId, some kept) ∈ rows' ∧
      sameAuthority record.toAttemptFields kept.toAttemptFields = true) ∨
        ∃ now, call = .purge now false ∧ record.Expired now

theorem Moved.refl (call : LedgerCall) : Moved call rows rows :=
  fun _ record hrow => .inl ⟨record, hrow, sameAuthority_refl⟩

/-- A record that is written keeps a ledger orderly, and every attempt under its authority. -/
theorem Orderly.upsert (h : Orderly ledger rows) (hwrite : ledger.upsert vault nonce record resultBytes = .ok ledger')
    (call : LedgerCall) : ∃ rows', Orderly ledger' rows' ∧ Moved call rows rows' := by
  obtain ⟨loaded, results, hload, ⟨loaded', hload', hfound, hroom⟩, hresults, rfl⟩ := upsert_written hwrite
  obtain rfl := Except.ok.inj (h.loaded.symm.trans hload)
  obtain rfl := Except.ok.inj (h.loaded.symm.trans hload')
  refine ⟨Keyed.put Prod.fst rows (record.attemptId, some record), ⟨rfl, Keyed.put_nodup h.distinct, ?_, ?_, ?_⟩, ?_⟩
  · by_cases hkey : record.attemptId ∈ rows.map Prod.fst
    · exact (length_put (record.attemptId, some record) hkey).le.trans h.bounded
    · exact Keyed.length_put_le.trans (hroom (Keyed.get_none.mpr hkey))
  · intro row hrow
    obtain rfl | hold := Keyed.mem_put hrow
    · exact ⟨record, rfl⟩
    · exact h.filed row hold
  · intro result hresult
    obtain hold | hid := hresults result hresult
    · exact key_mem_put _ (h.evidenced result hold)
    · rw [hid]
      exact List.mem_map_of_mem (Keyed.get_some (@Keyed.get_put_self _ _ _ Prod.fst rows (record.attemptId, some record))).1
  · intro attemptId prior hrow
    by_cases hkey : attemptId = record.attemptId
    · obtain rfl := hkey
      obtain ⟨same, hsame, hauthority⟩ := hfound _ (Keyed.get_of_mem h.distinct hrow)
      obtain rfl := Option.some.inj hsame
      exact .inl ⟨record,
        (Keyed.get_some (@Keyed.get_put_self _ _ _ Prod.fst rows (record.attemptId, some record))).1, hauthority⟩
    · have hget : Keyed.get Prod.fst (Keyed.put Prod.fst rows (record.attemptId, some record)) attemptId =
          some (attemptId, some prior) := by
        rw [@Keyed.get_put_ne _ _ _ Prod.fst rows (record.attemptId, some record) attemptId hkey]
        exact Keyed.get_of_mem h.distinct hrow
      exact .inl ⟨prior, (Keyed.get_some hget).1, sameAuthority_refl⟩

/-- A record that was acknowledged at a time. -/
def Acknowledges (now : Datetime) (record made : AttemptRecord) : Prop :=
  ∃ moment, toUtc now = .ok moment ∧ made.toAttemptFields = record.acknowledged moment

theorem Acknowledges.same_attempt {made : AttemptRecord} (h : Acknowledges now record made) :
    made.attemptId = record.attemptId := by
  obtain ⟨_, -, hfields⟩ := h
  rw [hfields]
  rfl

theorem acknowledge_upsert {time : Datetime} (h : ledger.acknowledge vault nonce record time = .ok ledger') :
    ∃ made, Acknowledges time record made ∧ ledger.upsert vault nonce made none = .ok ledger' := by
  obtain ⟨_, _, h⟩ := Checks.bind_ok.mp h
  obtain ⟨moment, hmoment, h⟩ := Checks.bind_ok.mp h
  obtain ⟨made, hmade, h⟩ := Checks.bind_ok.mp h
  exact ⟨made, ⟨moment, hmoment, construct_ok.mp hmade⟩, h⟩

/-- Every call keeps a ledger orderly. -/
theorem Orderly.after (h : Orderly ledger rows) (call : LedgerCall) :
    ∃ rows', Orderly (ledger.after vault call) rows' ∧ Moved call rows rows' := by
  cases call with
  | upsert nonce record resultBytes =>
    unfold EncryptedAttemptLedger.after
    dsimp only
    split
    · rename_i ledger' hwrite
      exact h.upsert hwrite _
    · exact ⟨rows, h, Moved.refl _⟩
  | acknowledge nonce record time =>
    unfold EncryptedAttemptLedger.after
    dsimp only
    split
    · rename_i ledger' hacknowledge
      obtain ⟨made, -, hwrite⟩ := acknowledge_upsert hacknowledge
      exact h.upsert hwrite _
    · exact ⟨rows, h, Moved.refl _⟩
  | purge now legalHold =>
    obtain ⟨kept, hkept, hmoved, -⟩ := @purge_ends now rows ledger h legalHold
    refine ⟨kept, hkept, fun attemptId record hrow => (hmoved _ hrow).imp ?_ ?_⟩
    · exact fun hstay => ⟨record, hstay, sameAuthority_refl⟩
    · rintro ⟨rfl, held, hheld, hexpired⟩
      obtain rfl := Option.some.inj hheld
      exact ⟨now, rfl, hexpired⟩

theorem retained_orderly (h : (retaining vault).Reach ledger) : ∃ rows, Orderly ledger rows := by
  refine @Machine.Reach.invariant _ _ _ _ (fun ledger => ∃ rows, Orderly ledger rows) h ?_ ?_
  · rintro ledger ⟨habsent, hresults⟩
    refine ⟨[], ?_, List.nodup_nil, Nat.zero_le _, fun row hrow => (nomatch hrow), fun result hresult => ?_⟩
    · unfold EncryptedAttemptLedger.load
      rw [habsent]
    · rw [hresults] at hresult
      cases hresult
  · rintro ledger call ledger' - ⟨rows, horderly⟩ rfl
    obtain ⟨rows', horderly', -⟩ := @Orderly.after vault rows ledger horderly call
    exact ⟨rows', horderly'⟩

/-- In every run the ledger stays in its bounds, keeps no evidence of an attempt it does not hold, and keeps every
attempt under its authority until a purge without legal hold finds it expired. -/
theorem attempts_retained {s t : EncryptedAttemptLedger} {calls : List LedgerCall} (hs : (retaining vault).Reach s)
    (path : (retaining vault).Path s calls t) :
    (∃ rows, Orderly t rows) ∧
      (∀ attemptId record, s.Holds attemptId record →
        (∃ kept : AttemptRecord, t.Holds attemptId kept ∧
          sameAuthority record.toAttemptFields kept.toAttemptFields = true) ∨
        ∃ before now after u held, calls = before ++ .purge now false :: after ∧ (retaining vault).Path s before u ∧
          u.Holds attemptId held ∧ sameAuthority record.toAttemptFields held.toAttemptFields = true ∧
            held.Expired now) ∧
      ∀ now n, (EncryptedAttemptLedger.purge now false t).1 = .ok n → ∀ attemptId record,
        (t.after vault (.purge now false)).Holds attemptId record → ¬record.Expired now := by
  refine ⟨retained_orderly (path.reach hs), ?_, ?_⟩
  · induction path with
    | nil => exact fun attemptId record hheld => .inl ⟨record, hheld, sameAuthority_refl⟩
    | @cons s s' t call calls move rest ih =>
      intro attemptId record hheld
      obtain ⟨rows, hrows⟩ := retained_orderly hs
      obtain ⟨rows', hrows', hmoved⟩ := @Orderly.after vault rows s hrows call
      rw [← move] at hrows'
      obtain ⟨kept, hkept, hsame⟩ | ⟨now, rfl, hexpired⟩ := hmoved attemptId record (hrows.holds_iff.mp hheld)
      · obtain ⟨last, hlast, hlastSame⟩ | ⟨before, now, after, u, held, rfl, hbefore, hu, hheldSame, hexpired⟩ :=
          ih (hs.step move) attemptId kept (hrows'.holds_iff.mpr hkept)
        · exact .inl ⟨last, hlast, sameAuthority_trans hsame hlastSame⟩
        · exact .inr ⟨call :: before, now, after, u, held, rfl, .cons move hbefore, hu,
            sameAuthority_trans hsame hheldSame, hexpired⟩
      · exact .inr ⟨[], now, calls, s, record, rfl, .nil, hheld, sameAuthority_refl, hexpired⟩
  · intro now n hpurge attemptId record hheld
    obtain ⟨rows, hrows⟩ := retained_orderly (path.reach hs)
    obtain ⟨kept, hkept, -, hfresh⟩ := @purge_ends now rows t hrows false
    exact hfresh n hpurge rfl _ ((Orderly.holds_iff hkept).mp hheld) record rfl

end Calls

def emptyLedger : EncryptedAttemptLedger := ⟨.absent, [], 1, one_bounded⟩

/-- A record of an attempt that starts with the calendar. -/
def heldRecord : AttemptRecord where
  collectionJobId := "rcj_01ARZ3NDEKTSV4RRFFQ69G5FAV"
  attemptId := "rat_01ARZ3NDEKTSV4RRFFQ69G5FAV"
  attemptNumber := 1
  jobDigest := zeroDigest
  claimToken := "token"
  processBootId := "boot"
  state := .started
  inputHash := zeroDigest
  outcomeHash := none
  localResultHash := none
  createdAt := ⟨0, some 0, Calendar.maxMicros_pos⟩
  updatedAt := ⟨0, some 0, Calendar.maxMicros_pos⟩
  terminalAt := none
  acknowledgedAt := none
  checked := by decide +kernel

def weekLater : Datetime := ⟨604800000000, some 0, by decide⟩

/-- An attempt is written, and purged after a week. -/
theorem attempts_retained_week : ∃ rows, Orderly ((emptyLedger.after plainVault (.upsert [] heldRecord none)).after
    plainVault (.purge weekLater false)) rows :=
  (attempts_retained (.start ⟨rfl, rfl⟩) (.cons rfl (.cons rfl .nil))).1

end Solvan.Relay.Attempts
