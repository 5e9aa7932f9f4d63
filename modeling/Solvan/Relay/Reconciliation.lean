import Solvan.Relay.Retention
import Solvan.Relay.Runtime

/-! Attempts that are acknowledged once the control plane says that their jobs are over. -/
namespace Solvan.Relay.Attempts
open Base Failing

def terminalStates : List String := ["ACCEPTED", "REFUSED", "EXPIRED", "CANCELLED"]

/-- `value == text` -/
def isText (value : Json) (text : String) : Bool :=
  match value with
  | .str found => found == text
  | _ => false

/-- `state in terminal_states`, where lists and mappings have no hash. -/
def isTerminal : Json → Except Raised Bool
  | .str state => .ok (terminalStates.contains state)
  | .arr _ | .obj _ => .error .other
  | _ => .ok false

/-- A projection of the job that a record is of. -/
def projects (record : AttemptRecord) (answer : Answer) : Bool :=
  isText (answer.get "collection_job_id") record.collectionJobId && isText (answer.get "job_digest") record.jobDigest

section Pass

-- What `status` answers when it is asked about each record.
variable (status : AttemptRecord → Except Raised Answer) (vault : Vault) (nonce : List UInt8) (now : Datetime)

/-- The loop of `acknowledge_terminal_outcomes` -/
def acknowledgeRecords : List AttemptRecord → Nat → Failing Raised EncryptedAttemptLedger Nat
  | [], acknowledged => pure acknowledged
  | record :: rest, acknowledged => do
    let answer ← lift (status record)
    lift (requireRuntime (projects record answer) "control-plane reconciliation projection is malformed")
    let terminal ← lift (isTerminal (answer.get "state"))
    if terminal then do
      Failing.update fun ledger => ledger.acknowledge vault nonce record now
      acknowledgeRecords rest (acknowledged + 1)
    else acknowledgeRecords rest acknowledged

/-- `acknowledge_terminal_outcomes` -/
def acknowledgeTerminalOutcomes : Failing Raised EncryptedAttemptLedger Nat := do
  lift (requireAware now "now must be timezone-aware")
  let records ← view (EncryptedAttemptLedger.pendingReconciliation now)
  acknowledgeRecords status vault nonce now records 0

/-- The control plane projects the job of a record as terminal. -/
def ended (record : AttemptRecord) : Bool :=
  match status record with
  | .ok answer => projects record answer && terminalStates.any (isText (answer.get "state"))
  | .error _ => false

end Pass

variable {status : AttemptRecord → Except Raised Answer} {vault : Vault} {nonce : List UInt8} {now : Datetime}
  {ledger ledger' : EncryptedAttemptLedger} {rows : List Row} {record made other : AttemptRecord} {attemptId : String}

theorem isTerminal_ok {state : Json} {terminal : Bool} (h : isTerminal state = .ok terminal) :
    terminal = terminalStates.any (isText state) := by
  cases state with
  | str text =>
    obtain rfl := Except.ok.inj h
    rfl
  | arr items => cases h
  | obj fields => cases h
  | null => exact (Except.ok.inj h).symm
  | bool b => exact (Except.ok.inj h).symm
  | int n => exact (Except.ok.inj h).symm
  | float x => exact (Except.ok.inj h).symm

/-- What an acknowledgement does to a ledger: one record takes the place of another. -/
theorem acknowledged_orderly (h : Orderly ledger rows)
    (hacknowledge : ledger.acknowledge vault nonce record now = .ok ledger') : ∃ made, Acknowledges now record made ∧
      (∃ rows', Orderly ledger' rows') ∧ ledger'.results = ledger.results ∧ ledger'.Holds record.attemptId made ∧
        ∀ attemptId other, attemptId ≠ record.attemptId →
          (ledger'.Holds attemptId other ↔ ledger.Holds attemptId other) := by
  obtain ⟨made, hmade, hwrite⟩ := acknowledge_upsert hacknowledge
  have hid := hmade.same_attempt
  obtain ⟨hholds, hresults⟩ := EncryptedAttemptLedger.upsert_none_holds hwrite
  obtain ⟨-, loaded, hload, rfl⟩ := EncryptedAttemptLedger.upsert_none.mp hwrite
  obtain rfl := Except.ok.inj (h.loaded.symm.trans hload)
  obtain ⟨rows', hrows', -⟩ := h.upsert hwrite (.acknowledge nonce record now)
  refine ⟨made, hmade, ⟨rows', hrows'⟩, hresults, hid ▸ hholds, fun attemptId other hne => ?_⟩
  rw [hrows'.holds_iff, h.holds_iff]
  obtain rfl := Except.ok.inj hrows'.loaded
  have hget := @Keyed.get_put_ne _ _ _ Prod.fst rows (made.attemptId, some made) attemptId (by rwa [hid])
  constructor
  · intro hrow
    exact (Keyed.get_some (hget.symm.trans (Keyed.get_of_mem hrows'.distinct hrow))).1
  · intro hrow
    exact (Keyed.get_some (hget.trans (Keyed.get_of_mem h.distinct hrow))).1

/-- What a pass over some records leaves behind. -/
structure Passed (status : AttemptRecord → Except Raised Answer) (now : Datetime) (records : List AttemptRecord)
    (ledger after : EncryptedAttemptLedger) : Prop where
  orderly : ∃ rows, Orderly after rows
  results : after.results = ledger.results
  held : ∀ attemptId record, ledger.Holds attemptId record → after.Holds attemptId record ∨
    record ∈ records ∧ ended status record = true ∧ ∃ made, Acknowledges now record made ∧ after.Holds attemptId made
  known : ∀ attemptId made, after.Holds attemptId made → ∃ record, ledger.Holds attemptId record

theorem Passed.refl {records : List AttemptRecord} (h : Orderly ledger rows) : Passed status now records ledger ledger :=
  ⟨⟨rows, h⟩, rfl, fun _ _ hheld => .inl hheld, fun _ made hheld => ⟨made, hheld⟩⟩

/-- The records of a pass are acknowledged exactly where their jobs are over, up to the first that fails. -/
theorem acknowledgeRecords_ends {records : List AttemptRecord} {acknowledged : Nat} (h : Orderly ledger rows)
    (hheld : ∀ record ∈ records, ledger.Holds record.attemptId record)
    (hdistinct : (records.map fun record => record.attemptId).Nodup) :
    Ends (acknowledgeRecords status vault nonce now records acknowledged) ledger fun r after =>
      Passed status now records ledger after ∧ ∀ n, r = .ok n → n = acknowledged + records.countP (ended status) ∧
        ∀ record ∈ records, ended status record = true →
          ∃ made, Acknowledges now record made ∧ after.Holds record.attemptId made := by
  induction records generalizing ledger rows acknowledged with
  | nil =>
    refine ⟨Passed.refl h, fun n hn => ⟨?_, fun record hrecord => (nomatch hrecord)⟩⟩
    exact (Except.ok.inj hn).symm
  | cons record rest ih =>
    obtain ⟨hfirst, hrest⟩ := List.nodup_cons.mp hdistinct
    have hothers : ∀ other ∈ rest, other.attemptId ≠ record.attemptId :=
      fun other hother hsame => hfirst (List.mem_map.mpr ⟨other, hother, hsame⟩)
    unfold acknowledgeRecords
    refine Ends.lift_bind (fun _ _ => ⟨Passed.refl h, nofun⟩) fun answer hanswer => ?_
    refine Ends.lift_bind (fun _ _ => ⟨Passed.refl h, nofun⟩) fun _ hprojects => ?_
    refine Ends.lift_bind (fun _ _ => ⟨Passed.refl h, nofun⟩) fun terminal hterminal => ?_
    have hended : ended status record = terminal := by
      unfold ended
      rw [hanswer, isTerminal_ok hterminal]
      dsimp only
      rw [requireRuntime_ok.mp hprojects, Bool.true_and]
    cases terminal with
    | false =>
      rw [if_neg Bool.false_ne_true]
      refine (@ih ledger rows acknowledged h (fun other hother => hheld other (List.mem_cons_of_mem _ hother))
        hrest).imp ?_
      rintro r after ⟨hpassed, hok⟩
      refine ⟨{ hpassed with held := fun attemptId other hother => ?_ }, fun n hn => ?_⟩
      · exact (hpassed.held attemptId other hother).imp_right fun hended =>
          ⟨List.mem_cons_of_mem _ hended.1, hended.2⟩
      · obtain ⟨hcount, hall⟩ := hok n hn
        refine ⟨by rw [hcount, List.countP_cons_of_neg (by rw [hended]; exact Bool.false_ne_true)], ?_⟩
        intro other hother hover
        obtain rfl | hmem := List.mem_cons.mp hother
        · rw [hended] at hover
          cases hover
        · exact hall other hmem hover
    | true =>
      rw [if_pos rfl]
      refine ends_bind.mpr (ends_update.mpr ?_)
      cases hacknowledge : ledger.acknowledge vault nonce record now with
      | error e => exact ⟨Passed.refl h, nofun⟩
      | ok ledger' =>
        obtain ⟨made, hmade, ⟨rows', hrows'⟩, hresults, hholds, hframe⟩ := acknowledged_orderly h hacknowledge
        refine (@ih ledger' rows' (acknowledged + 1) hrows' (fun other hother =>
          (hframe _ _ (hothers other hother)).mpr (hheld other (List.mem_cons_of_mem _ hother))) hrest).imp ?_
        rintro r after ⟨hpassed, hok⟩
        have hkept : after.Holds record.attemptId made := by
          obtain hsame | ⟨hmem, -, later, -, hlater⟩ := hpassed.held record.attemptId made hholds
          · exact hsame
          · exact absurd hmade.same_attempt (hothers made hmem)
        refine ⟨⟨hpassed.orderly, hpassed.results.trans hresults, fun attemptId other hother => ?_,
          fun attemptId later hlater => ?_⟩, fun n hn => ?_⟩
        · by_cases hid : attemptId = record.attemptId
          · obtain rfl := hid
            obtain rfl := EncryptedAttemptLedger.Holds.unique hother (hheld record List.mem_cons_self)
            exact .inr ⟨List.mem_cons_self, hended, made, hmade, hkept⟩
          · exact (hpassed.held attemptId other ((hframe attemptId other hid).mpr hother)).imp_right
              fun hover => ⟨List.mem_cons_of_mem _ hover.1, hover.2⟩
        · obtain ⟨before, hbefore⟩ := hpassed.known attemptId later hlater
          by_cases hid : attemptId = record.attemptId
          · exact ⟨record, hid ▸ hheld record List.mem_cons_self⟩
          · exact ⟨before, (hframe attemptId before hid).mp hbefore⟩
        · obtain ⟨hcount, hall⟩ := hok n hn
          refine ⟨by rw [hcount, List.countP_cons_of_pos hended]; omega, ?_⟩
          intro other hother hover
          obtain rfl | hmem := List.mem_cons.mp hother
          · exact ⟨made, hmade, hkept⟩
          · exact hall other hmem hover

/-- The records that are pending among the rows of a ledger. -/
theorem pendingRows_ok {records : List AttemptRecord}
    (hfiled : ∀ row ∈ rows, ∃ record : AttemptRecord, row = (record.attemptId, some record))
    (h : pendingRows now rows = .ok records) :
    (records.map fun record => record.attemptId).Sublist (rows.map Prod.fst) ∧ ∀ record : AttemptRecord,
      record ∈ records ↔ (record.attemptId, some record) ∈ rows ∧ isPending now record = .ok true := by
  induction rows generalizing records with
  | nil =>
    obtain rfl := Except.ok.inj h
    exact ⟨List.Sublist.refl _, fun record => ⟨fun hmem => (nomatch hmem), fun hmem => (nomatch hmem.1)⟩⟩
  | cons row rows ih =>
    obtain ⟨first, hfirst, h⟩ := Checks.bind_ok.mp h
    obtain ⟨pending, hpending, h⟩ := Checks.bind_ok.mp h
    obtain ⟨rest, hrest, h⟩ := Checks.bind_ok.mp h
    obtain rfl := Except.ok.inj h
    obtain ⟨record, rfl⟩ := hfiled row List.mem_cons_self
    obtain rfl := Option.some.inj (readRow_ok hfirst)
    obtain ⟨hsublist, hmem⟩ := ih (fun row hrow => hfiled row (List.mem_cons_of_mem _ hrow)) hrest
    have hsame : ∀ other : AttemptRecord, (other.attemptId, some other) = (record.attemptId, some record) → other = record :=
      fun other heq => Option.some.inj (Prod.mk.inj heq).2
    cases pending with
    | true =>
      refine ⟨hsublist.cons_cons _, fun other => ?_⟩
      rw [if_pos rfl, List.mem_cons, List.mem_cons, hmem other]
      constructor
      · rintro (rfl | ⟨hother, hover⟩)
        · exact ⟨.inl rfl, hpending⟩
        · exact ⟨.inr hother, hover⟩
      · rintro ⟨hother | hother, hover⟩
        · exact .inl (hsame other hother)
        · exact .inr ⟨hother, hover⟩
    | false =>
      refine ⟨hsublist.cons _, fun other => ?_⟩
      rw [if_neg Bool.false_ne_true, List.mem_cons, hmem other]
      constructor
      · exact fun hother => ⟨.inr hother.1, hother.2⟩
      · rintro ⟨hother | hother, hover⟩
        · rw [hsame other hother, hpending] at hover
          cases hover
        · exact ⟨hother, hover⟩

/-- A pass acknowledges no attempt but those that are pending and whose jobs the control plane projects as terminal,
all of them where it succeeds, and touches no evidence. -/
theorem terminal_outcomes_acknowledged (h : (retaining vault).Reach ledger) :
    Ends (acknowledgeTerminalOutcomes status vault nonce now) ledger fun r after =>
      (∃ rows, Orderly after rows) ∧ after.results = ledger.results ∧
        (∀ attemptId record, ledger.Holds attemptId record → after.Holds attemptId record ∨
          isPending now record = .ok true ∧ ended status record = true ∧
            ∃ made, Acknowledges now record made ∧ after.Holds attemptId made) ∧
        (∀ attemptId made, after.Holds attemptId made → ∃ record, ledger.Holds attemptId record) ∧
        ∀ n, r = .ok n → ∀ attemptId record, ledger.Holds attemptId record → isPending now record = .ok true →
          ended status record = true → ∃ made, Acknowledges now record made ∧ after.Holds attemptId made := by
  obtain ⟨rows, hrows⟩ := retained_orderly h
  have hstay (r : Except Raised Nat) (hr : ∀ n, r ≠ .ok n) := show (∃ rows, Orderly ledger rows) ∧
      ledger.results = ledger.results ∧
        (∀ attemptId record, ledger.Holds attemptId record → ledger.Holds attemptId record ∨
          isPending now record = .ok true ∧ ended status record = true ∧
            ∃ made, Acknowledges now record made ∧ ledger.Holds attemptId made) ∧
        (∀ attemptId made, ledger.Holds attemptId made → ∃ record, ledger.Holds attemptId record) ∧
        ∀ n, r = .ok n → ∀ attemptId record, ledger.Holds attemptId record → isPending now record = .ok true →
          ended status record = true → ∃ made, Acknowledges now record made ∧ ledger.Holds attemptId made from
    ⟨⟨rows, hrows⟩, rfl, fun _ _ hheld => .inl hheld, fun _ made hheld => ⟨made, hheld⟩, fun n hn => absurd hn (hr n)⟩
  unfold acknowledgeTerminalOutcomes
  refine Ends.lift_bind (fun _ _ => hstay _ nofun) fun _ _ => ?_
  refine Ends.view_bind (fun _ _ => hstay _ nofun) fun records hrecords => ?_
  obtain ⟨_, -, hrecords⟩ := Checks.bind_ok.mp hrecords
  obtain ⟨loaded, hloaded, hrecords⟩ := Checks.bind_ok.mp hrecords
  obtain rfl := Except.ok.inj (hrows.loaded.symm.trans hloaded)
  obtain ⟨hsublist, hmem⟩ := pendingRows_ok hrows.filed hrecords
  refine (acknowledgeRecords_ends hrows (fun record hrecord => hrows.holds_iff.mpr ((hmem record).mp hrecord).1)
    (hrows.distinct.sublist hsublist)).imp ?_
  rintro r after ⟨hpassed, hok⟩
  refine ⟨hpassed.orderly, hpassed.results, fun attemptId record hheld => ?_, hpassed.known,
    fun n hn attemptId record hheld hpending hended => ?_⟩
  · exact (hpassed.held attemptId record hheld).imp_right fun hover => ⟨((hmem record).mp hover.1).2, hover.2⟩
  · have hrow := hrows.holds_iff.mp hheld
    have hid : record.attemptId = attemptId := by
      obtain ⟨filed, hfiled⟩ := hrows.filed _ hrow
      obtain ⟨rfl, hsame⟩ := Prod.mk.inj hfiled
      rw [Option.some.inj hsame]
    rw [← hid] at hrow ⊢
    exact (hok n hn).2 record ((hmem record).mpr ⟨hrow, hpending⟩) hended

/-- A control plane that has accepted every job. -/
def acceptedStatus (record : AttemptRecord) : Except Raised Answer :=
  .ok [("collection_job_id", .str record.collectionJobId), ("job_digest", .str record.jobDigest),
    ("state", .str "ACCEPTED")]

/-- An attempt is acknowledged that the control plane has accepted. -/
theorem terminal_outcomes_acknowledged_accepted :
    ∃ rows, Orderly (acknowledgeTerminalOutcomes acceptedStatus plainVault [] weekLater
      (emptyLedger.after plainVault (.upsert [] heldRecord none))).2 rows :=
  (terminal_outcomes_acknowledged (.step (.start ⟨rfl, rfl⟩) rfl)).1

end Solvan.Relay.Attempts
