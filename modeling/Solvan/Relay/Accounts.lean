import Solvan.Relay.Runtime

/-! Which attempts of a Relay are accounted for. -/
namespace Solvan.Relay.Attempts
open Base Failing

section Jobs

variable {hashing : RelayHashing} {env : Surroundings hashing} {job : RelayJobFields} {claim : Claim}
  {answer : Answer} {now started : Datetime} {value : String} {bytes : List UInt8}

/-- What the checks of a job say of its digests and attempts. -/
theorem RelayJob.facts (job : RelayJob hashing.toHashing) :
    requireDigest job.jobDigest "job_digest" = .ok job.jobDigest ∧
      requireDigest job.inputHash "input_hash" = .ok job.inputHash ∧ job.maximumAttempts ≤ 2 := by
  obtain ⟨_, hdigest, h⟩ := Checks.bind_ok.mp job.checked
  obtain ⟨_, -, h⟩ := Checks.bind_ok.mp h
  obtain ⟨_, -, h⟩ := Checks.bind_ok.mp h
  obtain ⟨_, hinput, h⟩ := Checks.bind_ok.mp h
  obtain ⟨_, -, h⟩ := Checks.bind_ok.mp h
  obtain ⟨_, -, h⟩ := Checks.bind_ok.mp h
  obtain ⟨_, -, h⟩ := Checks.bind_ok.mp h
  obtain ⟨_, -, h⟩ := Checks.bind_ok.mp h
  obtain ⟨-, hattempts⟩ := Bool.and_eq_true_iff.mp (requireRuntime_ok.mp h)
  exact ⟨checkDigest_ok.mp hdigest, checkDigest_ok.mp hinput,
    of_decide_eq_true (Bool.and_eq_true_iff.mp hattempts).2⟩

theorem readClaim_number (h : readClaim job answer = .ok claim) :
    1 ≤ claim.attemptNumber ∧ claim.attemptNumber ≤ job.maximumAttempts := by
  unfold readClaim at h
  split at h
  · split at h
    · rename_i hrange
      obtain rfl := Except.ok.inj h
      exact hrange
    · cases h
  · cases h

theorem hashOf_canonical : Canonical (hashOf hashing.toHashing bytes) := by
  refine ⟨_, ?_, fun c => Hex.hexdigest_digits c, by rw [hashOf, String.toList_append, String.toList_ofList]⟩
  rw [Hex.length_hexdigest, hashing.digestSize]

theorem digestOf_canonical {material : Json} (h : digestOf hashing.toHashing material = .ok value) :
    Canonical value := by
  unfold digestOf at h
  split at h
  · rename_i digest hdigest
    obtain rfl := Except.ok.inj h
    exact canonicalDigest_canonical hdigest
  · cases h

theorem canonical_nonempty (h : Canonical value) : value.isEmpty = false := by
  obtain ⟨digits, -, -, hvalue⟩ := h
  rw [Bool.eq_false_iff]
  intro hempty
  rw [String.isEmpty_iff.mp hempty] at hvalue
  cases hvalue

/-- Every object of texts has a digest. -/
theorem digestOf_texts (fields : List (String × String)) :
    ∃ digest, digestOf hashing.toHashing (.obj (fields.map fun field => (field.1, .str field.2))) = .ok digest := by
  obtain ⟨payload, hpayload⟩ := Option.isSome_iff_exists.mp (hashing.texts fields)
  unfold digestOf canonicalDigest
  rw [hpayload]
  exact ⟨_, rfl⟩

theorem requireDigest_canonical {field : String} (h : Canonical value) : requireDigest value field = .ok value :=
  (canonical_iff.mp h).1

theorem startedFields_proper {job : RelayJob hashing.toHashing} (hjob : identified "rcj_" job.collectionJobId = true)
    (hattempt : identified "rat_" claim.attemptId = true) (hread : readClaim job.toRelayJobFields answer = .ok claim)
    (hstarted : toUtc now = .ok started) : (startedFields env job.toRelayJobFields claim started).Proper := by
  obtain ⟨hdigest, hinput, hattempts⟩ := job.facts
  obtain ⟨hlow, hhigh⟩ := readClaim_number hread
  obtain ⟨hoffset, -⟩ := toUtc_ok hstarted
  have haware : started.aware = true := by
    rw [Datetime.aware, hoffset]
    rfl
  exact ⟨hjob, hattempt, ⟨hlow, hhigh.trans hattempts⟩, hdigest, hinput, fun _ h => (nomatch h), fun _ h => (nomatch h),
    ⟨haware, haware⟩, le_refl started.instant⟩

theorem storedFields_proper {outcomeHash localResultHash : String} (h : (startedFields env job claim started).Proper)
    (houtcome : Canonical outcomeHash) (hlocal : Canonical localResultHash) :
    (storedFields env job claim started outcomeHash localResultHash).Proper := by
  refine { h with outcome := fun hash hhash => ?_, localResult := fun hash hhash => ?_ }
  · obtain rfl := Option.some.inj hhash
    exact requireDigest_canonical houtcome
  · obtain rfl := Option.some.inj hhash
    exact requireDigest_canonical hlocal

/-- Evidence that is made is in the bounds of a result. -/
theorem gathered_bounds {adapter : LocalAdapter env.Settings} {evidence : Evidence}
    (h : gathered env job adapter now = .ok evidence) :
    env.dumps evidence.evidence ≠ [] ∧ (env.dumps evidence.evidence).length ≤ 1048576 := by
  obtain ⟨_, -, h⟩ := Checks.bind_ok.mp h
  obtain ⟨_, -, h⟩ := Checks.bind_ok.mp h
  obtain ⟨_, -, h⟩ := Checks.bind_ok.mp h
  obtain ⟨_, -, h⟩ := Checks.bind_ok.mp h
  obtain ⟨envelope, -, h⟩ := Checks.bind_ok.mp h
  obtain ⟨_, hbounds, h⟩ := Checks.bind_ok.mp h
  obtain rfl := Except.ok.inj h
  obtain ⟨hne, hlength⟩ := Bool.and_eq_true_iff.mp (requireRedaction_ok.mp hbounds)
  exact ⟨by simpa using hne, of_decide_eq_true hlength⟩

end Jobs

section Phases

variable {hashing : RelayHashing} {env : Surroundings hashing} {job : RelayJobFields} {claim : Claim}
  {adapter : LocalAdapter env.Settings} {now started : Datetime} {w : World hashing.toHashing}
  {fields : AttemptFields} {error : Raised} {outcomeHash localResultHash : String}

/-- What a read of the provider leaves behind: the ledger is as it was, and is all that was seen. -/
theorem collect_ends : Ends (collect env job adapter now) w fun r w' => r = gathered env job adapter now ∧
    ∃ extra, (∀ event ∈ extra, event = Event.read w.ledger) ∧ w' = { w with events := w.events ++ extra } := by
  unfold collect gathered
  cases readerFor env job with
  | error e => exact ⟨rfl, [], fun event hevent => (nomatch hevent), by rw [List.append_nil]; rfl⟩
  | ok reader =>
    refine ends_bind.mpr (ends_lift.mpr (ends_bind.mpr (ends_modify.mpr ?_)))
    have hseen : ∃ extra, (∀ event ∈ extra, event = Event.read w.ledger) ∧
        w.log (.read w.ledger) = { w with events := w.events ++ extra } :=
      ⟨[.read w.ledger], fun event hevent => List.mem_singleton.mp hevent, rfl⟩
    refine Ends.lift_bind (fun e he => ⟨?_, hseen⟩) fun records hrecords => ⟨?_, hseen⟩
    · exact (congrArg (fun read => read >>= fun records => evidenceEnvelope env job records now) he).symm
    · exact (congrArg (fun read => read >>= fun records => evidenceEnvelope env job records now) hrecords).symm

/-- A record is constructed and then written, or nothing is. -/
theorem ends_keep {resultBytes : Option (List UInt8)} {Q : Except Raised AttemptRecord → World hashing.toHashing → Prop} :
    Ends (keep env fields resultBytes) w Q ↔ match fields.construct with
      | .error e => Q (.error e) w
      | .ok record => match w.ledger.upsert env.vault env.nonce record resultBytes with
        | .error e => Q (.error e) w
        | .ok ledger => Q (.ok record) { w with ledger := ledger } := by
  unfold keep
  rw [ends_bind, ends_lift]
  cases fields.construct with
  | error e => rfl
  | ok record =>
    dsimp only
    rw [ends_bind, ends_update]
    cases w.ledger.upsert env.vault env.nonce record resultBytes <;> rfl

/-- Where a failure is reported, and where it is not. -/
theorem recordRetryableFailure_ends : Ends (recordRetryableFailure env job claim now) w fun r w' =>
    ((∃ completed outcomeHash answer, toUtc now = .ok completed ∧
      digestOf hashing.toHashing retryMaterial = .ok outcomeHash ∧
        env.retryableOutcome job.collectionJobId (retryBody env job claim completed outcomeHash) = .ok answer) ∧
          r = .ok () ∧ w' = w.log (.reported claim.attemptId)) ∨
      ((¬∃ completed outcomeHash answer, toUtc now = .ok completed ∧
        digestOf hashing.toHashing retryMaterial = .ok outcomeHash ∧
          env.retryableOutcome job.collectionJobId (retryBody env job claim completed outcomeHash) = .ok answer) ∧
            (∃ e, r = .error e) ∧ w' = w) := by
  unfold recordRetryableFailure
  cases hcompleted : toUtc now with
  | error e =>
    refine .inr ⟨?_, ⟨e, rfl⟩, rfl⟩
    rintro ⟨completed, outcomeHash, answer, h, -⟩
    cases h
  | ok completed =>
    rw [lift_ok_bind]
    cases hhash : digestOf hashing.toHashing retryMaterial with
    | error e =>
      refine .inr ⟨?_, ⟨e, rfl⟩, rfl⟩
      rintro ⟨completed, outcomeHash, answer, -, h, -⟩
      cases h
    | ok outcomeHash =>
      rw [lift_ok_bind]
      cases hanswer : env.retryableOutcome job.collectionJobId (retryBody env job claim completed outcomeHash) with
      | error e =>
        refine .inr ⟨?_, ⟨e, rfl⟩, rfl⟩
        rintro ⟨completed', outcomeHash', answer, h, h', hanswer'⟩
        obtain rfl := Except.ok.inj h
        obtain rfl := Except.ok.inj h'
        rw [hanswer] at hanswer'
        cases hanswer'
      | ok answer => exact .inl ⟨⟨completed, outcomeHash, answer, rfl, rfl, hanswer⟩, rfl, rfl⟩

/-- An exception of the read is raised again, and reported first where it can be. -/
theorem handleRead_ends : Ends (handleRead env job claim now error) w fun r w' => (∃ e, r = .error e) ∧
    ((Reported env job claim now error ∧ w' = w.log (.reported claim.attemptId)) ∨
      (¬Reported env job claim now error ∧ w' = w)) := by
  unfold handleRead
  split
  · exact ⟨⟨_, rfl⟩, .inr ⟨fun h => h.1 _ rfl, rfl⟩⟩
  · exact ⟨⟨_, rfl⟩, .inr ⟨fun h => h.2.1 _ rfl, rfl⟩⟩
  · rename_i hredaction hruntime
    refine ends_bind.mpr (recordRetryableFailure_ends.imp fun r w' h => ?_)
    obtain ⟨hreport, rfl, rfl⟩ | ⟨hnot, ⟨e, rfl⟩, rfl⟩ := h
    · exact ⟨⟨_, rfl⟩, .inl ⟨⟨hredaction, hruntime, hreport⟩, rfl⟩⟩
    · exact ⟨⟨e, rfl⟩, .inr ⟨fun h => hnot h.2.2, rfl⟩⟩

/-- Evidence that is kept stays, or its receipt is acknowledged. -/
theorem settle_ends {record : AttemptRecord} {evidence : Evidence} {content : List UInt8}
    (hevidence : KeepsEvidence env w.ledger job claim) (haware : now.aware = true) (hstarted : toUtc now = .ok started)
    (hrecord : record.toAttemptFields = storedFields env job claim started outcomeHash localResultHash) :
    Ends (settle env job claim record evidence outcomeHash localResultHash content started now) w fun _ w' =>
      (∃ extra, w'.events = w.events ++ extra ∧ ∀ event ∈ extra, event = Event.received claim.attemptId) ∧
        Settled env w' job claim := by
  have hstay : (∃ extra, w.events = w.events ++ extra ∧ ∀ event ∈ extra, event = Event.received claim.attemptId) ∧
      Settled env w job claim := ⟨⟨[], (List.append_nil _).symm, fun event hevent => (nomatch hevent)⟩,
        .inr (.inr hevidence)⟩
  unfold settle
  refine Ends.lift_bind (fun _ _ => hstay) fun grant _ => ?_
  refine Ends.lift_bind (fun _ _ => hstay) fun headers _ => ?_
  refine Ends.lift_bind (fun _ _ => hstay) fun metadata _ => ?_
  refine Ends.lift_bind (fun _ _ => hstay) fun _ _ => ?_
  refine Ends.lift_bind (fun _ _ => hstay) fun _ _ => ?_
  refine Ends.lift_bind (fun _ _ => hstay) fun _ _ => ?_
  obtain ⟨prior, bytes, hprior, hstate, hhash, hread⟩ := hevidence
  have hid : record.attemptId = claim.attemptId := by
    rw [hrecord]
    rfl
  have hsame : sameAuthority prior.toAttemptFields record.toAttemptFields = true := by
    rw [hrecord]
    exact sameAuthority_iff.mpr hprior.2
  have hupdated : record.updatedAt.instant = now.instant := by
    rw [hrecord]
    exact (toUtc_ok hstarted).2
  have hholds : w.ledger.Holds record.attemptId prior := by
    rw [hid]
    exact hprior.1
  obtain ⟨ledger, made, hledger, hmade, hmadeHolds⟩ :=
    @EncryptedAttemptLedger.acknowledge_held env.vault env.nonce w.ledger record prior now started haware hstarted hupdated hholds hsame
  have hupdate : Ends (update fun w : World hashing.toHashing =>
      (w.ledger.acknowledge env.vault env.nonce record now).map fun ledger => { w with ledger := ledger })
        (w.log (.received claim.attemptId)) fun r w' => r = .ok ⟨⟩ ∧
          w' = { w.log (.received claim.attemptId) with ledger := ledger } := by
    have hmap : ((w.log (.received claim.attemptId)).ledger.acknowledge env.vault env.nonce record now).map
        (fun ledger => { w.log (.received claim.attemptId) with ledger := ledger }) =
          .ok { w.log (.received claim.attemptId) with ledger := ledger } := congrArg (Except.map _) hledger
    rw [ends_update, hmap]
    exact ⟨rfl, rfl⟩
  have hkeeps : Keeps ledger job claim made := by
    refine ⟨hid ▸ hmadeHolds, ?_, ?_, ?_⟩ <;> rw [hmade, hrecord] <;> rfl
  have hacknowledged : made.state = .acknowledged := by
    rw [hmade]
    rfl
  refine ends_bind.mpr (ends_modify.mpr (ends_bind.mpr (hupdate.imp fun r w' h => ?_)))
  obtain ⟨rfl, rfl⟩ := h
  refine ⟨⟨[.received claim.attemptId], rfl, fun event hevent => List.mem_singleton.mp hevent⟩, .inl ⟨?_, made, hkeeps, hacknowledged⟩⟩
  exact List.mem_append_right _ (List.mem_singleton_self _)

/-- What an attempt adds to the events: no claim, and reads only while the ledger keeps the attempt. -/
def Continues (w w' : World hashing.toHashing) (job : RelayJobFields) (claim : Claim) : Prop :=
  ∃ extra, w'.events = w.events ++ extra ∧ (∀ job answer, Event.claimed job answer ∉ extra) ∧
    ∀ held, Event.read held ∈ extra → ∃ record, Keeps held job claim record

theorem Continues.refl : Continues w w job claim :=
  ⟨[], (List.append_nil _).symm, fun _ _ h => (nomatch h), fun _ h => (nomatch h)⟩

theorem Continues.trans {w' w'' : World hashing.toHashing} (h : Continues w w' job claim)
    (h' : Continues w' w'' job claim) : Continues w w'' job claim := by
  obtain ⟨extra, hevents, hclaimed, hread⟩ := h
  obtain ⟨extra', hevents', hclaimed', hread'⟩ := h'
  refine ⟨extra ++ extra', by rw [hevents', hevents, List.append_assoc], fun job answer hmem => ?_, fun held hmem => ?_⟩
  · exact (List.mem_append.mp hmem).elim (hclaimed job answer) (hclaimed' job answer)
  · exact (List.mem_append.mp hmem).elim (hread held) (hread' held)

/-- Nothing was reported or received before. -/
def Silent (w : World hashing.toHashing) (claim : Claim) : Prop :=
  Event.received claim.attemptId ∉ w.events ∧ Event.reported claim.attemptId ∉ w.events

theorem Silent.settled_iff (h : Silent w claim) : Settled env w job claim ↔ KeepsEvidence env w.ledger job claim :=
  ⟨fun hsettled => hsettled.elim (fun hreceived => absurd hreceived.1 h.1)
    (fun hrest => hrest.elim (fun hreported => absurd hreported h.2) id), fun hkeeps => .inr (.inr hkeeps)⟩

/-- A record that only starts keeps no evidence. -/
theorem not_keepsEvidence {ledger : EncryptedAttemptLedger} {record : AttemptRecord}
    (h : ledger.Holds claim.attemptId record) (hstate : record.state = .started) :
    ¬KeepsEvidence env ledger job claim := by
  rintro ⟨other, _, hother, hstored, -⟩
  rw [EncryptedAttemptLedger.Holds.unique h hother.1, hstored] at hstate
  cases hstate

/-- Evidence that is kept under a claim lets the claim start again. -/
theorem KeepsEvidence.startable {ledger : EncryptedAttemptLedger} (h : KeepsEvidence env ledger job claim)
    (started : Datetime) :
    identified "rcj_" job.collectionJobId = true ∧ identified "rat_" claim.attemptId = true ∧
      ledger.Admits (startedFields env job claim started) := by
  obtain ⟨record, _, ⟨hholds, hrest⟩, -, -, hread⟩ := h
  obtain ⟨_, hpath, -⟩ := Checks.bind_ok.mp hread
  refine ⟨hrest.1 ▸ record.proper.job, requireLedger_ok.mp hpath, ?_⟩
  exact @EncryptedAttemptLedger.Holds.admits _ _ (startedFields env job claim started) hholds (sameAuthority_iff.mpr hrest)

/-- Evidence is kept from no attempt whose identifier leaves ASCII, and settled for every other. -/
theorem stored_ends {job : RelayJob hashing.toHashing} {evidence : Evidence} {record : AttemptRecord}
    (hsilent : Silent w claim) (haware : now.aware = true) (hstarted : toUtc now = .ok started)
    (hholds : w.ledger.Holds claim.attemptId record)
    (hrecord : record.toAttemptFields = startedFields env job.toRelayJobFields claim started)
    (hgathered : gathered env job.toRelayJobFields adapter now = .ok evidence)
    (houtcome : Canonical outcomeHash) :
    Ends (do
      let record ← keep env (storedFields env job.toRelayJobFields claim started outcomeHash
        (hashOf hashing.toHashing (env.dumps evidence.evidence))) (some (env.dumps evidence.evidence))
      settle env job.toRelayJobFields claim record evidence outcomeHash
        (hashOf hashing.toHashing (env.dumps evidence.evidence)) (env.dumps evidence.evidence) started now) w
      fun _ w' => (∃ extra, w'.events = w.events ++ extra ∧ ∀ event ∈ extra, event = Event.received claim.attemptId) ∧
        (Settled env w' job.toRelayJobFields claim ↔ isAscii claim.attemptId = true) := by
  have hproper : (startedFields env job.toRelayJobFields claim started).Proper := hrecord ▸ record.proper
  obtain ⟨stored, hstored, hfields⟩ := construct_proper
    (storedFields_proper hproper houtcome (@hashOf_canonical hashing (env.dumps evidence.evidence)))
  have hid : stored.attemptId = claim.attemptId := by
    rw [hfields]
    rfl
  have hsame : sameAuthority record.toAttemptFields stored.toAttemptFields = true := by
    rw [hrecord, hfields]
    exact sameAuthority_iff.mpr ⟨rfl, rfl, rfl⟩
  have hadmits : w.ledger.Admits stored.toAttemptFields :=
    @EncryptedAttemptLedger.Holds.admits _ _ stored.toAttemptFields (hid ▸ hholds) hsame
  refine ends_bind.mpr (ends_keep.mpr ?_)
  rw [hstored]
  dsimp only
  cases hascii : isAscii claim.attemptId with
  | true =>
    have hhash : (stored.localResultHash.getD "").isEmpty = false := by
      rw [hfields]
      exact canonical_nonempty hashOf_canonical
    obtain ⟨ledger, hledger, hkept, hread⟩ := @EncryptedAttemptLedger.upsert_bytes env.vault env.nonce _ w.ledger stored
      hadmits hhash (gathered_bounds hgathered) (hid ▸ hascii) stored.proper.attempt
    rw [hledger]
    have hevidence : KeepsEvidence env ledger job.toRelayJobFields claim := by
      refine ⟨stored, _, ⟨hid ▸ hkept, ?_, ?_, ?_⟩, ?_, ?_, hid ▸ hread⟩ <;> rw [hfields] <;> rfl
    refine (@settle_ends _ _ _ _ _ _ { w with ledger := ledger } _ _ _ _ _ hevidence haware hstarted hfields).imp ?_
    rintro r w' ⟨hextra, hsettled⟩
    exact ⟨hextra, iff_of_true hsettled rfl⟩
  | false =>
    cases hledger : w.ledger.upsert env.vault env.nonce stored (some (env.dumps evidence.evidence)) with
    | ok ledger =>
      rw [← hid, EncryptedAttemptLedger.upsert_bytes_ascii hledger] at hascii
      cases hascii
    | error e =>
      refine ⟨⟨[], (List.append_nil _).symm, fun event hevent => (nomatch hevent)⟩, ?_⟩
      rw [hsilent.settled_iff]
      exact iff_of_false (not_keepsEvidence hholds (by rw [hrecord]; rfl)) nofun

/-- Once an attempt is in the ledger, it is settled exactly where the read comes to a conclusion. -/
theorem pursue_ends {job : RelayJob hashing.toHashing} {record : AttemptRecord} (hsilent : Silent w claim)
    (haware : now.aware = true) (hstarted : toUtc now = .ok started)
    (hholds : w.ledger.Holds claim.attemptId record)
    (hrecord : record.toAttemptFields = startedFields env job.toRelayJobFields claim started) :
    Ends (pursue env job.toRelayJobFields adapter claim started now) w
      fun _ w' => Continues w w' job.toRelayJobFields claim ∧
        (Settled env w' job.toRelayJobFields claim ↔ Concluded env job.toRelayJobFields adapter claim now) := by
  have hkeeps : Keeps w.ledger job.toRelayJobFields claim record := by
    refine ⟨hholds, ?_, ?_, ?_⟩ <;> rw [hrecord] <;> rfl
  unfold pursue
  refine ends_bind.mpr (ends_catching.mpr (collect_ends.imp ?_))
  rintro r w' ⟨rfl, extra, hextra, rfl⟩
  have hcontinues : Continues w { w with events := w.events ++ extra } job.toRelayJobFields claim := by
    refine ⟨extra, rfl, fun job answer hmem => ?_, fun held hmem => ?_⟩
    · exact nomatch hextra _ hmem
    · exact ⟨record, Event.read.inj (hextra _ hmem) ▸ hkeeps⟩
  have hquiet : Silent { w with events := w.events ++ extra } claim := by
    refine ⟨fun hmem => ?_, fun hmem => ?_⟩
    · exact (List.mem_append.mp hmem).elim hsilent.1 fun h => (nomatch hextra _ h)
    · exact (List.mem_append.mp hmem).elim hsilent.2 fun h => (nomatch hextra _ h)
  unfold Concluded
  cases hgathered : gathered env job.toRelayJobFields adapter now with
  | error e =>
    refine handleRead_ends.imp ?_
    rintro r w' ⟨⟨raised, rfl⟩, ⟨hreported, rfl⟩ | ⟨hnot, rfl⟩⟩
    · refine ⟨hcontinues.trans ⟨[.reported claim.attemptId], rfl, ?_, ?_⟩, iff_of_true (.inr (.inl ?_)) hreported⟩
      · exact fun _ _ h => nomatch List.mem_singleton.mp h
      · exact fun _ h => nomatch List.mem_singleton.mp h
      · exact List.mem_append_right _ (List.mem_singleton_self _)
    · refine ⟨hcontinues, ?_⟩
      rw [hquiet.settled_iff]
      exact iff_of_false (not_keepsEvidence hholds (by rw [hrecord]; rfl)) hnot
  | ok evidence =>
    obtain ⟨outcomeHash, houtcome⟩ := @digestOf_texts hashing
      [("result", "SUCCEEDED"), ("content_hash", evidence.contentHash), ("attempt_id", claim.attemptId)]
    have hdigest : digestOf hashing.toHashing (outcomeMaterial evidence claim) = .ok outcomeHash := houtcome
    show Ends (lift (digestOf hashing.toHashing (outcomeMaterial evidence claim)) >>= _) _ _
    rw [hdigest, lift_ok_bind]
    refine (stored_ends hquiet haware hstarted hholds hrecord hgathered (digestOf_canonical hdigest)).imp ?_
    rintro r w' ⟨⟨received, hreceived, hall⟩, hsettled⟩
    refine ⟨hcontinues.trans ⟨received, hreceived, ?_, ?_⟩, hsettled⟩
    · exact fun _ _ h => nomatch hall _ h
    · exact fun _ h => nomatch hall _ h

/-- An attempt is settled exactly where it is manageable. -/
theorem attempt_ends {job : RelayJob hashing.toHashing} {answer : Answer} (hsilent : Silent w claim)
    (haware : now.aware = true) (hread : readClaim job.toRelayJobFields answer = .ok claim) :
    Ends (attempt env job.toRelayJobFields adapter claim now) w
      fun _ w' => Continues w w' job.toRelayJobFields claim ∧
        (Settled env w' job.toRelayJobFields claim ↔ Manageable env job.toRelayJobFields adapter claim now w.ledger) := by
  unfold attempt Manageable
  cases hstarted : toUtc now with
  | error e => exact ⟨Continues.refl, hsilent.settled_iff⟩
  | ok started =>
    rw [lift_ok_bind]
    refine ends_bind.mpr (ends_keep.mpr ?_)
    cases hrecord : (startedFields env job.toRelayJobFields claim started).construct with
    | error e =>
      refine ⟨Continues.refl, hsilent.settled_iff.trans ?_⟩
      have hnot : ¬(identified "rcj_" job.collectionJobId = true ∧ identified "rat_" claim.attemptId = true) := by
        rintro ⟨hjob, hattempt⟩
        obtain ⟨made, hmade, -⟩ := construct_proper (@startedFields_proper _ env _ _ _ _ _ hjob hattempt hread hstarted)
        rw [hrecord] at hmade
        cases hmade
      exact iff_of_false (fun h => hnot ⟨(h.startable started).1, (h.startable started).2.1⟩)
        (fun h => hnot ⟨h.1, h.2.1⟩)
    | ok record =>
      have hfields := construct_ok.mp hrecord
      have hid : record.attemptId = claim.attemptId := by
        rw [hfields]
        rfl
      dsimp only
      cases hledger : w.ledger.upsert env.vault env.nonce record none with
      | error e =>
        refine ⟨Continues.refl, hsilent.settled_iff.trans ?_⟩
        have hnot : ¬w.ledger.Admits (startedFields env job.toRelayJobFields claim started) := by
          intro hadmits
          obtain ⟨ledger, hadmitted⟩ := @EncryptedAttemptLedger.upsert_admitted env.vault env.nonce w.ledger record
            (hfields ▸ hadmits)
          rw [hledger] at hadmitted
          cases hadmitted
        exact iff_of_false (fun h => hnot (h.startable started).2.2) (fun h => hnot h.2.2.1)
      | ok ledger =>
        obtain ⟨hadmits, -⟩ := EncryptedAttemptLedger.upsert_none.mp hledger
        have hholds : ledger.Holds claim.attemptId record := hid ▸ (EncryptedAttemptLedger.upsert_none_holds hledger).1
        refine (@pursue_ends _ _ _ adapter _ _ { w with ledger := ledger } _ _ hsilent haware hstarted hholds hfields).imp ?_
        rintro r w' ⟨hcontinues, hsettled⟩
        refine ⟨hcontinues, hsettled.trans ⟨fun h => ⟨?_, ?_, ?_, h⟩, fun h => h.2.2.2⟩⟩
        · exact (congrArg (fun fields => identified "rcj_" fields.collectionJobId) hfields).symm.trans record.proper.job
        · exact hid ▸ record.proper.attempt
        · exact hfields ▸ hadmits

end Phases

variable {hashing : RelayHashing}

theorem prepare_aware {env : Surroundings hashing} {policy : RelayPolicy env.Settings} {envelope : env.Envelope}
    {now : Datetime} {prepared : RelayJob hashing.toHashing × LocalAdapter env.Settings}
    (h : prepare env policy envelope now = .ok prepared) : now.aware = true := by
  obtain ⟨_, haware, -⟩ := Checks.bind_ok.mp h
  unfold requireAware at haware
  split at haware
  · assumption
  · cases haware

/-- What is accounted for under the one claim that was taken. -/
theorem claimed_ends {env : Surroundings hashing} {job : RelayJob hashing.toHashing} {answer : Answer} {now : Datetime}
    {adapter : LocalAdapter env.Settings} {ledger : EncryptedAttemptLedger} (haware : now.aware = true) :
    Ends (lift (readClaim job.toRelayJobFields answer) >>= fun claim =>
        attempt env job.toRelayJobFields adapter claim now) (World.log ⟨ledger, []⟩ (.claimed job answer)) fun _ w =>
      (∀ job answer, Event.claimed job answer ∈ w.events → ¬ledger.Full ∧
        ∀ claim, readClaim job.toRelayJobFields answer = .ok claim →
          (∀ held, Event.read held ∈ w.events → ∃ record, Keeps held job.toRelayJobFields claim record) ∧
            Settled env w job.toRelayJobFields claim) ↔
      (¬ledger.Full ∧ ∀ claim, readClaim job.toRelayJobFields answer = .ok claim →
        Manageable env job.toRelayJobFields adapter claim now ledger) := by
  cases hread : readClaim job.toRelayJobFields answer with
  | error e =>
    refine ⟨fun h => ⟨(h job answer (List.mem_singleton_self _)).1, fun _ h => (nomatch h)⟩, fun h job' answer' hmem => ?_⟩
    obtain ⟨rfl, rfl⟩ := Event.claimed.inj (List.mem_singleton.mp hmem)
    exact ⟨h.1, fun claim hclaim => nomatch hread.symm.trans hclaim⟩
  | ok claim =>
    rw [lift_ok_bind]
    have hsilent : Silent (World.log ⟨ledger, []⟩ (.claimed job answer)) claim :=
      ⟨fun h => (nomatch List.mem_singleton.mp h), fun h => (nomatch List.mem_singleton.mp h)⟩
    refine (@attempt_ends _ env _ adapter _ _ job answer hsilent haware hread).imp ?_
    rintro r w ⟨⟨extra, hextra, hclaimed, hheld⟩, hsettled⟩
    rw [hextra]
    constructor
    · intro h
      obtain ⟨hfull, hall⟩ := h job answer (List.mem_append_left _ (List.mem_singleton_self _))
      refine ⟨hfull, fun claim' hclaim' => ?_⟩
      obtain rfl := Except.ok.inj hclaim'
      exact hsettled.mp (hall claim hread).2
    · intro h job' answer' hmem
      obtain hfirst | hlater := List.mem_append.mp hmem
      · obtain ⟨rfl, rfl⟩ := Event.claimed.inj (List.mem_singleton.mp hfirst)
        refine ⟨h.1, fun claim' hclaim' => ?_⟩
        obtain rfl := Except.ok.inj (hread.symm.trans hclaim')
        refine ⟨fun held hmem => ?_, hsettled.mpr (h.2 claim rfl)⟩
        exact (List.mem_append.mp hmem).elim (fun h => (nomatch List.mem_singleton.mp h)) (hheld held)
      · exact absurd hlater (hclaimed job' answer')

/-- How an execution goes on from a claim. -/
theorem execute_claimed {env : Surroundings hashing} {policy : RelayPolicy env.Settings} {envelope : env.Envelope}
    {now : Datetime} {job : RelayJob hashing.toHashing} {adapter : LocalAdapter env.Settings} {answer : Answer}
    (hprepared : prepare env policy envelope now = .ok (job, adapter))
    (hanswer : env.claim job.collectionJobId job.jobDigest env.processBootId = .ok answer)
    (w : World hashing.toHashing) : execute env policy envelope now w =
      (lift (readClaim job.toRelayJobFields answer) >>= fun claim =>
        attempt env job.toRelayJobFields adapter claim now) (w.log (.claimed job answer)) := by
  unfold execute
  rw [hprepared, lift_ok_bind]
  dsimp only
  rw [hanswer, lift_ok_bind, modify_bind]

theorem fromEnvelope_ok {env : Surroundings hashing} {envelope : env.Envelope} {fields : RelayJobFields}
    (hverify : env.verify envelope = .ok fields) (hcheck : fields.check hashing.toHashing = .ok ()) :
    fromEnvelope env envelope = .ok { toRelayJobFields := fields, checked := hcheck } := by
  unfold fromEnvelope
  rw [hverify]
  dsimp only
  split
  · rfl
  · rename_i e he
    rw [hcheck] at he
    cases he

/-- The hash of the object without fields, and none that is asked for of anything else. -/
def emptyHashing : RelayHashing where
  canonical := fun value => match value with
    | .obj [] => some [123, 125]
    | _ => some []
  sha256 := fun bytes =>
    if bytes = [123, 125] then
      [68, 19, 111, 163, 85, 179, 103, 138, 17, 70, 173, 22, 247, 232, 100, 158, 148, 251, 79, 194, 31, 231, 126, 131, 16, 192, 96, 246, 28, 170, 255, 138]
    else List.replicate 32 0
  digestSize := fun bytes => by split <;> rfl
  texts := fun fields => by split <;> rfl

/-- A job that asks for one page of metadata. -/
def metadataJob : RelayJobFields where
  collectionJobId := "rcj_01ARZ3NDEKTSV4RRFFQ69G5FAV"
  jobDigest := zeroDigest
  adapterKey := "kubernetes-metadata.v1"
  adapterRevision := "1"
  sourceConnectionId := "cluster"
  sourceConnectionEpoch := 1
  operation := "kubernetes.metadata.list.v1"
  typedParameters := []
  parametersHash := "sha256:44136fa355b3678a1146ad16f7e8649e94fb4fc21fe77e8310c060f61caaff8a"
  resourceBindingId := "pgn_01ARZ3NDEKTSV4RRFFQ69G5FAV"
  resourceBindingHash := zeroDigest
  windowStart := none
  windowEnd := none
  maximumPages := 1
  maximumItems := 1
  maximumBytes := 1
  maximumCalls := 1
  maximumAttempts := 1
  redactionRevision := "1"
  classificationCeiling := "INTERNAL"
  residencyRegion := "europe-west4"
  inputHash := zeroDigest
  schemaVersion := 1
  canonicalizationVersion := 1

/-- Parties that grant every claim and answer nothing else. -/
def grantingSurroundings : Surroundings emptyHashing where
  Envelope := Unit
  Settings := Unit
  Record := Unit
  verify := fun _ => .ok metadataJob
  claim := fun _ _ _ => .ok [("claim_token", .str "token"), ("attempt_id", .str "rat_01ARZ3NDEKTSV4RRFFQ69G5FAV"),
    ("attempt_number", .int 1)]
  readers := fun _ => none
  redacted := fun _ _ _ => .error .other
  dumps := fun _ => []
  uploadGrant := fun _ _ => .error .other
  upload := fun _ _ _ => .error .other
  receipt := fun _ _ => .error .other
  retryableOutcome := fun _ _ => .error .other
  vault := plainVault
  nonce := List.replicate 12 0
  processBootId := "boot"

def clusterPolicy : RelayPolicy Unit where
  redactionRevision := "1"
  region := "europe-west4"
  classificationCeiling := "RESTRICTED"
  adapters := fun _ _ => some ⟨1, ["kubernetes.metadata.list.v1"], ()⟩

/-- A ledger for one attempt, which it has. -/
def fullLedger : EncryptedAttemptLedger where
  index := .rows [("rat_00000000000000000000000000", none)]
  results := []
  maxRecords := 1
  bounded := one_bounded

end Solvan.Relay.Attempts
