import Solvan.Liaison.Decisions
import Solvan.Liaison.Steer

/-! What reaches the coordinator was accepted: an envelope is submitted once, for a
request that is answered, with the step that was decided. -/
namespace Solvan.Liaison

variable {env : Rendering} {s s' : SteerStore} {row row' : ParkedRow} {call : DecideArgs}
  {decision : Decision} {m : SteerMove}

/-- What `decide` can make of a row. -/
inductive DecidedAs (env : Rendering) (row : ParkedRow) (call : DecideArgs) :
    ParkedRow → Decision → Prop where
  | refused {decision : Decision}
      (outcome : decision.outcome = .conflict ∨ decision.outcome = .forbidden ∨
        decision.outcome = .widened) : DecidedAs env row call row decision
  | replayed {decision : Decision} (outcome : decision.outcome = .replayed)
      (decided : row.status.decided) (truthy : truthy call.idempotencyKey = true)
      (key : row.decisionIdempotencyKey = call.idempotencyKey)
      (replay : row.replay env row call = some decision) : DecidedAs env row call row decision
  | won (pending : row.status = .pending)
      (narrow : ∀ decided, call.decidedPayload = some decided →
        isNarrowing env row.payload decided = true) :
      DecidedAs env row call (row.decided env row call) (call.won env row)

theorem ParkedRow.refusal_narrow {request : ParkedRow} (h : request.refusal env call = none)
    (decided : Payload) (hdecided : call.decidedPayload = some decided) :
    isNarrowing env request.payload decided = true := by
  unfold ParkedRow.refusal at h
  split at h
  · cases h
  · by_contra hwide
    rw [if_pos (by simp [hdecided, hwide])] at h
    cases h

theorem ParkedRow.decide_cases (env : Rendering) (row : ParkedRow) (call : DecideArgs) :
    DecidedAs env row call (row.decide env call).1 (row.decide env call).2 := by
  unfold ParkedRow.decide
  split
  · rename_i decision hreplay
    obtain ⟨hreplayable, hreplay⟩ := Option.ite_none_right_eq_some.mp hreplay
    obtain ⟨hdecided, htruthy⟩ := ParkedRow.replayable_decided hreplayable
    obtain ⟨hkey, houtcome⟩ := ParkedRow.replay_some hreplay
    exact .replayed houtcome hdecided htruthy hkey hreplay
  · split
    · rename_i decision hrefusal
      exact .refused (.inr (ParkedRow.refusal_outcome hrefusal))
    · rename_i hallowed
      split
      · rename_i hadmits
        simp only [ParkedRow.admits, Bool.and_eq_true, beq_iff_eq] at hadmits
        exact .won hadmits.1.1.1.1.1.1 (ParkedRow.refusal_narrow hallowed)
      · exact .refused (.inl rfl)

/-- What is recorded with a decision: its payload, which is empty only where
nothing was shown. -/
structure ParkedRow.Records (env : Rendering) (row : ParkedRow) (payload : Payload) : Prop where
  decided : row.decidedPayload = some payload
  hash : row.decidedPayloadHash = some (env.payloadDigest payload)
  empty : payload = [] → row.payload = []

theorem ParkedRow.decided_records (narrow : ∀ decided, call.decidedPayload = some decided →
    isNarrowing env row.payload decided = true) :
    (row.decided env row call).Records env (call.payload row.toParkedRequest) := by
  refine ⟨rfl, rfl, fun hempty => ?_⟩
  change row.payload = []
  cases hdecided : call.decidedPayload with
  | none => simpa [DecideArgs.payload, hdecided] using hempty
  | some decided =>
    have heq : decided = [] := by simpa [DecideArgs.payload, hdecided] using hempty
    have hnarrow := narrow decided hdecided
    rw [heq] at hnarrow
    simp only [isNarrowing, Bool.and_eq_true, List.all_eq_true, List.lookup_nil,
      Option.isSome_none] at hnarrow
    refine List.eq_nil_iff_forall_not_mem.mpr (fun f hf => ?_)
    exact absurd (hnarrow.1.1 f hf) (by simp)

/-- A replay returns what is recorded. -/
theorem ParkedRow.Records.replay {payload : Payload} (h : row.Records env payload)
    (hreplay : row.replay env row call = some decision) :
    decision.decidedPayload = some payload ∧
      decision.decidedPayloadHash = some (env.payloadDigest payload) := by
  unfold ParkedRow.replay at hreplay
  obtain ⟨-, hreplay⟩ := Option.ite_none_right_eq_some.mp hreplay
  rw [Option.some.injEq] at hreplay
  have hpayload : row.replayed row = payload := by
    unfold ParkedRow.replayed
    rw [h.decided]
    cases payload with
    | nil => exact h.empty rfl
    | cons f fs => rfl
  rw [hpayload] at hreplay
  rw [← hreplay]
  exact ⟨rfl, rfl⟩

/-- A row whose step may be submitted. -/
structure ParkedRow.Accepted (env : Rendering) (row : ParkedRow) (envelope : Envelope) : Prop where
  status : row.status = .answered
  step : row.decidedPayload = some envelope.step
  hash : row.decidedPayloadHash = some envelope.decidedPayloadHash
  readOnly : requestsReadOnly env envelope.step = true

structure SteerStore.Sound (env : Rendering) (s : SteerStore) : Prop where
  ids : Table.Unique (fun row => row.id) s.requests
  entries : Table.Unique SteerSubmission.parkedRequestId s.ledger
  events : Table.Unique InboxEvent.sourceEventId s.inbox
  recorded : ∀ row ∈ s.requests, row.status.decided → ∃ payload, row.Records env payload
  accepted : ∀ entry ∈ s.ledger, ∃ row ∈ s.requests, row.id = entry.parkedRequestId ∧
    row.Accepted env entry.envelope
  submitted : ∀ event ∈ s.inbox, ∃ entry ∈ s.ledger, entry.parkedRequestId = event.sourceEventId ∧
    entry.envelope = event.envelope

theorem SteerStore.empty_sound : SteerStore.empty.Sound env where
  ids := List.nodup_nil
  entries := List.nodup_nil
  events := List.nodup_nil
  recorded := by simp [SteerStore.empty]
  accepted := by simp [SteerStore.empty]
  submitted := by simp [SteerStore.empty]

theorem SteerStore.Sound.parkDraft {args : DraftArgs} (h : s.Sound env)
    (hnext : s.parkDraft env args = some s') : s'.Sound env := by
  unfold SteerStore.parkDraft at hnext
  obtain ⟨-, hnext⟩ := Option.ite_none_left_eq_some.mp hnext
  obtain ⟨hfresh, hnext⟩ := Option.ite_none_left_eq_some.mp hnext
  rw [Option.some.injEq] at hnext
  rw [← hnext]
  refine ⟨h.ids.append (fun row hrow hid => ?_), h.entries, h.events, fun row hrow hdecided => ?_,
    fun entry hentry => ?_, h.submitted⟩
  · exact hfresh (List.any_eq_true.mpr ⟨row, hrow, beq_iff_eq.mpr hid⟩)
  · rcases List.mem_append.mp hrow with hrow | hrow
    · exact h.recorded row hrow hdecided
    · rw [List.mem_singleton.mp hrow] at hdecided
      rcases hdecided with hstatus | hstatus <;> cases hstatus
  · obtain ⟨row, hrow, hrest⟩ := h.accepted entry hentry
    exact ⟨row, List.mem_append_left _ hrow, hrest⟩

theorem SteerStore.Sound.expireDue (h : s.Sound env) (now : Int) :
    SteerStore.Sound env { s with requests := s.requests.map (ParkedRow.expireDue now) } where
  ids := h.ids.map (fun row _ => congrArg ParkedRequest.id (ParkedRow.expireDue_request now row))
  entries := h.entries
  events := h.events
  recorded row hrow hdecided := by
    obtain ⟨row', hrow', rfl⟩ := List.mem_map.mp hrow
    have hold := ParkedRow.decided_of_expireDue hdecided
    rw [ParkedRow.expireDue_decided hold]
    exact h.recorded row' hrow' hold
  accepted entry hentry := by
    obtain ⟨row, hrow, hid, haccepted⟩ := h.accepted entry hentry
    have hsame : row.expireDue now = row := ParkedRow.expireDue_decided (.inl haccepted.status)
    exact ⟨row, List.mem_map.mpr ⟨row, hrow, hsame⟩, hid, haccepted⟩
  submitted := h.submitted

/-- A row that is not decided yet is replaced by one that records its decision. -/
theorem SteerStore.Sound.setRequest (h : s.Sound env) (hrow : row ∈ s.requests)
    (hid : row'.id = row.id) (hopen : row' = row ∨ ¬row.status.decided)
    (hrecords : row'.status.decided → ∃ payload, row'.Records env payload) :
    (s.setRequest row').Sound env where
  ids := h.ids.update (fun r _ hr => by simpa using Eq.symm (by simpa using hr))
  entries := h.entries
  events := h.events
  recorded r hr hdecided := by
    rcases Table.update_cases hr with ⟨-, -, -, rfl⟩ | ⟨hr, -⟩
    · exact hrecords hdecided
    · exact h.recorded r hr hdecided
  accepted entry hentry := by
    obtain ⟨r, hr, hentryId, haccepted⟩ := h.accepted entry hentry
    by_cases hsame : r.id = row'.id
    · have heq : r = row := h.ids.eq_of_key hr hrow (hsame.trans hid)
      rcases hopen with hunchanged | hundecided
      · refine ⟨r, Table.mem_update.mpr ⟨r, hr, ?_⟩, hentryId, haccepted⟩
        rw [if_pos (by simpa using hsame), hunchanged, heq]
      · exact absurd (heq ▸ .inl haccepted.status) hundecided
    · exact ⟨r, Table.mem_update_of_miss hr (by simpa using hsame), hentryId, haccepted⟩
  submitted := h.submitted

theorem SteerStore.mem_setRequest (hrow : row ∈ s.requests) (hid : row'.id = row.id) :
    row' ∈ (s.setRequest row').requests :=
  Table.mem_update.mpr ⟨row, hrow, if_pos (by simpa using hid.symm)⟩

theorem ParkedRow.decided_id (row request : ParkedRow) :
    (row.decided env request call).id = row.id := rfl

/-- Every decision leaves a sound store, and is recorded in it if it stands. -/
theorem SteerStore.Sound.decide (h : s.Sound env) (hrow : row ∈ s.requests)
    (hcases : DecidedAs env row call row' decision) : (s.setRequest row').Sound env := by
  cases hcases with
  | refused => exact h.setRequest hrow rfl (.inl rfl) (h.recorded row hrow)
  | replayed => exact h.setRequest hrow rfl (.inl rfl) (h.recorded row hrow)
  | won pending narrow =>
    refine h.setRequest hrow (ParkedRow.decided_id row row) (.inr ?_)
      (fun _ => ⟨_, ParkedRow.decided_records narrow⟩)
    rintro (hstatus | hstatus) <;> simp [hstatus] at pending

/-- The submission of an accepted request, whose envelope is new or stored. -/
theorem SteerStore.Sound.submit {requestId inboxId : String} {envelope : Envelope}
    {submission : SteerSubmission} (h : s.Sound env) (hrow : row ∈ s.requests)
    (hid : row.id = requestId) (haccepted : row.Accepted env envelope)
    (hsubmit : s.submit requestId inboxId envelope = some (s', submission)) : s'.Sound env := by
  unfold SteerStore.submit at hsubmit
  generalize hledger : (if s.ledger.any (fun entry => entry.parkedRequestId == requestId) then
    s.ledger else s.ledger ++ [⟨requestId, envelope, inboxId⟩]) = ledger at hsubmit
  have hkept : ∀ entry ∈ s.ledger, entry ∈ ledger := by
    intro entry hentry
    rw [← hledger]
    split
    · exact hentry
    · exact List.mem_append_left _ hentry
  have hentries : Table.Unique SteerSubmission.parkedRequestId ledger := by
    rw [← hledger]
    split
    · exact h.entries
    · rename_i hnew
      refine h.entries.append (fun entry hentry hsame => hnew (List.any_eq_true.mpr ?_))
      exact ⟨entry, hentry, by simpa using hsame⟩
  have hall : ∀ entry ∈ ledger, ∃ row ∈ s.requests, row.id = entry.parkedRequestId ∧
      row.Accepted env entry.envelope := by
    intro entry hentry
    rw [← hledger] at hentry
    split at hentry
    · exact h.accepted entry hentry
    · rcases List.mem_append.mp hentry with hentry | hentry
      · exact h.accepted entry hentry
      · rw [List.mem_singleton.mp hentry]
        exact ⟨row, hrow, hid, haccepted⟩
  simp only at hsubmit
  split at hsubmit
  · cases hsubmit
  · rename_i existing hfind
    obtain ⟨hexisting, hkey⟩ := Table.mem_of_find hfind
    rw [Option.some.injEq, Prod.mk.injEq] at hsubmit
    rw [← hsubmit.1]
    refine ⟨h.ids, hentries, ?_, h.recorded, hall, fun event hevent => ?_⟩
    · change Table.Unique InboxEvent.sourceEventId (ite _ _ _)
      split
      · exact h.events
      · rename_i hnew
        refine h.events.append (fun event hevent hsame => hnew (List.any_eq_true.mpr ?_))
        exact ⟨event, hevent, by simpa using hsame⟩
    · change event ∈ ite _ _ _ at hevent
      split at hevent
      · obtain ⟨entry, hentry, hrest⟩ := h.submitted event hevent
        exact ⟨entry, hkept entry hentry, hrest⟩
      · rcases List.mem_append.mp hevent with hevent | hevent
        · obtain ⟨entry, hentry, hrest⟩ := h.submitted event hevent
          exact ⟨entry, hkept entry hentry, hrest⟩
        · rw [List.mem_singleton.mp hevent]
          exact ⟨existing, hexisting, hkey, rfl⟩

theorem SteerStore.Sound.spend (h : s.Sound env) (nonces : List String) :
    SteerStore.Sound env { s with nonces := nonces } :=
  ⟨h.ids, h.entries, h.events, h.recorded, h.accepted, h.submitted⟩

theorem SteerStore.Sound.release {args : ConfirmArgs} {original : ParkedRow} {payload : Payload}
    {submission : SteerSubmission} (h : s.Sound env) (hrow : row ∈ s.requests)
    (hid : row.id = args.requestId) (hstatus : row.status = .answered)
    (hrecords : row.Records env payload) (hpayload : decision.decidedPayload = some payload)
    (hhash : decision.decidedPayloadHash = some (env.payloadDigest payload))
    (hrelease : s.release env args original decision = some (s', submission)) : s'.Sound env := by
  unfold SteerStore.release at hrelease
  obtain ⟨-, hrelease⟩ := Option.ite_none_left_eq_some.mp hrelease
  obtain ⟨hreadOnly, hsubmit⟩ := Option.ite_none_left_eq_some.mp hrelease
  have haccepted : row.Accepted env (args.envelope original decision) := by
    refine ⟨hstatus, ?_, ?_, ?_⟩
    · simp [ConfirmArgs.envelope, hpayload, hrecords.decided]
    · simp [ConfirmArgs.envelope, hhash, hrecords.hash]
    · simpa [ConfirmArgs.envelope] using hreadOnly
  exact (h.spend (s.nonces ++ [args.nonce])).submit hrow hid haccepted hsubmit

/-- No confirmation presents the key that is recorded with a rejection. -/
def ConfirmsNoRejection (s : SteerStore) : SteerMove → Prop
  | .confirm args => ∀ row ∈ s.requests, row.id = args.requestId → row.status = .rejected →
    truthy args.idempotencyKey = true → row.decisionIdempotencyKey ≠ args.idempotencyKey
  | _ => True

theorem SteerStore.Sound.confirm {args : ConfirmArgs} {submission : SteerSubmission}
    (h : s.Sound env) (hallowed : ConfirmsNoRejection s (.confirm args))
    (hconfirm : s.confirm env args = some (s', submission)) : s'.Sound env := by
  unfold SteerStore.confirm at hconfirm
  obtain ⟨row, hfind, hconfirm⟩ := Option.bind_eq_some_iff.mp hconfirm
  obtain ⟨hrow, hid⟩ := Table.mem_of_find hfind
  obtain ⟨-, hconfirm⟩ := Option.ite_none_left_eq_some.mp hconfirm
  have hcases := row.decide_cases env args.decides
  generalize (row.decide env args.decides).1 = row' at hcases hconfirm
  generalize (row.decide env args.decides).2 = decision at hcases hconfirm
  have hsound := h.decide hrow hcases
  unfold SteerStore.conclude at hconfirm
  cases hcases with
  | refused houtcome =>
    rcases houtcome with houtcome | houtcome | houtcome <;> simp [houtcome] at hconfirm
  | replayed houtcome hdecided htruthy hkey hreplay =>
    simp only [houtcome] at hconfirm
    split at hconfirm
    · rw [Option.some.injEq, Prod.mk.injEq] at hconfirm
      exact hconfirm.1 ▸ hsound
    · have hanswered : row.status = .answered := by
        rcases hdecided with hstatus | hstatus
        · exact hstatus
        · exact absurd hkey (hallowed row hrow hid hstatus htruthy)
      obtain ⟨payload, hrecords⟩ := h.recorded row hrow hdecided
      obtain ⟨hpayload, hhash⟩ := hrecords.replay hreplay
      exact hsound.release (SteerStore.mem_setRequest hrow rfl) hid hanswered hrecords hpayload
        hhash hconfirm
  | won pending narrow =>
    exact hsound.release (SteerStore.mem_setRequest hrow rfl) hid rfl
      (ParkedRow.decided_records narrow) rfl rfl hconfirm

theorem SteerStore.Sound.next (h : s.Sound env) (hallowed : ConfirmsNoRejection s m)
    (hnext : s.next env m = some s') : s'.Sound env := by
  cases m with
  | parkDraft args => exact h.parkDraft hnext
  | decide args =>
    obtain ⟨row, hfind, hnext⟩ := Option.bind_eq_some_iff.mp hnext
    rw [Option.some.injEq] at hnext
    exact hnext ▸ h.decide (Table.mem_of_find hfind).1 (row.decide_cases env args)
  | expireDue now =>
    rw [SteerStore.next, Option.some.injEq] at hnext
    exact hnext ▸ h.expireDue now
  | confirm args =>
    obtain ⟨⟨_, submission⟩, hconfirm, rfl⟩ := Option.map_eq_some_iff.mp hnext
    exact h.confirm hallowed hconfirm

/-- What the coordinator's inbox holds of the requests parked for it. -/
structure SteerStore.OnlyAccepted (env : Rendering) (s : SteerStore) : Prop where
  once : Table.Unique InboxEvent.sourceEventId s.inbox
  accepted : ∀ event ∈ s.inbox, ∃ row ∈ s.requests, row.id = event.sourceEventId ∧
    row.status = .answered ∧ row.decidedPayload = some event.envelope.step ∧
    requestsReadOnly env event.envelope.step = true
  refused : ∀ row ∈ s.requests, row.status = .rejected ∨ row.status = .expired →
    ∀ event ∈ s.inbox, event.sourceEventId ≠ row.id

theorem SteerStore.Sound.onlyAccepted (h : s.Sound env) : s.OnlyAccepted env := by
  have haccepted : ∀ event ∈ s.inbox, ∃ row ∈ s.requests, row.id = event.sourceEventId ∧
      row.Accepted env event.envelope := by
    intro event hevent
    obtain ⟨entry, hentry, hkey, henvelope⟩ := h.submitted event hevent
    obtain ⟨row, hrow, hid, haccepted⟩ := h.accepted entry hentry
    exact ⟨row, hrow, hid.trans hkey, henvelope ▸ haccepted⟩
  refine ⟨h.events, fun event hevent => ?_, fun row hrow hstatus event hevent hsame => ?_⟩
  · obtain ⟨row, hrow, hid, hrest⟩ := haccepted event hevent
    exact ⟨row, hrow, hid, hrest.status, hrest.step, hrest.readOnly⟩
  · obtain ⟨row', hrow', hid, hrest⟩ := haccepted event hevent
    have heq : row' = row := h.ids.eq_of_key hrow' hrow (hid.trans hsame)
    have hanswered := hrest.status
    rw [heq] at hanswered
    rcases hstatus with hstatus | hstatus <;> simp [hstatus] at hanswered

/-- Only what a person accepted is submitted. -/
theorem submitted_only_accepted (h : ((steers env).guarded ConfirmsNoRejection).Reach s) :
    s.OnlyAccepted env := by
  have hsound : s.Sound env := by
    refine h.invariant ?_ (fun _ _ _ _ hs move => hs.next move.1 move.2)
    rintro s rfl
    exact SteerStore.empty_sound
  exact hsound.onlyAccepted

section Example

instance (s : SteerStore) (m : SteerMove) : Decidable (ConfirmsNoRejection s m) :=
  match m with
  | .confirm args => inferInstanceAs (Decidable (∀ row ∈ s.requests, row.id = args.requestId →
      row.status = .rejected → truthy args.idempotencyKey = true →
      row.decisionIdempotencyKey ≠ args.idempotencyKey))
  | .parkDraft _ | .decide _ | .expireDue _ => isTrue trivial

def drafted : DraftArgs where
  requestId := "prk_1"
  draft := ⟨"Look at the logs", "log-reader", ["logs.read"], "small", "incident", "inc_1", []⟩
  principal := "alice"
  expectedWorkflowVersion := some 4
  expectedPlanVersion := none
  policyEpoch := 1
  expiresAt := 10

def steerRejected : DecideArgs where
  requestId := "prk_1"
  principal := "alice"
  accept := false
  decidedPayload := none
  idempotencyKey := some "key"
  feedback := none
  currentWorkflowVersion := some 4
  currentPlanVersion := none
  bindingEpoch := some 1
  now := 0

def steerConfirmed : ConfirmArgs where
  requestId := "prk_1"
  confirmingPrincipal := "alice"
  decidedPayload := none
  idempotencyKey := some "key"
  currentWorkflowVersion := some 4
  currentPlanVersion := none
  holdsOperatorRole := true
  policyEpoch := 1
  nonce := "non_1"
  inboxId := "evt_1"
  now := 0

theorem submitted_only_accepted_confirmed : ∃ s,
    ((steers plain).guarded ConfirmsNoRejection).Reach s ∧
    s.inbox.map InboxEvent.sourceEventId = ["prk_1"] ∧ s.OnlyAccepted plain := by
  obtain ⟨s, reach, hs⟩ := (Machine.exists_reach [.parkDraft drafted, .confirm steerConfirmed] rfl
    (by decide +kernel) : ∃ s, (Machine.ofFn (fun s => s = .empty)
      (Machine.guardFn ConfirmsNoRejection (SteerStore.next plain))).Reach s ∧
        decide (s.inbox.map InboxEvent.sourceEventId = ["prk_1"]) = true)
  have hguarded : ((steers plain).guarded ConfirmsNoRejection).Reach s := reach.of_guardFn
  exact ⟨s, hguarded, of_decide_eq_true hs, submitted_only_accepted hguarded⟩

/-- The step is rejected, and a confirmation with the same key submits it. -/
theorem submitted_though_rejected :
    ¬∀ (env : Rendering) (s : SteerStore), (steers env).Reach s → s.OnlyAccepted env := by
  intro hall
  obtain ⟨s, reach, hs⟩ := (Machine.exists_reach
    [.parkDraft drafted, .decide steerRejected, .confirm steerConfirmed] rfl (by decide +kernel) :
    ∃ s, (steers plain).Reach s ∧ (s.requests.any (fun row => decide (row.status = .rejected) &&
      s.inbox.any (fun event => event.sourceEventId == row.id))) = true)
  simp only [List.any_eq_true, Bool.and_eq_true, decide_eq_true_eq, beq_iff_eq] at hs
  obtain ⟨row, hrow, hrejected, event, hevent, hsame⟩ := hs
  exact (hall plain s reach).refused row hrow (.inl hrejected) event hevent hsame

end Example

end Solvan.Liaison
