import Solvan.Base.Json.Read
import Solvan.Liaison.Parked

/-! A parked request is decided once. The one conditional update decides; a call
that repeats the recorded key is answered from what is stored. -/
namespace Solvan.Liaison

variable {env : Rendering} {s s' t : Parked} {row : ParkedRow}
  {call c : DecideCall} {stage : DecideStage} {m : ParkedMove}
  {P : ParkedRow → DecideArgs → Prop}

def ParkedStatus.decided (status : ParkedStatus) : Prop := status = .answered ∨ status = .rejected

def DecideStage.returns (stage : DecideStage) (outcome : DecisionOutcome) : Prop :=
  ∃ decision, stage = .returned decision ∧ decision.outcome = outcome

/-- The call whose decision a row records. -/
structure Recorded (row : ParkedRow) (call : DecideArgs) : Prop where
  status : row.status = if call.accept then .answered else .rejected
  principal : row.answeredByPrincipal = some call.principal
  key : row.decisionIdempotencyKey = call.idempotencyKey
  payload : row.decidedPayload = some (call.payload row.toParkedRequest)
  permitted : mayAnswer row.toParkedRequest call.principal = true
  timely : call.now < row.expiresAt
  binding : row.bindingId = none ∧ row.bindingEpoch = none ∨
    row.bindingId.isSome = true ∧ row.bindingEpoch.isSome = true ∧
      row.bindingEpoch = call.bindingEpoch
  workflowVersion : presents row.expectedWorkflowVersion call.currentWorkflowVersion = true
  planVersion : presents row.expectedPlanVersion call.currentPlanVersion = true

/-- A call that repeats the decision a row records. -/
structure Repeats (row : ParkedRow) (call : DecideArgs) : Prop where
  principal : row.answeredByPrincipal = some call.principal
  status : row.status = if call.accept then .answered else .rejected
  payload : ∃ decided, row.decidedPayload = some decided ∧
    Json.Same (.obj decided) (.obj (call.payload row.toParkedRequest))

@[simp] theorem DecideStage.returned_returns {decision : Decision} {outcome : DecisionOutcome} :
    (DecideStage.returned decision).returns outcome ↔ decision.outcome = outcome := by
  simp [DecideStage.returns]

@[simp] theorem DecideStage.replay_returns {outcome : DecisionOutcome} :
    ¬(DecideStage.replay row).returns outcome := by
  rintro ⟨_, h, -⟩
  cases h

@[simp] theorem DecideStage.update_returns {outcome : DecisionOutcome} :
    ¬(DecideStage.update row).returns outcome := by
  rintro ⟨_, h, -⟩
  cases h

@[simp] theorem Decision.refused_outcome (outcome : DecisionOutcome) (call : DecideArgs)
    (reason : String) : (Decision.refused outcome call reason).outcome = outcome := rfl

@[simp] theorem DecideArgs.unknown_outcome (call : DecideArgs) : call.unknown.outcome = .conflict :=
  rfl

@[simp] theorem DecideArgs.lost_outcome (call : DecideArgs) : call.lost.outcome = .conflict := rfl

@[simp] theorem DecideArgs.won_outcome (call : DecideArgs) (request : ParkedRow) :
    (call.won env request).outcome = .accepted := rfl

theorem ParkedRow.refusal_outcome {request : ParkedRow} {args : DecideArgs} {decision : Decision}
    (h : request.refusal env args = some decision) :
    decision.outcome = .forbidden ∨ decision.outcome = .widened := by
  unfold ParkedRow.refusal at h
  split at h
  · cases h
    exact .inl rfl
  · obtain ⟨-, h⟩ := Option.ite_none_right_eq_some.mp h
    cases h
    exact .inr rfl

theorem ParkedRow.refusal_none {request : ParkedRow} {args : DecideArgs}
    (h : request.refusal env args = none) :
    mayAnswer request.toParkedRequest args.principal = true := by
  unfold ParkedRow.refusal at h
  by_contra hnot
  rw [if_pos (by simpa using hnot)] at h
  cases h

theorem ParkedRow.replay_some {request : ParkedRow} {args : DecideArgs} {decision : Decision}
    (h : request.replay env row args = some decision) :
    row.decisionIdempotencyKey = args.idempotencyKey ∧ decision.outcome = .replayed := by
  unfold ParkedRow.replay at h
  obtain ⟨hkey, h⟩ := Option.ite_none_right_eq_some.mp h
  rw [Option.some.injEq] at h
  exact ⟨hkey, by rw [← h]⟩

/-- What a statement that leaves the row as it is makes of its call. -/
structure Idle (row : Option ParkedRow) (call : DecideCall) (stage : DecideStage) : Prop where
  accepted : ¬stage.returns .accepted
  replay : ∀ request, stage = .replay request → row = some request ∧
    request.replayable call.args = true
  update : ∀ request, stage = .update request → row = some request ∨ call.stage = .replay request
  replayed : stage.returns .replayed → ∃ request r, call.stage = .replay request ∧ row = some r ∧
    r.decisionIdempotencyKey = call.args.idempotencyKey

theorem Idle.of_refused {decision : Decision} {current : Option ParkedRow}
    (haccepted : decision.outcome ≠ .accepted) (hreplayed : decision.outcome ≠ .replayed) :
    Idle current call (.returned decision) :=
  ⟨by simpa using haccepted, by simp, by simp, fun h => absurd h (by simpa using hreplayed)⟩

/-- What the update does that hits the row. -/
structure Decides (env : Rendering) (row request : ParkedRow) (call : DecideCall)
    (after : Option ParkedRow) (stage : DecideStage) : Prop where
  fetched : call.stage = .update request
  permitted : mayAnswer request.toParkedRequest call.args.principal = true
  admits : row.admits request call.args = true
  row : after = some (row.decided env request call.args)
  stage : stage = .returned (call.args.won env request)

/-- What one statement of a call can do. -/
theorem DecideCall.next_cases {current after : Option ParkedRow}
    (h : call.next env current = some (after, stage)) :
    (after = current ∧ Idle current call stage) ∨
      ∃ row request, current = some row ∧ Decides env row request call after stage := by
  unfold DecideCall.next at h
  split at h
  · split at h
    · rw [Option.some.injEq, Prod.mk.injEq] at h
      exact .inl ⟨h.1.symm, h.2 ▸ .of_refused (by simp) (by simp)⟩
    · rename_i request
      rw [Option.some.injEq, Prod.mk.injEq] at h
      obtain ⟨hafter, rfl⟩ := h
      refine .inl ⟨hafter.symm, ?_⟩
      unfold DecideArgs.fetched
      split
      · rename_i hreplay
        exact ⟨by simp, by simpa using hreplay, by simp, by simp⟩
      · exact ⟨by simp, by simp, by simp, by simp⟩
  · rename_i request hstage
    split at h
    · rename_i decision hdecision
      rw [Option.some.injEq, Prod.mk.injEq] at h
      obtain ⟨hafter, rfl⟩ := h
      obtain ⟨row, hrow, hreplay⟩ := Option.bind_eq_some_iff.mp hdecision
      obtain ⟨hkey, houtcome⟩ := ParkedRow.replay_some hreplay
      exact .inl ⟨hafter.symm, by simp [houtcome], by simp, by simp,
        fun _ => ⟨request, row, hstage, hrow, hkey⟩⟩
    · rw [Option.some.injEq, Prod.mk.injEq] at h
      obtain ⟨hafter, rfl⟩ := h
      exact .inl ⟨hafter.symm, by simp, by simp, by simp [hstage], by simp⟩
  · rename_i request hstage
    split at h
    · rename_i decision hdecision
      rw [Option.some.injEq, Prod.mk.injEq] at h
      obtain ⟨hafter, rfl⟩ := h
      rcases ParkedRow.refusal_outcome hdecision with houtcome | houtcome
      · exact .inl ⟨hafter.symm, .of_refused (by simp [houtcome]) (by simp [houtcome])⟩
      · exact .inl ⟨hafter.symm, .of_refused (by simp [houtcome]) (by simp [houtcome])⟩
    · rename_i hpermitted
      split at h
      · rename_i row
        split at h
        · rename_i hadmits
          rw [Option.some.injEq, Prod.mk.injEq] at h
          exact .inr ⟨row, request, rfl, hstage, ParkedRow.refusal_none hpermitted, hadmits,
            h.1.symm, h.2.symm⟩
        · rw [Option.some.injEq, Prod.mk.injEq] at h
          exact .inl ⟨h.1.symm, h.2 ▸ .of_refused (by simp) (by simp)⟩
      · rw [Option.some.injEq, Prod.mk.injEq] at h
        exact .inl ⟨h.1.symm, h.2 ▸ .of_refused (by simp) (by simp)⟩
  · cases h

/-- What a row and the calls on it have to do with each other, where `P` holds of
every call answered as a replay. -/
structure Parked.Sound (P : ParkedRow → DecideArgs → Prop) (s : Parked) : Prop where
  numbers : Table.Unique DecideCall.number s.calls
  below : ∀ c ∈ s.calls, c.number < s.calls.length
  replaying : ∀ c ∈ s.calls, ∀ request, c.stage = .replay request →
    s.row = some request ∧ request.replayable c.args = true
  updating : ∀ c ∈ s.calls, ∀ request, c.stage = .update request →
    ∃ row, s.row = some row ∧ row.toParkedRequest = request.toParkedRequest
  undecided : ∀ c ∈ s.calls, c.stage.returns .accepted → ∃ row, s.row = some row ∧ row.status.decided
  decided : ∀ row, s.row = some row → row.status.decided → ∃ c ∈ s.calls,
    c.stage.returns .accepted ∧ Recorded row c.args ∧
      ∀ c' ∈ s.calls, c'.stage.returns .accepted → c' = c
  replayed : ∀ c ∈ s.calls, c.stage.returns .replayed → ∃ row, s.row = some row ∧
    row.status.decided ∧ truthy c.args.idempotencyKey = true ∧
    row.decisionIdempotencyKey = c.args.idempotencyKey ∧ P row c.args

/-- A row that is no longer pending stays as it is. -/
theorem Parked.next_closed (h : s.next env m = some s') (hrow : s.row = some row)
    (hclosed : row.status ≠ .pending) : s'.row = some row := by
  cases m with
  | park request =>
    unfold Parked.next at h
    rw [hrow] at h
    cases h
  | call args =>
    cases h
    exact hrow
  | statement number =>
    obtain ⟨call, -, h⟩ := Option.bind_eq_some_iff.mp h
    obtain ⟨⟨after, stage⟩, hnext, h⟩ := Option.bind_eq_some_iff.mp h
    cases h
    rcases DecideCall.next_cases hnext with ⟨hsame, -⟩ | ⟨row', request, hrow', hdecides⟩
    · exact hsame.trans hrow
    · have hadmits := hdecides.admits
      simp only [ParkedRow.admits, Bool.and_eq_true, beq_iff_eq] at hadmits
      have heq : row = row' := Option.some.inj (hrow.symm.trans hrow')
      exact absurd (heq ▸ hadmits.1.1.1.1.1.1) hclosed
  | expireDue now =>
    cases h
    simp only [hrow, Option.map_some, ParkedRow.expireDue]
    rw [if_neg (fun hpending => hclosed hpending.1)]

theorem Parked.start_sound : Parked.Sound P ⟨none, []⟩ where
  numbers := List.nodup_nil
  below := by simp
  replaying := by simp
  updating := by simp
  undecided := by simp
  decided := by simp
  replayed := by simp

theorem Parked.Sound.park (h : s.Sound P) (request : ParkedRequest) (hrow : s.row = none) :
    Parked.Sound P { s with row := some (Liaison.park env request) } where
  numbers := h.numbers
  below := h.below
  replaying c hc request' hstage := by
    have hsome := (h.replaying c hc request' hstage).1
    rw [hrow] at hsome
    cases hsome
  updating c hc request' hstage := by
    obtain ⟨row, hsome, -⟩ := h.updating c hc request' hstage
    rw [hrow] at hsome
    cases hsome
  undecided c hc haccepted := by
    obtain ⟨row, hsome, -⟩ := h.undecided c hc haccepted
    rw [hrow] at hsome
    cases hsome
  decided row heq hdecided := by
    cases heq
    rcases hdecided with hstatus | hstatus <;> cases hstatus
  replayed c hc hreplayed := by
    obtain ⟨row, hsome, -⟩ := h.replayed c hc hreplayed
    rw [hrow] at hsome
    cases hsome

theorem Parked.Sound.called (h : s.Sound P) (args : DecideArgs) :
    Parked.Sound P { s with calls := s.calls ++ [⟨s.calls.length, args, .get⟩] } := by
  have hnew : ∀ outcome, ¬DecideStage.get.returns outcome := by
    rintro outcome ⟨_, hstage, -⟩
    cases hstage
  have hold : ∀ c ∈ s.calls ++ [⟨s.calls.length, args, .get⟩], c.stage ≠ .get → c ∈ s.calls := by
    intro c hc hstage
    rcases List.mem_append.mp hc with hc | hc
    · exact hc
    · exact absurd (by rw [List.mem_singleton.mp hc]) hstage
  have hreturned : ∀ c ∈ s.calls ++ [⟨s.calls.length, args, .get⟩], ∀ outcome,
      c.stage.returns outcome → c ∈ s.calls := fun c hc outcome hreturns =>
    hold c hc (fun hstage => hnew outcome (hstage ▸ hreturns))
  refine
    { numbers := h.numbers.append (fun c hc => (h.below c hc).ne)
      below := fun c hc => ?_
      replaying := fun c hc request hstage => h.replaying c (hold c hc (by simp [hstage])) request hstage
      updating := fun c hc request hstage => h.updating c (hold c hc (by simp [hstage])) request hstage
      undecided := fun c hc haccepted => h.undecided c (hreturned c hc _ haccepted) haccepted
      decided := fun row hrow hdecided => ?_
      replayed := fun c hc hreplayed => h.replayed c (hreturned c hc _ hreplayed) hreplayed }
  · rw [List.length_append, List.length_singleton]
    rcases List.mem_append.mp hc with hc | hc
    · exact Nat.lt_succ_of_lt (h.below c hc)
    · rw [List.mem_singleton.mp hc]
      exact Nat.lt_succ_self _
  · obtain ⟨c, hc, haccepted, hrecorded, honly⟩ := h.decided row hrow hdecided
    exact ⟨c, List.mem_append_left _ hc, haccepted, hrecorded,
      fun c' hc' haccepted' => honly c' (hreturned c' hc' _ haccepted') haccepted'⟩

theorem ParkedRow.expireDue_request (now : Int) (row : ParkedRow) :
    (row.expireDue now).toParkedRequest = row.toParkedRequest := by
  unfold ParkedRow.expireDue
  split <;> rfl

/-- What expires was pending, and everything else is left alone. -/
theorem ParkedRow.expireDue_decided {now : Int} (h : row.status.decided) :
    row.expireDue now = row := by
  unfold ParkedRow.expireDue
  rw [if_neg]
  rintro ⟨hpending, -⟩
  rcases h with hstatus | hstatus <;> simp [hstatus] at hpending

theorem ParkedRow.decided_of_expireDue {now : Int} (h : (row.expireDue now).status.decided) :
    row.status.decided := by
  unfold ParkedRow.expireDue at h
  split at h
  · rcases h with hstatus | hstatus <;> cases hstatus
  · exact h

theorem ParkedRow.replayable_decided {args : DecideArgs} (h : row.replayable args = true) :
    row.status.decided ∧ truthy args.idempotencyKey = true := by
  simp only [ParkedRow.replayable, Bool.and_eq_true, Bool.or_eq_true, beq_iff_eq] at h
  exact h

theorem Parked.Sound.expireDue (h : s.Sound P) (now : Int) :
    Parked.Sound P { s with row := s.row.map (ParkedRow.expireDue now) } where
  numbers := h.numbers
  below := h.below
  replaying c hc request hstage := by
    obtain ⟨hrow, hreplay⟩ := h.replaying c hc request hstage
    rw [hrow, Option.map_some, ParkedRow.expireDue_decided (ParkedRow.replayable_decided hreplay).1]
    exact ⟨rfl, hreplay⟩
  updating c hc request hstage := by
    obtain ⟨row, hrow, hsame⟩ := h.updating c hc request hstage
    exact ⟨row.expireDue now, by rw [hrow, Option.map_some],
      (ParkedRow.expireDue_request now row).trans hsame⟩
  undecided c hc haccepted := by
    obtain ⟨row, hrow, hdecided⟩ := h.undecided c hc haccepted
    exact ⟨row, by rw [hrow, Option.map_some, ParkedRow.expireDue_decided hdecided], hdecided⟩
  decided row heq hdecided := by
    obtain ⟨row', hrow', rfl⟩ := Option.map_eq_some_iff.mp heq
    have hold := ParkedRow.decided_of_expireDue hdecided
    rw [ParkedRow.expireDue_decided hold]
    exact h.decided row' hrow' hold
  replayed c hc hreplayed := by
    obtain ⟨row, hrow, hdecided, hrest⟩ := h.replayed c hc hreplayed
    exact ⟨row, by rw [hrow, Option.map_some, ParkedRow.expireDue_decided hdecided], hdecided, hrest⟩

/-- The calls after one of them has moved on. -/
def advanced (calls : List DecideCall) (number : Nat) (stage : DecideStage) : List DecideCall :=
  Table.update (fun c => c.number == number) (fun c => { c with stage := stage }) calls

theorem mem_advanced {calls : List DecideCall} (hu : Table.Unique DecideCall.number calls)
    (hcall : call ∈ calls) (hc : c ∈ advanced calls call.number stage) :
    c = { call with stage := stage } ∨ (c ∈ calls ∧ c.number ≠ call.number) := by
  rcases Table.update_cases hc with ⟨c', hc', hnumber, rfl⟩ | ⟨hc, hmiss⟩
  · rw [hu.eq_of_key hc' hcall (by simpa using hnumber)]
    exact .inl rfl
  · exact .inr ⟨hc, by simpa using hmiss⟩

theorem Parked.Sound.advanced_numbers (h : s.Sound P) (number : Nat) (stage : DecideStage) :
    Table.Unique DecideCall.number (advanced s.calls number stage) ∧
      ∀ c ∈ advanced s.calls number stage, c.number < (advanced s.calls number stage).length := by
  refine ⟨h.numbers.update (fun _ _ _ => rfl), fun c hc => ?_⟩
  have hlength : (advanced s.calls number stage).length = s.calls.length := List.length_map _
  rw [hlength]
  rcases Table.update_cases hc with ⟨c', hc', -, rfl⟩ | ⟨hc, -⟩
  · exact h.below c' hc'
  · exact h.below c hc

/-- A statement that leaves the row as it is. -/
theorem Parked.Sound.idle (h : s.Sound P) (hcall : call ∈ s.calls) (hidle : Idle s.row call stage)
    (hactive : ¬call.stage.returns .accepted)
    (hreplay : ∀ request r, call.stage = .replay request → s.row = some r →
      r.decisionIdempotencyKey = call.args.idempotencyKey → P r call.args) :
    Parked.Sound P { s with calls := advanced s.calls call.number stage } where
  numbers := (h.advanced_numbers call.number stage).1
  below := (h.advanced_numbers call.number stage).2
  replaying c hc request hstage := by
    rcases mem_advanced h.numbers hcall hc with rfl | ⟨hc, -⟩
    · exact hidle.replay request hstage
    · exact h.replaying c hc request hstage
  updating c hc request hstage := by
    rcases mem_advanced h.numbers hcall hc with rfl | ⟨hc, -⟩
    · rcases hidle.update request hstage with hrow | hbefore
      · exact ⟨request, hrow, rfl⟩
      · exact ⟨request, (h.replaying call hcall request hbefore).1, rfl⟩
    · exact h.updating c hc request hstage
  undecided c hc haccepted := by
    rcases mem_advanced h.numbers hcall hc with rfl | ⟨hc, -⟩
    · exact absurd haccepted hidle.accepted
    · exact h.undecided c hc haccepted
  decided row hrow hdecided := by
    obtain ⟨c, hc, haccepted, hrecorded, honly⟩ := h.decided row hrow hdecided
    have hother : (c.number == call.number) = false := by
      by_contra hsame
      have heq := h.numbers.eq_of_key hc hcall (by simpa using hsame)
      exact hactive (heq ▸ haccepted)
    refine ⟨c, Table.mem_update_of_miss hc hother, haccepted, hrecorded, fun c' hc' haccepted' => ?_⟩
    rcases mem_advanced h.numbers hcall hc' with rfl | ⟨hc', -⟩
    · exact absurd haccepted' hidle.accepted
    · exact honly c' hc' haccepted'
  replayed c hc hreplayed := by
    rcases mem_advanced h.numbers hcall hc with rfl | ⟨hc, -⟩
    · obtain ⟨request, row, hstage, hrow, hkey⟩ := hidle.replayed hreplayed
      obtain ⟨hsame, hreplayable⟩ := h.replaying call hcall request hstage
      obtain ⟨hdecided, htruthy⟩ := ParkedRow.replayable_decided hreplayable
      rw [hrow, Option.some.injEq] at hsame
      exact ⟨row, hrow, hsame ▸ hdecided, htruthy, hkey, hreplay request row hstage hrow hkey⟩
    · exact h.replayed c hc hreplayed

/-- The update that hits the row records its call. -/
theorem Decides.recorded {request : ParkedRow} {after : Option ParkedRow}
    (h : Decides env row request call after stage)
    (hsame : row.toParkedRequest = request.toParkedRequest) :
    Recorded (row.decided env request call.args) call.args := by
  have hadmits := h.admits
  simp only [ParkedRow.admits, Bool.and_eq_true, Bool.or_eq_true, decide_eq_true_eq, beq_iff_eq,
    Option.isNone_iff_eq_none] at hadmits
  obtain ⟨⟨⟨⟨⟨⟨-, htimely⟩, -⟩, -⟩, hbinding⟩, hworkflow⟩, hplan⟩ := hadmits
  refine ⟨rfl, rfl, rfl, ?_, ?_, htimely, ?_, hworkflow, hplan⟩
  · unfold ParkedRow.decided
    rw [← hsame]
  · have hpermitted := h.permitted
    rw [← hsame] at hpermitted
    exact hpermitted
  · rcases hbinding with hnone | ⟨⟨hid, hepoch⟩, heq⟩
    · exact .inl hnone
    · exact .inr ⟨hid, hepoch, heq⟩

theorem Parked.Sound.decides {request : ParkedRow} {after : Option ParkedRow} (h : s.Sound P)
    (hcall : call ∈ s.calls) (hrow : s.row = some row)
    (hdecides : Decides env row request call after stage) :
    Parked.Sound P
      { row := some (row.decided env request call.args)
        calls := advanced s.calls call.number stage } := by
  have hpending : ¬row.status.decided := by
    have hadmits := hdecides.admits
    simp only [ParkedRow.admits, Bool.and_eq_true, beq_iff_eq] at hadmits
    rintro (hstatus | hstatus) <;> simp [hstatus] at hadmits
  have hdecided : (row.decided env request call.args).status.decided := by
    unfold ParkedRow.decided
    cases call.args.accept
    · exact .inr rfl
    · exact .inl rfl
  obtain ⟨row', hrow', hsame⟩ := h.updating call hcall request hdecides.fetched
  rw [hrow, Option.some.injEq] at hrow'
  subst hrow'
  have hstage := hdecides.stage
  -- No other call has decided, or been answered as a replay.
  have hnone : ∀ c ∈ s.calls, ¬c.stage.returns .accepted := by
    intro c hc haccepted
    obtain ⟨row', hrow', hdecided'⟩ := h.undecided c hc haccepted
    rw [hrow, Option.some.injEq] at hrow'
    exact hpending (hrow' ▸ hdecided')
  refine
    { numbers := (h.advanced_numbers call.number stage).1
      below := (h.advanced_numbers call.number stage).2
      replaying := fun c hc request' hreplay => ?_
      updating := fun c hc request' hupdate => ?_
      undecided := fun _ _ _ => ⟨_, rfl, hdecided⟩
      decided := fun row' heq _ => ?_
      replayed := fun c hc hreplayed => ?_ }
  · rcases mem_advanced h.numbers hcall hc with rfl | ⟨hc, -⟩
    · simp [hstage] at hreplay
    · obtain ⟨hrow', hreplayable⟩ := h.replaying c hc request' hreplay
      rw [hrow, Option.some.injEq] at hrow'
      exact absurd (hrow' ▸ (ParkedRow.replayable_decided hreplayable).1) hpending
  · rcases mem_advanced h.numbers hcall hc with rfl | ⟨hc, -⟩
    · simp [hstage] at hupdate
    · obtain ⟨row', hrow', hsame'⟩ := h.updating c hc request' hupdate
      rw [hrow, Option.some.injEq] at hrow'
      exact ⟨_, rfl, (hrow' ▸ hsame' : row.toParkedRequest = request'.toParkedRequest)⟩
  · cases heq
    refine ⟨{ call with stage := stage }, Table.mem_update_of_hit hcall (by simp), ?_,
      hdecides.recorded hsame, fun c' hc' haccepted' => ?_⟩
    · simp [hstage]
    · rcases mem_advanced h.numbers hcall hc' with rfl | ⟨hc', -⟩
      · rfl
      · exact absurd haccepted' (hnone c' hc')
  · rcases mem_advanced h.numbers hcall hc with rfl | ⟨hc, -⟩
    · simp [hstage] at hreplayed
    · obtain ⟨row', hrow', hdecided', -⟩ := h.replayed c hc hreplayed
      rw [hrow, Option.some.injEq] at hrow'
      exact absurd (hrow' ▸ hdecided') hpending

/-- The row and the call that the next statement answers as a replay. -/
def Parked.answers (s : Parked) : ParkedMove → Option (ParkedRow × DecideArgs)
  | .statement number => do
    let call ← Table.find DecideCall.number number s.calls
    let row ← s.row
    match call.stage with
    | .replay _ =>
      if row.decisionIdempotencyKey = call.args.idempotencyKey then some (row, call.args) else none
    | _ => none
  | _ => none

/-- Every statement keeps the calls and the row in step. -/
theorem Parked.Sound.next (h : s.Sound P) (hnext : s.next env m = some s')
    (hreplay : ∀ p ∈ s.answers m, P p.1 p.2) : s'.Sound P := by
  cases m with
  | park request =>
    simp only [Parked.next] at hnext
    split at hnext
    · rename_i hrow
      rw [Option.some.injEq] at hnext
      exact hnext ▸ h.park request hrow
    · cases hnext
  | call args =>
    rw [Parked.next, Option.some.injEq] at hnext
    exact hnext ▸ h.called args
  | statement number =>
    obtain ⟨call, hfind, hnext⟩ := Option.bind_eq_some_iff.mp hnext
    obtain ⟨⟨after, stage⟩, hcallNext, heq⟩ := Option.bind_eq_some_iff.mp hnext
    rw [Option.some.injEq] at heq
    obtain ⟨hcall, hnumber⟩ := Table.mem_of_find hfind
    subst hnumber
    rcases DecideCall.next_cases hcallNext with ⟨hsame, hidle⟩ | ⟨row, request, hrow, hdecides⟩
    · have hactive : ¬call.stage.returns .accepted := by
        rintro ⟨decision, hstage, -⟩
        simp [DecideCall.next, hstage] at hcallNext
      rw [← heq, hsame]
      refine h.idle hcall hidle hactive (fun request row hstage hrow hkey => ?_)
      exact hreplay (row, call.args) (by simp [Parked.answers, hfind, hrow, hstage, hkey])
    · rw [← heq, hdecides.row]
      exact h.decides hcall hrow hdecides
  | expireDue now =>
    rw [Parked.next, Option.some.injEq] at hnext
    exact hnext ▸ h.expireDue now

theorem Parked.path_closed {as : List ParkedMove} (path : (parked env).Path s as t)
    (hrow : s.row = some row) (hclosed : row.status ≠ .pending) : t.row = some row :=
  path.keeps (fun _ _ _ hs move => Parked.next_closed move hs hclosed) hrow

/-- What any run leaves of a parked request, where `P` holds of every call that
is answered as a replay. -/
structure Parked.Linearizable (env : Rendering) (P : ParkedRow → DecideArgs → Prop) (s : Parked) :
    Prop where
  final : ∀ as t row, (parked env).Path s as t → s.row = some row → row.status ≠ .pending →
    t.row = some row
  decided : ∀ row, s.row = some row → row.status = .answered ∨ row.status = .rejected →
    ∃! call, call ∈ s.calls ∧ call.stage.returns .accepted
  accepted : ∀ call ∈ s.calls, call.stage.returns .accepted →
    ∃ row, s.row = some row ∧ Recorded row call.args
  replayed : ∀ call ∈ s.calls, call.stage.returns .replayed → ∃ row, s.row = some row ∧
    truthy call.args.idempotencyKey = true ∧
    row.decisionIdempotencyKey = call.args.idempotencyKey ∧ P row call.args

theorem Parked.Sound.linearizable (h : s.Sound P) : s.Linearizable env P where
  final _ _ _ path := Parked.path_closed path
  decided row hrow hdecided := by
    obtain ⟨call, hcall, haccepted, -, honly⟩ := h.decided row hrow hdecided
    exact ⟨call, ⟨hcall, haccepted⟩, fun call' hcall' => honly call' hcall'.1 hcall'.2⟩
  accepted call hcall haccepted := by
    obtain ⟨row, hrow, hdecided⟩ := h.undecided call hcall haccepted
    obtain ⟨call', -, -, hrecorded, honly⟩ := h.decided row hrow hdecided
    rw [honly call hcall haccepted]
    exact ⟨row, hrow, hrecorded⟩
  replayed call hcall hreplayed := by
    obtain ⟨row, hrow, -, hrest⟩ := h.replayed call hcall hreplayed
    exact ⟨row, hrow, hrest⟩

/-- A statement that finds its key recorded belongs to a call that repeats the
decision. -/
def RepeatsRecorded (s : Parked) (m : ParkedMove) : Prop := ∀ p ∈ s.answers m, Repeats p.1 p.2

/-- Whoever is answered as a replay, one decision is recorded and final. -/
theorem decided_once (h : (parked env).Reach s) : s.Linearizable env (fun _ _ => True) := by
  have hsound : s.Sound (fun _ _ => True) := by
    refine h.invariant ?_ (fun _ _ _ _ hs move => hs.next move (fun _ _ => trivial))
    rintro s rfl
    exact Parked.start_sound
  exact hsound.linearizable

section Example

def plain : Rendering := ⟨fun _ => "", fun _ => "sha256:"⟩

def question : ParkedRequest where
  id := "prk_1"
  kind := .question
  payload := [("question", .str "Which service?")]
  payloadHash := ""
  initiatedByPrincipal := "alice"
  answerAudience := .initiator
  namedAnswererPrincipal := none
  expectedWorkflowVersion := none
  expectedPlanVersion := none
  bindingId := none
  bindingEpoch := none
  expiresAt := 10

def answering (principal : String) (accept : Bool) : DecideArgs where
  requestId := "prk_1"
  principal := principal
  accept := accept
  decidedPayload := none
  idempotencyKey := some "key"
  feedback := none
  currentWorkflowVersion := none
  currentPlanVersion := none
  bindingEpoch := none
  now := 0

/-- Alice answers, and a second call presents the key she used. -/
def answeredTwice (second : DecideArgs) : List ParkedMove :=
  [.park question, .call (answering "alice" true), .statement 0, .statement 0, .call second,
    .statement 1, .statement 1]

def DecideStage.outcome : DecideStage → Option DecisionOutcome
  | .returned decision => some decision.outcome
  | _ => none

instance (a b : Json) : Decidable (Json.Same a b) :=
  decidable_of_iff (a.dumps = b.dumps) Json.dumps_eq_iff

instance (row : ParkedRow) (call : DecideArgs) : Decidable (Repeats row call) :=
  decidable_of_iff
    ((row.answeredByPrincipal = some call.principal ∧
      row.status = if call.accept then .answered else .rejected) ∧
      row.decidedPayload.any (fun decided =>
        decide (Json.Same (.obj decided) (.obj (call.payload row.toParkedRequest)))) = true)
    ⟨fun h => ⟨h.1.1, h.1.2, by simpa [Option.any_eq_true] using h.2⟩,
      fun h => ⟨⟨h.principal, h.status⟩, by simpa [Option.any_eq_true] using h.payload⟩⟩

instance (s : Parked) (m : ParkedMove) : Decidable (RepeatsRecorded s m) :=
  inferInstanceAs (Decidable (∀ p ∈ s.answers m, Repeats p.1 p.2))

end Example

end Solvan.Liaison
