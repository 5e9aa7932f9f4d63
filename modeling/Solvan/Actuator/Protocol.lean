import Solvan.Actuator.Refinement

namespace Solvan.Actuator
open Fencing (Hand Lease Phase Sound Stage Step System machine sound_of_reach)
open Workflow (ActionRow ActionStatus IncidentRow)

/-- The workers' database as jobs under fencing tokens. -/
abbrev Protocol := System String Nat Token

/-- What a call of `execute` acts on. -/
def Point.hand : Point → Hand String Token
  | .idle | .recovering _ | .acquiring _ | .returned .. | .raised _ => .empty
  | .authorizing _ r | .observing _ r _ | .dryRunning _ r _ _ | .gating _ r _ _ _
  | .undoing _ r _ _ _ | .preparing _ r _ _ _ | .releasing r _ _ =>
    .reserving r.actionId r.leaseToken
  | .reauthorizing _ d | .regating _ d | .claiming _ _ d => .issuing d.material.id d.leaseToken
  | .mutating _ d => .sending d.material.id ⟨d.leaseToken, d.reservation.expiresAt⟩
  | .awaiting _ d | .acknowledging _ d _ _ _ | .resuming _ d | .reconciling _ d _ =>
    .settling d.material.id d.leaseToken
  | .auditing d receipt | .finalizing d receipt _ =>
    .decided d.material.id d.leaseToken receipt.result.verdict

def TargetReservation.Known (db : Database) (reservation : TargetReservation) : Prop :=
  (reservation.reservationId, reservation.actionId) ∈ db.reservations.map ReservationRow.about

def Executing (db : Database) (actionId : String) : Prop :=
  ∃ a ∈ db.actions, a.id = actionId ∧ a.status = .executing

/-- The failures a call of `execute` releases its reservation for. -/
def Failure.handled : Failure → Bool
  | ⟨.authorization, false, .actionPolicyError _⟩ | ⟨.authorization, false, .reservationLost _⟩
  | ⟨.precondition, false, _⟩ | ⟨.dryRun, false, _⟩ | ⟨.gate, false, .actionPolicyError _⟩ => true
  | _ => false

/-- What a call of `execute` knows of the rows it acts on. -/
def Point.Known (db : Database) : Point → Prop
  | .authorizing _ r => r.Known db
  | .releasing r _ failure => r.Known db ∧ failure.handled = true
  | .observing _ r _ | .dryRunning _ r _ _ | .gating _ r _ _ _ | .undoing _ r _ _ _
  | .preparing _ r _ _ _ => r.Known db ∧ Executing db r.actionId
  | .reauthorizing _ d | .regating _ d | .claiming _ _ d | .mutating _ d | .awaiting _ d
  | .acknowledging _ d _ _ _ | .resuming _ d | .reconciling _ d _ | .auditing d _
  | .finalizing d _ _ => d.Known db
  | .idle | .recovering _ | .acquiring _ | .returned .. | .raised _ => True

variable {db db' : Database} {closed : Option String} {actionId : String} {point : Point}
  {reservation : TargetReservation} {dispatch : ActuatorDispatch}

theorem TargetReservation.Known.keeps (h : reservation.Known db) (keeps : Keeps db db' closed) :
    reservation.Known db' :=
  keeps.reservations h

theorem ActuatorDispatch.Known.keeps (h : dispatch.Known db) (keeps : Keeps db db' closed) :
    dispatch.Known db' :=
  ⟨h.1, keeps.dispatches h.2⟩

theorem Executing.keeps (h : Executing db actionId) (keeps : Keeps db db' closed)
    (still : closed ≠ some actionId) : Executing db' actionId := by
  obtain ⟨a, ha, hid, hs⟩ := h
  obtain ⟨a', ha', hid', hs'⟩ := keeps.actions a ha (hid.symm ▸ still)
  exact ⟨a', ha', hid'.trans hid, hs' hs⟩

/-- Knowledge outlasts what others do, unless they close the action in hand. -/
theorem Point.Known.keeps (h : point.Known db) (keeps : Keeps db db' closed)
    (still : ∀ job token, point.hand = .reserving job token → closed ≠ some job) :
    point.Known db' := by
  cases point with
  | idle | recovering | acquiring | returned | raised => trivial
  | authorizing => exact TargetReservation.Known.keeps h keeps
  | releasing => exact ⟨h.1.keeps keeps, h.2⟩
  | observing | dryRunning | gating | undoing | preparing =>
    exact ⟨h.1.keeps keeps, h.2.keeps keeps (still _ _ rfl)⟩
  | reauthorizing | regating | claiming | mutating | awaiting | acknowledging | resuming
  | reconciling | auditing | finalizing => exact ActuatorDispatch.Known.keeps h keeps

/-- The state of the workers as a state of the protocol. -/
structure Follows (s : State) (A : Protocol) : Prop where
  now : A.now = s.db.now
  files : Files s.db A.phase
  hand : ∀ w, A.hand w = (s.points w).hand
  drawn : ∀ token, A.drawn token → token < s.tokens
  sent : A.sent = s.mutations.map Mutation.actionId
  inFlight : A.inFlight = s.inFlight
  known : ∀ w, (s.points w).Known s.db

variable {s s' : State} {A : Protocol} {ask : Protocol → String → Prop} {w : Nat} {tokens : Nat}
  {job : String} {p : Phase Token}

/-- The next state of a worker that called its store. -/
def State.after (s : State) (w : Nat) (db : Database) (tokens : Nat) (point : Point) : State :=
  { s with
    db
    tokens
    points := Function.update s.points w point }

theorem Follows.known_after (h : Follows s A) (keeps : Keeps s.db db' closed)
    (known : point.Known db')
    (still : ∀ w' job token, w' ≠ w → A.hand w' = .reserving job token → closed ≠ some job)
    (w' : Nat) :
    ((s.after w db' tokens point).points w').Known db' := by
  by_cases hw : w' = w
  · subst hw
    simpa only [State.after, Function.update_self] using known
  · simp only [State.after, Function.update_of_ne hw]
    exact (h.known w').keeps keeps
      (fun job token hhand => still w' job token hw ((h.hand w').trans hhand))

theorem Follows.hand_after (h : Follows s A) (w' : Nat) :
    Function.update A.hand w point.hand w' =
      ((s.after w db' tokens point).points w').hand := by
  by_cases hw : w' = w
  · subst hw
    simp [State.after]
  · simp [State.after, hw, h.hand w']

theorem Follows.take (h : Follows s A) (w : Nat) (point : Point) (files : Files db' A.phase)
    (keeps : Keeps s.db db' none) (known : point.Known db') (later : s.tokens ≤ tokens) :
    Follows (s.after w db' tokens point) (A.take w point.hand) where
  now := h.now.trans keeps.now.symm
  files := files
  hand := h.hand_after
  drawn := fun token hd => lt_of_lt_of_le (h.drawn token hd) later
  sent := h.sent
  inFlight := h.inFlight
  known := h.known_after keeps known (fun _ _ _ _ _ hc => nomatch hc)

/-- A worker goes on without a move of the protocol, or gives up. -/
theorem Follows.stay (h : Follows s A) (hr : (machine ask).Reach A) (files : Files db' A.phase)
    (keeps : Keeps s.db db' none) (known : point.Known db') (later : s.tokens ≤ tokens)
    (hand : point.hand = (s.points w).hand ∨ point.hand = .empty) :
    ∃ A', (machine ask).Reach A' ∧ Follows (s.after w db' tokens point) A' := by
  have htaken := h.take w point files keeps known later
  rcases hand with hsame | hempty
  · have heq : A.take w point.hand = A := by
      simp only [System.take, hsame, ← h.hand w, Function.update_eq_self]
    exact ⟨A, hr, heq ▸ htaken⟩
  · exact ⟨_, hr.step (a := ()) (hempty ▸ Step.drop w), htaken⟩

/-- A worker moves its job on. -/
theorem Follows.move {drawn : Token → Prop} (h : Follows s A) (w : Nat) (point : Point)
    (files : Files db' (Function.update A.phase job p)) (keeps : Keeps s.db db' closed)
    (known : point.Known db') (drawn_lt : ∀ token, drawn token → token < tokens)
    (still : ∀ w' job token, w' ≠ w → A.hand w' = .reserving job token → closed ≠ some job) :
    Follows (s.after w db' tokens point) (System.move { A with drawn } w job p point.hand) where
  now := h.now.trans keeps.now.symm
  files := files
  hand := h.hand_after
  drawn := drawn_lt
  sent := h.sent
  inFlight := h.inFlight
  known := h.known_after keeps known still

/-- A worker moves its job on, and the job stays in execution. -/
theorem Follows.advance {drawn : Token → Prop} (h : Follows s A) (w : Nat) (point : Point)
    (files : Files db' (Function.update A.phase job p)) (keeps : Keeps s.db db' none)
    (known : point.Known db') (drawn_lt : ∀ token, drawn token → token < tokens) :
    Follows (s.after w db' tokens point) (System.move { A with drawn } w job p point.hand) :=
  h.move w point files keeps known drawn_lt (fun _ _ _ _ _ hc => nomatch hc)

variable {hash : Json → String}

theorem State.call_eq {α : Type} (s : State) (w : Nat) (called : Called α) (returned : α → Point)
    (raised : ExecutionError → Point) (tokens : Nat) :
    { s with tokens }.call w called returned raised =
      s.after w called.1 tokens
        (match called.2 with
          | .ok value => returned value
          | .error error => raised error) := rfl

/-- A worker that hears something and changes nothing. -/
theorem Follows.hear {α : Type} {heard : Except ExecutionError α} {returned : α → Point}
    {raised : ExecutionError → Point} (h : Follows s A) (hr : (machine ask).Reach A)
    (onReturn : ∀ value, heard = .ok value → (returned value).Known s.db ∧
      ((returned value).hand = (s.points w).hand ∨ (returned value).hand = .empty))
    (onRaise : ∀ error, (raised error).Known s.db ∧
      ((raised error).hand = (s.points w).hand ∨ (raised error).hand = .empty)) :
    ∃ A', (machine ask).Reach A' ∧ Follows (s.hear w heard returned raised) A' := by
  cases hheard : heard with
  | ok value =>
    obtain ⟨known, hand⟩ := onReturn value hheard
    exact h.stay hr h.files (Keeps.refl _) known (le_refl _) hand
  | error error =>
    obtain ⟨known, hand⟩ := onRaise error
    exact h.stay hr h.files (Keeps.refl _) known (le_refl _) hand

theorem Follows.fresh (h : Follows s A) : ¬A.drawn s.tokens :=
  fun hdrawn => Nat.lt_irrefl _ (h.drawn _ hdrawn)

theorem Follows.drawn_draw (h : Follows s A) (later : s.tokens < tokens) :
    ∀ token, (A.draw s.tokens).drawn token → token < tokens := by
  intro token ht
  rcases ht with rfl | ht
  · exact later
  · exact Nat.lt_trans (h.drawn token ht) later

theorem Follows.recover {call : Call} (h : Follows s A) (hr : (machine ask).Reach A)
    (hpoint : s.points w = .recovering call) (move : s.next hash (.recover w) = some s') :
    ∃ A', (machine ask).Reach A' ∧ Follows s' A' := by
  simp only [State.next, hpoint, Option.some.injEq] at move
  subst move
  rw [State.call_eq]
  generalize hcalled : claimRecovery hash s.db call.actionId call.actuator.actuatorId
    call.actuator.actorIdentity call.actuator.reservationTtlMs s.tokens (s.tokens + 1) = called
  obtain ⟨db', result⟩ := called
  have hidle : A.hand w = .empty := by rw [h.hand w, hpoint]; rfl
  rcases claimRecovery_cases hcalled with
    ⟨rfl, hresult⟩ | ⟨d, ph, dispatch, hd, haction, hs, lapsed, rfl, hresult, hid, hmaterial, hph,
      htoken, hres, hraction⟩
  · rcases hresult with rfl | ⟨error, rfl⟩
    · exact h.stay hr h.files (Keeps.refl _) trivial (by omega) (.inr rfl)
    · exact h.stay hr h.files (Keeps.refl _) trivial (by omega) (.inr rfl)
  · have hphase := h.files.phase_of_outstanding hd hs
    have hfiles := h.files.takeOver call.actuator.actorIdentity call.actuator.reservationTtlMs
      s.tokens (s.tokens + 1) hd hs lapsed
    rw [haction] at hphase hfiles
    have htaken : (machine ask).Reach ((A.draw s.tokens).move w call.actionId
        (.pending ph.stage ⟨s.tokens, ttl s.db call.actuator.reservationTtlMs⟩)
        (ph.stage.resume call.actionId s.tokens)) :=
      hr.step (a := ()) (.takeOver hidle hphase
        (show d.leaseExpiresAt < A.now from h.now ▸ lapsed) h.fresh)
    have hkeeps : Keeps s.db (takenOver s.db call.actionId call.actuator.actorIdentity
        call.actuator.reservationTtlMs d s.tokens (s.tokens + 1)) none := keeps_takeOver
    have hdrawn := h.drawn_draw (show s.tokens < s.tokens + 2 by omega)
    have hknown : dispatch.Known (takenOver s.db call.actionId call.actuator.actorIdentity
        call.actuator.reservationTtlMs d s.tokens (s.tokens + 1)) := by
      refine ⟨hraction.trans hmaterial.symm, hkeeps.dispatches (List.mem_map.mpr ⟨d, hd, ?_⟩)⟩
      simp [DispatchRow.about, hid, hmaterial, hres, haction]
    have hafter : ∀ point : Point, point.Known (takenOver s.db call.actionId
        call.actuator.actorIdentity call.actuator.reservationTtlMs d s.tokens (s.tokens + 1)) →
        Follows (s.after w (takenOver s.db call.actionId call.actuator.actorIdentity
          call.actuator.reservationTtlMs d s.tokens (s.tokens + 1)) (s.tokens + 2) point)
          ((A.draw s.tokens).move w call.actionId
            (.pending ph.stage ⟨s.tokens, ttl s.db call.actuator.reservationTtlMs⟩) point.hand) :=
      fun point known => h.advance w point hfiles hkeeps known hdrawn
    rcases hresult with rfl | ⟨error, rfl⟩
    · refine ⟨_, htaken, ?_⟩
      by_cases hprepared : dispatch.phase = DispatchPhase.prepared
      · have := hafter (.reauthorizing call dispatch) hknown
        have hstage : ph = .prepared := hph.symm.trans hprepared
        simpa only [hprepared, if_true, Point.hand, hmaterial, htoken, hstage,
          DispatchPhase.stage, Stage.resume] using this
      · have := hafter (.resuming call dispatch) hknown
        have hresume : ph.stage.resume call.actionId s.tokens =
            .settling call.actionId s.tokens := by
          cases ph with
          | prepared => exact absurd hph hprepared
          | mutationIssued | reconciling => rfl
        simpa only [hprepared, if_false, Point.hand, hmaterial, htoken, hresume] using this
    · refine ⟨_, htaken.step (a := ()) (Step.drop w), ?_⟩
      have := hafter (.raised ⟨.recovery, true, error⟩) trivial
      simpa only [System.move, System.take, Function.update_idem, Point.hand] using this

theorem Follows.acquire {call : Call} {reservationId : String} (h : Follows s A)
    (hr : (machine ask).Reach A) (hpoint : s.points w = .acquiring call)
    (move : s.next hash (.acquire w reservationId) = some s') :
    ∃ A', (machine ask).Reach A' ∧ Follows s' A' := by
  simp only [State.next, hpoint, Option.some.injEq] at move
  subst move
  rw [State.call_eq]
  generalize hcalled : acquireReservation s.db call.actionId call.actuator.actorIdentity
    call.actuator.reservationTtlMs reservationId s.tokens = called
  obtain ⟨db', result⟩ := called
  have hidle : A.hand w = .empty := by rw [h.hand w, hpoint]; rfl
  rcases acquireReservation_cases hcalled with
    ⟨error, rfl, rfl | rfl⟩ | ⟨action, ha, -, hs, -, hfree, rfl, rfl⟩
  · exact h.stay hr h.files (Keeps.refl _) trivial (by omega) (.inr rfl)
  · exact h.stay hr (h.files.setActionStatus (by simp) (by simp))
      (keeps_setActionStatus _ (fun _ => by simp)) trivial (by omega) (.inr rfl)
  · have hfiles := h.files.reserve (newReservation s.db action call.actuator.actorIdentity
      call.actuator.reservationTtlMs reservationId s.tokens) ha hs ⟨rfl, rfl⟩ rfl hfree
    have huntouched := (h.files.untouched ha hs (fun r hm => (hfree r hm).2)).1
    refine ⟨_, hr.step (a := ()) (Step.reserve (w := w) hidle huntouched h.fresh), ?_⟩
    refine h.advance w _ hfiles (keeps_reserve _ _ _) ?_ (h.drawn_draw (by omega))
    simp [Point.Known, TargetReservation.Known, reserve, ReservationRow.handle,
      ReservationRow.about, newReservation]

theorem Follows.authorize {call : Call} {verdict : Except ExecutionError Unit} (h : Follows s A)
    (hr : (machine ask).Reach A) (hpoint : s.points w = .authorizing call reservation)
    (move : s.next hash (.authorize w verdict) = some s') :
    ∃ A', (machine ask).Reach A' ∧ Follows s' A' := by
  simp only [State.next, hpoint, Option.some.injEq] at move
  subst move
  have hknown : reservation.Known s.db := by
    have := h.known w
    rwa [hpoint] at this
  generalize hcalled : authorizeForExecution s.db reservation verdict = called
  obtain ⟨db', result⟩ := called
  cases result with
  | ok material =>
    obtain ⟨hrow, rfl⟩ := authorizeForExecution_ok hcalled
    have hkeeps : Keeps s.db
        (s.db.setActionStatus reservation.actionId [.authorized] .executing) none :=
      keeps_setActionStatus _ (fun _ => by simp)
    obtain ⟨ha, hid, hs, -⟩ := authorityRow_some hrow
    have hexecuting :
        Executing (s.db.setActionStatus reservation.actionId [.authorized] .executing)
          reservation.actionId :=
      ⟨_, Table.mem_update_of_hit ha (by simp [hid, hs]), hid, rfl⟩
    exact h.stay hr (h.files.setActionStatus (by simp) (by simp)) hkeeps
      ⟨hknown.keeps hkeeps, hexecuting⟩ (le_refl _) (.inl (by rw [hpoint]; rfl))
  | error error =>
    cases transaction_error hcalled
    refine h.stay hr h.files (Keeps.refl _) ?_ (le_refl _) ?_
    · cases error with
      | actionPolicyError | reservationLost => exact ⟨hknown, rfl⟩
      | _ => trivial
    · cases error with
      | actionPolicyError | reservationLost => exact .inl (by rw [hpoint]; rfl)
      | _ => exact .inr rfl

theorem Follows.release {reason : ReleaseReason} {failure : Failure} (h : Follows s A)
    (hr : (machine ask).Reach A) (hpoint : s.points w = .releasing reservation reason failure)
    (move : s.next hash (.release w) = some s') :
    ∃ A', (machine ask).Reach A' ∧ Follows s' A' := by
  simp only [State.next, hpoint, Option.some.injEq] at move
  subst move
  have holds : A.hand w = .reserving reservation.actionId reservation.leaseToken := by
    rw [h.hand w, hpoint]
    rfl
  generalize hcalled : releaseBeforeMutation s.db reservation reason = called
  obtain ⟨db', result⟩ := called
  cases result with
  | ok u =>
    have sound := sound_of_reach hr
    have hfiles := h.files.release (sound.reserving holds) hcalled
    refine ⟨_, hr.step (a := ()) (Step.withdraw holds), ?_⟩
    refine h.move w (.raised failure) hfiles (keeps_release hcalled) trivial h.drawn ?_
    intro w' job token hne hw' hc
    cases hc
    exact hne (sound.reserver holds hw')
  | error error =>
    cases releaseBeforeMutation_error hcalled
    exact h.stay hr h.files (Keeps.refl _) trivial (le_refl _) (.inr rfl)

theorem Follows.prepare {call : Call} {material : ActionRow} {before : TargetObservation}
    {prediction : PredictedEffect} {dispatchId effectReceiptId : String} (h : Follows s A)
    (hr : (machine ask).Reach A)
    (hpoint : s.points w = .preparing call reservation material before prediction)
    (move : s.next hash (.prepare w dispatchId effectReceiptId) = some s') :
    ∃ A', (machine ask).Reach A' ∧ Follows s' A' := by
  simp only [State.next, hpoint, Option.some.injEq] at move
  subst move
  rw [State.call_eq]
  have holds : A.hand w = .reserving reservation.actionId reservation.leaseToken := by
    rw [h.hand w, hpoint]
    rfl
  generalize hcalled : prepareDispatch hash s.db reservation material call.actuator.actuatorId
    call.actuator.actorIdentity before prediction call.traceId call.actuator.reservationTtlMs
    dispatchId effectReceiptId s.tokens = called
  obtain ⟨db', result⟩ := called
  cases result with
  | ok dispatch =>
    have sound := sound_of_reach hr
    have hknown := h.known w
    rw [hpoint] at hknown
    have hexecuting : ∀ a ∈ s.db.actions, a.id = reservation.actionId → a.status = .executing := by
      obtain ⟨a', ha', hid', hs'⟩ := hknown.2
      intro a ha hid
      exact (h.files.keys.actions.eq_of_key ha ha' (hid.trans hid'.symm)) ▸ hs'
    obtain ⟨expires, hfiles⟩ := h.files.prepare (sound.reserving holds) hexecuting hcalled
    obtain ⟨d, e, hmaterial, -, -, -, hdaction, hdres, -, -, rfl, hid, rfl, htoken, hres⟩ :=
      prepareDispatch_ok hcalled
    have hknown' : dispatch.Known (extended { s.db with
        dispatches := s.db.dispatches ++ [d]
        effectReceipts := s.db.effectReceipts ++ [e] } reservation
          call.actuator.reservationTtlMs) := by
      refine ⟨by rw [hres, hmaterial], ?_⟩
      simp [extended, DispatchRow.about, hid, hmaterial, hdaction, hres, hdres]
    have hprepared : (machine ask).Reach ((A.draw s.tokens).move w reservation.actionId
        (.pending .prepared ⟨s.tokens, expires⟩) (.issuing reservation.actionId s.tokens)) :=
      hr.step (a := ()) (.prepare holds h.fresh)
    refine ⟨_, hprepared, ?_⟩
    have := h.advance w (.claiming call false dispatch) hfiles (keeps_prepare hcalled) hknown'
      (h.drawn_draw (Nat.lt_succ_self _))
    simp only [Point.hand, hmaterial, htoken] at this
    exact this
  | error error =>
    cases transaction_error hcalled
    exact h.stay hr h.files (Keeps.refl _) trivial (Nat.le_succ _) (.inr rfl)

theorem Follows.known_dispatch (h : Follows s A) {P : Point} (hpoint : s.points w = P)
    (known : P.Known s.db → dispatch.Known s.db) : dispatch.Known s.db :=
  known (hpoint ▸ h.known w)

theorem Follows.claim {call : Call} {recovered : Bool} (h : Follows s A)
    (hr : (machine ask).Reach A) (hpoint : s.points w = .claiming call recovered dispatch)
    (move : s.next hash (.claim w) = some s') :
    ∃ A', (machine ask).Reach A' ∧ Follows s' A' := by
  simp only [State.next, hpoint, Option.some.injEq] at move
  subst move
  have holds : A.hand w = .issuing dispatch.material.id dispatch.leaseToken := by
    rw [h.hand w, hpoint]
    rfl
  have hknown : dispatch.Known s.db := h.known_dispatch hpoint id
  generalize hcalled : claimMutation s.db dispatch call.actuator.reservationTtlMs = called
  obtain ⟨db', result⟩ := called
  cases result with
  | ok dispatch' =>
    obtain ⟨lease, htoken, hphase, hfiles⟩ := h.files.claim hknown hcalled
    have hkeeps := keeps_claim hcalled
    obtain ⟨-, -, rfl⟩ := claimMutation_ok hcalled
    have hissued : (machine ask).Reach (A.move w dispatch.material.id
        (.pending .issued ⟨dispatch.leaseToken, ttl s.db call.actuator.reservationTtlMs⟩)
        (.sending dispatch.material.id
          ⟨dispatch.leaseToken, ttl s.db call.actuator.reservationTtlMs⟩)) := by
      rw [← htoken] at holds ⊢
      exact hr.step (a := ()) (.issue holds hphase)
    exact ⟨_, hissued, h.advance w (.mutating call { dispatch with
      phase := .mutationIssued
      startedAt := s.db.now
      reservation := { dispatch.reservation with
        expiresAt := ttl s.db call.actuator.reservationTtlMs } })
      hfiles hkeeps (hknown.keeps hkeeps) h.drawn⟩
  | error error =>
    cases transaction_error hcalled
    exact h.stay hr h.files (Keeps.refl _) trivial (le_refl _) (.inr rfl)

/-- A worker that records what the connector answered. -/
theorem Follows.acknowledged {call : Call} {requestId : Option String} {returnedAt : Option Int}
    {ttlMs : Nat} {returned : ActuatorDispatch → Point} {raised : ExecutionError → Point}
    (h : Follows s A) (hr : (machine ask).Reach A) (hknown : dispatch.Known s.db)
    (holds : A.hand w = .settling dispatch.material.id dispatch.leaseToken)
    (onReturn : ∀ dispatch' : ActuatorDispatch, ∃ errorClass,
      returned dispatch' = .reconciling call dispatch' errorClass)
    (onRaise : ∀ error, ∃ failure, raised error = .raised failure) :
    ∃ A', (machine ask).Reach A' ∧
      Follows (s.call w (recordConnectorAck s.db dispatch requestId returnedAt ttlMs) returned raised)
        A' := by
  generalize hcalled : recordConnectorAck s.db dispatch requestId returnedAt ttlMs = called
  obtain ⟨db', result⟩ := called
  cases result with
  | ok dispatch' =>
    obtain ⟨stage, lease, htoken, hphase, hfiles⟩ := h.files.acknowledge hknown hcalled
    have hkeeps := keeps_acknowledge hcalled
    obtain ⟨-, -, hid, hmaterial, htoken', hres⟩ := recordConnectorAck_ok hcalled
    have hmoved : (machine ask).Reach (A.move w dispatch.material.id
        (.pending .reconciling ⟨dispatch.leaseToken, ttl s.db ttlMs⟩)
        (.settling dispatch.material.id dispatch.leaseToken)) := by
      rw [← htoken] at holds ⊢
      exact hr.step (a := ()) (.acknowledge holds hphase)
    have hknown' : dispatch'.Known db' := by
      have := hknown.keeps hkeeps
      simpa only [ActuatorDispatch.Known, hid, hmaterial, hres] using this
    obtain ⟨errorClass, hpoint⟩ := onReturn dispatch'
    have := h.advance w (.reconciling call dispatch' errorClass) hfiles hkeeps hknown' h.drawn
    simp only [Point.hand, hmaterial, htoken', ← hpoint] at this
    exact ⟨_, hmoved, this⟩
  | error error =>
    cases transaction_error hcalled
    obtain ⟨failure, hpoint⟩ := onRaise error
    have hraised : ∃ A', (machine ask).Reach A' ∧
        Follows (s.after w s.db s.tokens (.raised failure)) A' :=
      h.stay hr h.files (Keeps.refl _) trivial (le_refl _) (.inr rfl)
    rwa [← hpoint] at hraised

theorem Follows.finalize {receipt : ExecutionReceiptWrite} {customerAuditRef receiptId : String}
    (h : Follows s A) (hr : (machine ask).Reach A)
    (hpoint : s.points w = .finalizing dispatch receipt customerAuditRef)
    (move : s.next hash (.finalize w receiptId) = some s') :
    ∃ A', (machine ask).Reach A' ∧ Follows s' A' := by
  simp only [State.next, hpoint, Option.some.injEq] at move
  subst move
  have holds : A.hand w =
      .decided dispatch.material.id dispatch.leaseToken receipt.result.verdict := by
    rw [h.hand w, hpoint]
    rfl
  have hknown : dispatch.Known s.db := h.known_dispatch hpoint id
  generalize hcalled : finalizeDispatch s.db dispatch receipt customerAuditRef receiptId = called
  obtain ⟨db', result⟩ := called
  cases result with
  | ok result =>
    have sound := sound_of_reach hr
    obtain ⟨-, lease, htoken, hphase, hfiles⟩ := h.files.finalize hknown hcalled
    rw [← htoken] at holds
    refine ⟨_, hr.step (a := ()) (.settle holds hphase), ?_⟩
    refine h.move w (.returned result receipt.result dispatch.reservation.reservationId) hfiles
      (keeps_finalize hcalled) trivial h.drawn ?_
    intro w' job token _ hw' hc
    cases hc
    have := hphase.symm.trans (sound.reserving hw')
    cases this
  | error error =>
    cases transaction_error hcalled
    exact h.stay hr h.files (Keeps.refl _) trivial (le_refl _) (.inr rfl)

theorem Follows.mutate {call : Call} (h : Follows s A) (hr : (machine ask).Reach A)
    (hpoint : s.points w = .mutating call dispatch) (move : s.next hash (.mutate w) = some s') :
    ∃ A', (machine ask).Reach A' ∧ Follows s' A' := by
  simp only [State.next, hpoint, Option.some.injEq] at move
  subst move
  have holds : A.hand w =
      .sending dispatch.material.id ⟨dispatch.leaseToken, dispatch.reservation.expiresAt⟩ := by
    rw [h.hand w, hpoint]
    rfl
  have hknown : dispatch.Known s.db := h.known_dispatch hpoint id
  have htaken := h.take w (.awaiting call dispatch) h.files (Keeps.refl s.db) hknown (le_refl _)
  refine ⟨_, hr.step (a := ()) (.send holds), ?_⟩
  exact { htaken with
    sent := congrArg (dispatch.material.id :: ·) h.sent
    inFlight := congrArg (dispatch.material.id :: ·) h.inFlight }

/-- The world around the workers moves, and no action with it. -/
theorem Follows.around (h : Follows s A) (keys : Keys db')
    (filed : ∀ id, Filed (db'.file id) (A.phase id)) (keeps : Keeps s.db db' none) :
    Follows { s with db := db' } A where
  now := h.now.trans keeps.now.symm
  files := ⟨keys, filed⟩
  hand := h.hand
  drawn := h.drawn
  sent := h.sent
  inFlight := h.inFlight
  known w := (h.known w).keeps keeps (fun _ _ _ hc => nomatch hc)

theorem Follows.tick (h : Follows s A) (hr : (machine ask).Reach A) (micros : Nat) :
    ∃ A', (machine ask).Reach A' ∧
      Follows { s with db := { s.db with now := s.db.now + micros } } A' := by
  have later : A.now ≤ s.db.now + micros := by
    rw [h.now]
    omega
  refine ⟨_, hr.step (a := ()) (.tick later), ?_⟩
  exact ⟨rfl, ⟨{ h.files.keys with }, h.files.filed⟩, h.hand, h.drawn, h.sent, h.inFlight, h.known⟩

/-- A new action has an empty file. -/
theorem Follows.plan {action : ActionRow} (h : Follows s A)
    (hplan : planned s.db action = some db') : Follows { s with db := db' } A := by
  unfold planned at hplan
  obtain ⟨hnew, hdb⟩ := Option.ite_none_left_eq_some.mp hplan
  cases hdb
  have hnew : ∀ a ∈ s.db.actions, a.id ≠ action.id := by
    intro a ha hid
    exact hnew (List.any_eq_true.mpr ⟨a, ha, by simpa using hid⟩)
  refine h.around { h.files.keys with actions := h.files.keys.actions.append hnew } ?_ ?_
  · intro id
    by_cases hid : id = action.id
    · subst hid
      have hf := h.files.filed action.id
      have hnone : (s.db.file action.id).actions = [] := by
        simpa [Database.file, List.filter_eq_nil_iff] using hnew
      have hsame : ({ s.db with actions := s.db.actions ++ [action] } : Database).file action.id =
          { s.db.file action.id with
            actions := (s.db.file action.id).actions ++ [action] } := by
        simp [Database.file, List.filter_append]
      rw [hsame]
      generalize s.db.file action.id = f at hf hnone
      generalize A.phase action.id = p at hf
      cases hf with
      | untouched actions => exact .untouched _
      | reserved | withdrawn | pending | settled => cases hnone
    · have hsame : ({ s.db with actions := s.db.actions ++ [action] } : Database).file id =
          s.db.file id := by
        have : (action.id == id) = false := by simpa using Ne.symm hid
        simp [Database.file, List.filter_append, this]
      exact hsame ▸ h.files.filed id
  · exact ⟨rfl, fun _ => id, fun _ => id,
      fun a ha _ => ⟨a, List.mem_append_left _ ha, rfl, id⟩⟩

theorem Follows.land (h : Follows s A) (hr : (machine ask).Reach A) (actionId : String)
    (effects : List Effect) :
    ∃ A', (machine ask).Reach A' ∧
      Follows { s with inFlight := s.inFlight.erase actionId, effects } A' :=
  ⟨_, hr.step (a := ()) (.land actionId), h.now, h.files, h.hand, h.drawn, h.sent,
    congrArg (List.erase · actionId) h.inFlight, h.known⟩

/-- A worker is at a point and hears something that leaves its hand alone. -/
theorem Follows.hear_at {α : Type} {heard : Except ExecutionError α} {returned : α → Point}
    {raised : ExecutionError → Point} (h : Follows s A) (hr : (machine ask).Reach A)
    (hpoint : s.points w = point)
    (onReturn : ∀ value, point.Known s.db → (returned value).Known s.db ∧
      (returned value).hand = point.hand)
    (onRaise : ∀ error, point.Known s.db → (raised error).Known s.db ∧
      ((raised error).hand = point.hand ∨ (raised error).hand = .empty)) :
    ∃ A', (machine ask).Reach A' ∧ Follows (s.hear w heard returned raised) A' := by
  have hknown := h.known w
  rw [hpoint] at hknown
  refine h.hear hr (fun value _ => ?_) (fun error => ?_)
  · obtain ⟨known, hand⟩ := onReturn value hknown
    exact ⟨known, .inl (hand.trans (by rw [hpoint]))⟩
  · obtain ⟨known, hand⟩ := onRaise error hknown
    exact ⟨known, hand.imp_left (fun hand => hand.trans (by rw [hpoint]))⟩

/-- A verdict is heard. -/
theorem Follows.reconcile {call : Call} {errorClass : Option String}
    {reconciliation : Except ExecutionError Reconciliation} (h : Follows s A)
    (hr : (machine ask).Reach A) (hpoint : s.points w = .reconciling call dispatch errorClass)
    (asked : ∀ r, reconciliation = .ok r → r.result ≠ .unknown → ask A dispatch.material.id) :
    ∃ A', (machine ask).Reach A' ∧ Follows (s.hear w reconciliation
      (fun r => .auditing dispatch (receiptOf call dispatch errorClass r))
      (fun error => .raised ⟨.reconciliation, false, error⟩)) A' := by
  have holds : A.hand w = .settling dispatch.material.id dispatch.leaseToken := by
    rw [h.hand w, hpoint]
    rfl
  have hknown : dispatch.Known s.db := h.known_dispatch hpoint id
  cases reconciliation with
  | ok r =>
    have hverdict : r.result.execution.verdict ≠ .unknown → r.result ≠ .unknown := by
      intro hv hu
      exact hv (by rw [hu]; rfl)
    exact ⟨_, hr.step (a := ()) (.decide r.result.execution.verdict holds
        (fun hv => asked r rfl (hverdict hv))),
      h.take w (.auditing dispatch (receiptOf call dispatch errorClass r)) h.files
        (Keeps.refl s.db) hknown (le_refl _)⟩
  | error error => exact h.stay hr h.files (Keeps.refl _) trivial (le_refl _) (.inr rfl)

/-- Every move of the workers is a move of the protocol, two moves or none. -/
theorem Follows.next {event : Event} (h : Follows s A) (hr : (machine ask).Reach A)
    (move : s.next hash event = some s')
    (asked : ∀ w r call dispatch errorClass, event = .reconcile w (.ok r) →
      s.points w = .reconciling call dispatch errorClass → r.result ≠ .unknown →
      ask A dispatch.material.id) :
    ∃ A', (machine ask).Reach A' ∧ Follows s' A' := by
  have move' := move
  cases event with
  | tick micros =>
    cases move
    exact h.tick hr micros
  | plan action =>
    obtain ⟨db', hplan, heq⟩ := Option.map_eq_some_iff.mp move
    cases heq
    exact ⟨A, hr, h.plan hplan⟩
  | approve actionId =>
    cases move
    have hfiles : Files (s.db.setActionStatus actionId [.awaitingApproval] .authorized) A.phase :=
      h.files.setActionStatus (by simp) (by simp)
    exact ⟨A, hr, h.around hfiles.keys hfiles.filed (keeps_setActionStatus _ (fun _ => by simp))⟩
  | baseline target =>
    obtain ⟨hnew, heq⟩ := Option.ite_none_left_eq_some.mp move
    cases heq
    refine ⟨A, hr, h.around { h.files.keys with targets := h.files.keys.targets.append ?_ }
      h.files.filed (.of_actions rfl (fun _ => id) (fun _ => id) rfl)⟩
    intro t ht hkey
    exact hnew (List.any_eq_true.mpr ⟨t, ht, by simpa using hkey⟩)
  | register rows | schedule rows =>
    cases move
    exact ⟨A, hr, h.around { h.files.keys with } h.files.filed
      (.of_actions rfl (fun _ => id) (fun _ => id) rfl)⟩
  | coordinate incident =>
    cases move
    exact ⟨A, hr, h.around { h.files.keys with } h.files.filed
      (.of_actions rfl (fun _ => id) (fun _ => id) rfl)⟩
  | execute w call =>
    obtain ⟨hfree, heq⟩ := Option.ite_none_right_eq_some.mp move
    cases heq
    exact h.stay hr h.files (Keeps.refl _) trivial (le_refl _) (.inr rfl)
  | recover w =>
    simp only [State.next] at move'
    split at move'
    · exact h.recover hr ‹_› move
    · cases move'
  | reauthorize w verdict =>
    simp only [State.next] at move'
    split at move'
    · rename_i hpoint
      cases move'
      exact h.hear_at hr hpoint (fun _ known => ⟨known, rfl⟩) (fun _ _ => ⟨trivial, .inr rfl⟩)
    · cases move'
  | acquire w reservationId =>
    simp only [State.next] at move'
    split at move'
    · exact h.acquire hr ‹_› move
    · cases move'
  | authorize w verdict =>
    simp only [State.next] at move'
    split at move'
    · exact h.authorize hr ‹_› move
    · cases move'
  | observe w observation =>
    simp only [State.next] at move'
    split at move'
    · rename_i hpoint
      cases move'
      refine h.hear_at hr hpoint (fun before known => ?_) (fun _ _ => ⟨trivial, .inr rfl⟩)
      split
      · exact ⟨⟨known.1, rfl⟩, rfl⟩
      · exact ⟨known, rfl⟩
    · cases move'
  | dryRun w prediction =>
    simp only [State.next] at move'
    split at move'
    · rename_i hpoint
      cases move'
      refine h.hear_at hr hpoint (fun prediction known => ?_) (fun _ known => ⟨⟨known.1, rfl⟩, .inl rfl⟩)
      split
      · exact ⟨known, rfl⟩
      · exact ⟨⟨known.1, rfl⟩, rfl⟩
    · cases move'
  | gate w verdict =>
    simp only [State.next] at move'
    split at move'
    · rename_i hpoint
      cases move'
      refine h.hear_at hr hpoint (fun _ known => ⟨known, rfl⟩) (fun error known => ?_)
      cases error with
      | actionPolicyError => exact ⟨⟨known.1, rfl⟩, .inl rfl⟩
      | _ => exact ⟨trivial, .inr rfl⟩
    · rename_i hpoint
      cases move'
      exact h.hear_at hr hpoint (fun _ known => ⟨known, rfl⟩) (fun _ _ => ⟨trivial, .inr rfl⟩)
    · cases move'
  | undo w plan =>
    simp only [State.next] at move'
    split at move'
    · rename_i hpoint
      cases move'
      exact h.hear_at hr hpoint (fun _ known => ⟨known, rfl⟩) (fun _ _ => ⟨trivial, .inr rfl⟩)
    · cases move'
  | release w =>
    simp only [State.next] at move'
    split at move'
    · exact h.release hr ‹_› move
    · cases move'
  | prepare w dispatchId effectReceiptId =>
    simp only [State.next] at move'
    split at move'
    · exact h.prepare hr ‹_› move
    · cases move'
  | claim w =>
    simp only [State.next] at move'
    split at move'
    · exact h.claim hr ‹_› move
    · cases move'
  | mutate w =>
    simp only [State.next] at move'
    split at move'
    · exact h.mutate hr ‹_› move
    · cases move'
  | mutated w outcome =>
    simp only [State.next] at move'
    split at move'
    · rename_i call dispatch hpoint
      have hknown : dispatch.Known s.db := h.known_dispatch hpoint id
      cases outcome with
      | returned | ambiguous =>
        cases move'
        exact h.stay hr h.files (Keeps.refl _) hknown (le_refl _) (.inl (by rw [hpoint]; rfl))
      | failed =>
        cases move'
        exact h.stay hr h.files (Keeps.refl _) trivial (le_refl _) (.inr rfl)
    · cases move'
  | acknowledge w =>
    simp only [State.next] at move'
    split at move'
    · rename_i hpoint
      cases move'
      exact h.acknowledged hr (h.known_dispatch hpoint id) (by rw [h.hand w, hpoint]; rfl)
        (fun _ => ⟨_, rfl⟩) (fun _ => ⟨_, rfl⟩)
    · rename_i hpoint
      cases move'
      exact h.acknowledged hr (h.known_dispatch hpoint id) (by rw [h.hand w, hpoint]; rfl)
        (fun _ => ⟨_, rfl⟩) (fun _ => ⟨_, rfl⟩)
    · cases move'
  | reconcile w reconciliation =>
    simp only [State.next] at move'
    split at move'
    · rename_i call dispatch errorClass hpoint
      obtain ⟨-, heq⟩ := Option.ite_none_right_eq_some.mp move'
      cases heq
      refine h.reconcile hr hpoint (fun r hok => ?_)
      exact asked w r call dispatch errorClass (by rw [hok]) hpoint
    · cases move'
  | audit w ref =>
    simp only [State.next] at move'
    split at move'
    · rename_i hpoint
      cases move'
      exact h.hear_at hr hpoint (fun _ known => ⟨known, rfl⟩) (fun _ _ => ⟨trivial, .inr rfl⟩)
    · cases move'
  | finalize w receiptId =>
    simp only [State.next] at move'
    split at move'
    · exact h.finalize hr ‹_› move
    · cases move'
  | crash w =>
    cases move
    exact h.stay hr h.files (Keeps.refl _) trivial (le_refl _) (.inr rfl)
  | deliver actionId =>
    obtain ⟨-, heq⟩ := Option.ite_none_right_eq_some.mp move
    obtain ⟨action, -, heq⟩ := Option.bind_eq_some_iff.mp heq
    cases heq
    exact h.land hr actionId _
  | lose actionId =>
    cases move
    exact h.land hr actionId s.effects

/-- A fresh database as a state in which no job is touched. -/
theorem exists_follows_fresh (fresh : s.Fresh) :
    ∃ A : Protocol, (machine ask).start A ∧ Follows s A := by
  refine ⟨⟨s.db.now, fun _ => .untouched, fun _ => .empty, fun _ => False, [], []⟩,
    ⟨fun _ => rfl, fun _ => rfl, rfl, rfl⟩, ?_⟩
  refine ⟨rfl, ⟨⟨fresh.actions, fresh.targets, ?_, ?_⟩, fun id => ?_⟩, ?_, ?_, ?_, ?_, ?_⟩
  · simp [fresh.reservations, Table.Unique]
  · simp [fresh.dispatches, Table.Unique]
  · have hfile : s.db.file id = ⟨s.db.actions.filter (fun a => a.id == id), [], [], []⟩ := by
      simp [Database.file, fresh.reservations, fresh.dispatches, fresh.executionReceipts]
    rw [hfile]
    exact .untouched _
  · intro w
    rw [fresh.points w]
    rfl
  · exact fun _ hd => hd.elim
  · simp [fresh.mutations]
  · simp [fresh.inFlight]
  · intro w
    rw [fresh.points w]
    trivial

/-- Every reachable state of the workers is one of the protocol. -/
theorem exists_follows (h : (workers hash).Reach s) :
    ∃ A, (machine (fun _ _ => True)).Reach A ∧ Follows s A :=
  h.simulated (fun _ fresh => exists_follows_fresh fresh)
    (fun _ _ _ _ _ hr follows move => follows.next hr move (fun _ _ _ _ _ _ _ _ => trivial))

end Solvan.Actuator
