import Solvan.Base.Keyed
import Solvan.Base.Machine
import Solvan.Domain.Values
import Solvan.Scale.Lifecycle

/-! The sequencer that gives committed events their places in the order of a scope. -/
namespace Solvan.Scale

open Solvan.Base

inductive EventState where
  | unsequenced | claimed | sequenced | quarantined | superseded
deriving DecidableEq, Repr

structure SequencedEvent where
  organizationId : String
  projectId : String
  environmentId : String
  eventId : String
  eventRef : String
  eventHash : String
  placementEpoch : Int
  createdAt : Datetime
  state : EventState := .unsequenced
  attemptCount : Int := 0
  claimToken : Option Token := none
  claimExpiresAt : Option Int := none
  scopeSequence : Option Int := none
  errorRef : Option String := none
deriving DecidableEq

/-- What is raised: a `ValueError`, a `TypeError`, a `ScaleRuntimeError`, or one of
the two that a reader of the feed has to tell apart. -/
inductive Refusal where
  | value (text : String)
  | type (text : String)
  | runtime (text : String)
  | recoveryRequired (text : String)
  | poisonBlocked (text : String)
deriving DecidableEq, Repr

structure CommittedEventSequencer where
  placementEpoch : Int
  nextSequence : Int
  events : List SequencedEvent
  now : Int
  positive : 1 ≤ placementEpoch

def CommittedEventSequencer.new (placementEpoch : Int) (now : Int) (positive : 1 ≤ placementEpoch) :
    CommittedEventSequencer :=
  ⟨placementEpoch, 1, [], now, positive⟩

/-- `self._events.get(event_id)` -/
def CommittedEventSequencer.event (s : CommittedEventSequencer) (eventId : String) :
    Option SequencedEvent :=
  Keyed.get SequencedEvent.eventId s.events eventId

/-- `self._events[event_id] = event` -/
def CommittedEventSequencer.store (s : CommittedEventSequencer) (event : SequencedEvent) :
    CommittedEventSequencer :=
  { s with events := Keyed.put SequencedEvent.eventId s.events event }

/-- What a call comes to: the state it leaves and the event it returns, or what it raises. -/
abbrev Sequencing := Except Refusal (CommittedEventSequencer × SequencedEvent)

/-- `ingest` -/
def CommittedEventSequencer.ingest (s : CommittedEventSequencer) (event : SequencedEvent) : Sequencing :=
  if event.placementEpoch ≠ s.placementEpoch then .error (.runtime "event placement epoch is stale")
  else
    match s.event event.eventId with
    | some existing =>
      if existing.eventHash ≠ event.eventHash then
        .error (.runtime "event id was reused with a different payload")
      else .ok (s, existing)
    | none =>
      if s.events.any (fun existing => existing.eventHash == event.eventHash) then
        .error (.runtime "duplicate committed event payload")
      else .ok (s.store event, event)

/-- A claim that has not run out. -/
def SequencedEvent.live (event : SequencedEvent) (moment : Int) : Bool :=
  event.state == .claimed && event.claimExpiresAt.any (fun expires => decide (moment < expires))

def SequencedEvent.claimedWith (event : SequencedEvent) (token : Token) (expires : Int) : SequencedEvent :=
  { event with
    state := .claimed
    claimToken := some token
    claimExpiresAt := some expires
    attemptCount := event.attemptCount + 1 }

/-- `claim`, the token being what `uuid4` returns. -/
def CommittedEventSequencer.claim (s : CommittedEventSequencer) (eventId : String)
    (now : Option Int) (leaseSeconds : Int) (token : Token) : Sequencing :=
  let moment := now.getD s.now
  match s.event eventId with
  | none => .error (.runtime "event is absent or stale")
  | some event =>
    if event.placementEpoch ≠ s.placementEpoch then .error (.runtime "event is absent or stale")
    else if event.state = .quarantined then .error (.runtime "poison event blocks its cursor")
    else if event.live moment then .error (.runtime "event claim is still live")
    else if event.state ≠ .unsequenced ∧ event.state ≠ .claimed then
      .error (.runtime "event is not claimable")
    else if ¬(1 ≤ leaseSeconds ∧ leaseSeconds ≤ 300) then
      .error (.value "event lease must be bounded")
    else
      let claimed := event.claimedWith token (moment + leaseSeconds * 1000000)
      .ok (s.store claimed, claimed)

def SequencedEvent.sequencedAt (event : SequencedEvent) (place : Int) : SequencedEvent :=
  { event with
    state := .sequenced
    scopeSequence := some place
    claimToken := none
    claimExpiresAt := none }

/-- `sequence` -/
def CommittedEventSequencer.sequence (s : CommittedEventSequencer) (eventId : String)
    (claimToken : Token) (now : Option Int) : Sequencing :=
  let moment := now.getD s.now
  match s.event eventId with
  | none => .error (.runtime "event claim token is stale")
  | some event =>
    if event.state = .quarantined then .error (.runtime "quarantined event blocks its cursor")
    else if event.state ≠ .claimed ∨ event.claimToken ≠ some claimToken then
      .error (.runtime "event claim token is stale")
    else if event.claimExpiresAt.all (fun expires => decide (expires ≤ moment)) then
      .error (.runtime "event claim expired")
    else if s.events.any (fun other => other.state == .quarantined) then
      .error (.runtime "quarantined event blocks scope sequencing")
    else
      let sequenced := event.sequencedAt s.nextSequence
      .ok ({ s.store sequenced with nextSequence := s.nextSequence + 1 }, sequenced)

def SequencedEvent.quarantinedFor (event : SequencedEvent) (errorRef : String) : SequencedEvent :=
  { event with
    state := .quarantined
    claimToken := none
    claimExpiresAt := none
    errorRef := some errorRef }

/-- `quarantine` -/
def CommittedEventSequencer.quarantine (s : CommittedEventSequencer) (eventId : String)
    (claimToken : Token) (errorRef : String) : Sequencing :=
  match s.event eventId with
  | none => .error (.runtime "event claim token is stale")
  | some event =>
    if event.state ≠ .claimed ∨ event.claimToken ≠ some claimToken then
      .error (.runtime "event claim token is stale")
    else if !beginsWith "ref_" errorRef then
      .error (.value "poison error must be a typed reference")
    else
      let quarantined := event.quarantinedFor errorRef
      .ok (s.store quarantined, quarantined)

/-- `supersede` -/
def CommittedEventSequencer.supersede (s : CommittedEventSequencer) (eventId : String)
    (errorRef : String) : Sequencing :=
  match s.event eventId with
  | none => .error (.runtime "poison event supersession is not authorized")
  | some event =>
    if event.state ≠ .quarantined ∨ event.errorRef ≠ some errorRef then
      .error (.runtime "poison event supersession is not authorized")
    else
      let superseded := { event with state := .superseded }
      .ok (s.store superseded, superseded)

/-- A call of a worker's, with the clock it reads and the token it draws. -/
inductive SequencerCall where
  | ingest (event : SequencedEvent)
  | claim (eventId : String) (now : Option Int) (leaseSeconds : Int) (token : Token)
  | sequence (eventId : String) (claimToken : Token) (now : Option Int)
  | quarantine (eventId : String) (claimToken : Token) (errorRef : String)
  | supersede (eventId : String) (errorRef : String)

def CommittedEventSequencer.call (s : CommittedEventSequencer) : SequencerCall → Sequencing
  | .ingest event => s.ingest event
  | .claim eventId now leaseSeconds token => s.claim eventId now leaseSeconds token
  | .sequence eventId claimToken now => s.sequence eventId claimToken now
  | .quarantine eventId claimToken errorRef => s.quarantine eventId claimToken errorRef
  | .supersede eventId errorRef => s.supersede eventId errorRef

/-- An event as it is committed, with every field that has a default at it. -/
def SequencedEvent.Fresh (event : SequencedEvent) : Prop :=
  event.state = .unsequenced ∧ event.attemptCount = 0 ∧ event.claimToken = none ∧
    event.claimExpiresAt = none ∧ event.scopeSequence = none ∧ event.errorRef = none

/-- A call and what it returned, none where it raised. -/
structure Made where
  call : SequencerCall
  returned : Option SequencedEvent

/-- What a call leaves and returns. What raises changes nothing. -/
def CommittedEventSequencer.perform (s : CommittedEventSequencer) (call : SequencerCall) :
    CommittedEventSequencer × Option SequencedEvent :=
  match s.call call with
  | .ok (after, returned) => (after, some returned)
  | .error _ => (s, none)

/-- The sequencer under calls of any number of workers, in any order. -/
def sequencing (epoch now : Int) (positive : 1 ≤ epoch) : Machine CommittedEventSequencer Made where
  start s := s = .new epoch now positive
  step s made s' :=
    (∀ event, made.call = .ingest event → event.Fresh) ∧ s.perform made.call = (s', made.returned)

/-- The sequencing that a call is, if it is one that succeeds. -/
def Made.assigned (made : Made) : Option (String × Option Int) :=
  match made.call with
  | .sequence eventId _ _ => made.returned.map (fun event => (eventId, event.scopeSequence))
  | _ => none

/-- The places given out, in the order they were. -/
def assigned (moves : List Made) : List (String × Option Int) := moves.filterMap Made.assigned

/-- The token that a successful claim on an event is made with. -/
def Made.claimed (eventId : String) (made : Made) : Option Token :=
  match made.call with
  | .claim claimedId _ _ token =>
    if claimedId = eventId ∧ made.returned.isSome then some token else none
  | _ => none

/-- The token of the latest claim on an event. -/
def latestClaim (eventId : String) (moves : List Made) : Option Token :=
  (moves.filterMap (Made.claimed eventId)).getLast?

/-- The event and the token that a call needs to succeed. -/
def SequencerCall.fenced : SequencerCall → Option (String × Token)
  | .sequence eventId claimToken _ => some (eventId, claimToken)
  | .quarantine eventId claimToken _ => some (eventId, claimToken)
  | _ => none

end Solvan.Scale
