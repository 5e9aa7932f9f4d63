import Mathlib.Data.List.Sort
import Solvan.Base.Machine
import Solvan.Skills.Selection

/-! The skills that are asked for in threads, and the declarations that keep two of them apart. -/
namespace Solvan.Skills.Invocation
open Base Selection

inductive RequestStatus where
  | pendingCoordinator | accepted | refused | expired
deriving DecidableEq, Repr

def RequestStatus.live : RequestStatus → Bool
  | .pendingCoordinator | .accepted => true
  | .refused | .expired => false

/-- A row of `guidance_incompatibilities`, which declares nothing incompatible with itself -/
structure Incompatibility where
  declaringGuidanceKey : String
  incompatibleGuidanceKey : String
  reasonCode : String
  apart : declaringGuidanceKey ≠ incompatibleGuidanceKey

/-- Whether a declaration is about two keys, whichever declares it. -/
def Incompatibility.between (pair : Incompatibility) (key other : String) : Bool :=
  (pair.declaringGuidanceKey == key && pair.incompatibleGuidanceKey == other) ||
    (pair.declaringGuidanceKey == other && pair.incompatibleGuidanceKey == key)

/-- A row of `guidance_invocation_requests` -/
structure InvocationRequest where
  id : String
  threadId : String
  answerMessageId : String
  guidanceKey : String
  guidanceVersion : String
  guidanceHash : String
  requestStatus : RequestStatus
  createdAt : Int
deriving DecidableEq, Repr

/-- A row of `guidance_invocation_conflicts` -/
structure InvocationConflict where
  invocationRequestId : String
  conflictingInvocationRequestId : String
  reasonCode : String
deriving DecidableEq, Repr

/-- A row of `guidance_operator_notes` -/
structure OperatorNote where
  invocationRequestId : String
  noteText : String
deriving DecidableEq, Repr

/-- A row of `guidance_selection_analytics` -/
structure SelectionCount where
  guidance : String × String
  outcomeCode : String
  selectionCount : Nat
deriving DecidableEq, Repr

def SelectionCount.key (row : SelectionCount) : (String × String) × String := (row.guidance, row.outcomeCode)

/-- The tables of one scope, each in the order of insertion. -/
structure Store where
  incompatibilities : List Incompatibility
  requests : List InvocationRequest
  conflicts : List InvocationConflict
  notes : List OperatorNote
  analytics : List SelectionCount

/-- What the coordinator hands over, with the identifier that is made for it and the time of the transaction. -/
structure Call where
  requestId : String
  now : Int
  threadId : String
  answerMessageId : String
  parsed : ParsedSkillSelector
  candidate : SkillSelectionCandidate

structure SkillInvocationRequest where
  requestId : String
  candidate : SkillSelectionCandidate
  status : RequestStatus
  conflictReason : Option String
deriving DecidableEq, Repr

namespace Store

variable (s : Store)

/-- The live requests of a thread that a declaration keeps apart from a key, each with the declaration. -/
def opposed (threadId guidanceKey : String) : List (InvocationRequest × Incompatibility) :=
  (s.requests.filter fun request => request.threadId == threadId && request.requestStatus.live).flatMap fun request =>
    (s.incompatibilities.filter (·.between guidanceKey request.guidanceKey)).map (request, ·)

/-- The earliest of these -/
def conflict (threadId guidanceKey : String) : Option (InvocationRequest × Incompatibility) :=
  ((s.opposed threadId guidanceKey).insertionSort (fun a b => a.1.createdAt ≤ b.1.createdAt)).head?

/-- How often a skill was selected with an outcome. -/
def selected (key : (String × String) × String) : Nat :=
  ((Keyed.get SelectionCount.key s.analytics key).map SelectionCount.selectionCount).getD 0

def count (key : (String × String) × String) : List SelectionCount :=
  Keyed.put SelectionCount.key s.analytics ⟨key.1, key.2, s.selected key + 1⟩

end Store

/-- What the first request of an answer message is. -/
def Call.request (call : Call) (status : RequestStatus) : InvocationRequest where
  id := call.requestId
  threadId := call.threadId
  answerMessageId := call.answerMessageId
  guidanceKey := call.candidate.guidanceKey
  guidanceVersion := call.candidate.version
  guidanceHash := call.candidate.revisionHash
  requestStatus := status
  createdAt := call.now

/-- The answer to a message that has a request. -/
def replay (s : Store) (call : Call) (stored : InvocationRequest) : Except String SkillInvocationRequest :=
  if (stored.guidanceKey, stored.guidanceVersion, stored.guidanceHash) ≠
      (call.candidate.guidanceKey, call.candidate.version, call.candidate.revisionHash) then
    .error "GUIDANCE_INVOCATION_REPLAY_CONFLICT"
  else
    .ok ⟨stored.id, call.candidate, stored.requestStatus,
      if stored.requestStatus = .refused then
        (Keyed.get InvocationConflict.invocationRequestId s.conflicts stored.id).map InvocationConflict.reasonCode
      else none⟩

/-- What the first call for a message writes. -/
def insert (s : Store) (call : Call) (conflict : Option (InvocationRequest × Incompatibility)) : Store where
  incompatibilities := s.incompatibilities
  requests := s.requests ++ [call.request (if conflict.isSome then .refused else .pendingCoordinator)]
  conflicts := s.conflicts ++
    (conflict.map fun found => ⟨call.requestId, found.1.id, found.2.reasonCode⟩).toList
  notes := if call.parsed.note ≠ "" then s.notes ++ [⟨call.requestId, call.parsed.note⟩] else s.notes
  analytics := s.count ((call.candidate.guidanceKey, call.candidate.version),
    if conflict.isSome then "CONFLICT_REFUSED" else "CANDIDATE_RECORDED")

section
variable {s : Store} {call : Call} {conflict : Option (InvocationRequest × Incompatibility)}

@[simp] theorem insert_requests : (insert s call conflict).requests =
    s.requests ++ [call.request (if conflict.isSome then .refused else .pendingCoordinator)] := rfl

@[simp] theorem insert_conflicts : (insert s call conflict).conflicts = s.conflicts ++
    (conflict.map fun found => ⟨call.requestId, found.1.id, found.2.reasonCode⟩).toList := rfl

@[simp] theorem insert_incompatibilities : (insert s call conflict).incompatibilities = s.incompatibilities := rfl

end

/-- `record_invocation`, which the lock on the thread makes one step -/
def recordInvocation (s : Store) (call : Call) : Except String SkillInvocationRequest × Store :=
  match Keyed.get InvocationRequest.answerMessageId s.requests call.answerMessageId with
  | some stored => (replay s call stored, s)
  | none =>
    let conflict := s.conflict call.threadId call.candidate.guidanceKey
    (.ok ⟨call.requestId, call.candidate, if conflict.isSome then .refused else .pendingCoordinator,
      conflict.map (·.2.reasonCode)⟩, insert s call conflict)

inductive Move where
  | record (call : Call)
  /-- An author declares two skills incompatible. -/
  | declare (pair : Incompatibility)
  /-- A live request is accepted, or expires. -/
  | settle (id : String) (status : RequestStatus)

def settled (id : String) (status : RequestStatus) (request : InvocationRequest) : InvocationRequest :=
  if request.id = id ∧ request.requestStatus.live = true then { request with requestStatus := status } else request

def next (s : Store) : Move → Option Store
  | .record call => if call.requestId ∉ s.requests.map InvocationRequest.id then some (recordInvocation s call).2 else none
  | .declare pair => some { s with incompatibilities := s.incompatibilities ++ [pair] }
  | .settle id status =>
    if status = .accepted ∨ status = .expired then some { s with requests := s.requests.map (settled id status) }
    else none

/-- Before anything is asked for -/
def Fresh (s : Store) : Prop := s.requests = [] ∧ s.conflicts = [] ∧ s.notes = [] ∧ s.analytics = []

def invocations : Machine Store Move := Machine.ofFn Fresh next


variable {s s' t : Store} {a : Move} {moves : List Move} {call : Call} {request other : InvocationRequest}
  {pair : Incompatibility} {threadId key : String} {id : String} {status : RequestStatus}

/-- The requests of a store, their refusals, and how often each skill was selected. -/
structure Kept (s : Store) : Prop where
  ids : (s.requests.map InvocationRequest.id).Nodup
  messages : (s.requests.map InvocationRequest.answerMessageId).Nodup
  conflictIds : (s.conflicts.map InvocationConflict.invocationRequestId).Nodup
  refused : ∀ request ∈ s.requests, request.requestStatus = .refused ↔
    request.id ∈ s.conflicts.map InvocationConflict.invocationRequestId
  explained : ∀ conflict ∈ s.conflicts, ∃ request ∈ s.requests, ∃ other ∈ s.requests, ∃ pair ∈ s.incompatibilities,
    request.id = conflict.invocationRequestId ∧ other.id = conflict.conflictingInvocationRequestId ∧
      other.threadId = request.threadId ∧ pair.between request.guidanceKey other.guidanceKey = true ∧
      pair.reasonCode = conflict.reasonCode
  counted : ∀ key version, s.selected ((key, version), "CONFLICT_REFUSED") =
      s.requests.countP (fun request => (request.guidanceKey, request.guidanceVersion) = (key, version) ∧
        request.requestStatus = .refused) ∧
    s.selected ((key, version), "CANDIDATE_RECORDED") =
      s.requests.countP (fun request => (request.guidanceKey, request.guidanceVersion) = (key, version) ∧
        request.requestStatus ≠ .refused)

theorem between_comm {key other : String} : pair.between key other = pair.between other key := by
  unfold Incompatibility.between
  rw [Bool.or_comm]

/-- Nothing is kept apart from itself. -/
theorem between_self : pair.between key key = false := by
  have happart := pair.apart
  rw [← Bool.not_eq_true, Incompatibility.between]
  intro h
  simp only [Bool.or_self, Bool.and_eq_true, beq_iff_eq] at h
  exact happart (h.1.trans h.2.symm)

theorem mem_opposed : (request, pair) ∈ s.opposed threadId key ↔ request ∈ s.requests ∧ request.threadId = threadId ∧
    request.requestStatus.live = true ∧ pair ∈ s.incompatibilities ∧ pair.between key request.guidanceKey = true := by
  simp only [Store.opposed, List.mem_flatMap, List.mem_filter, List.mem_map, Bool.and_eq_true, beq_iff_eq,
    Prod.mk.injEq]
  constructor
  · rintro ⟨request', ⟨hrequest, hthread, hlive⟩, pair', ⟨hpair, hbetween⟩, rfl, rfl⟩
    exact ⟨hrequest, hthread, hlive, hpair, hbetween⟩
  · rintro ⟨hrequest, hthread, hlive, hpair, hbetween⟩
    exact ⟨request, ⟨hrequest, hthread, hlive⟩, pair, ⟨hpair, hbetween⟩, rfl, rfl⟩

theorem conflict_none (h : s.conflict threadId key = none) (hrequest : request ∈ s.requests)
    (hthread : request.threadId = threadId) (hlive : request.requestStatus.live = true) (hpair : pair ∈ s.incompatibilities) :
    pair.between key request.guidanceKey = false := by
  have hnil : s.opposed threadId key = [] :=
    List.perm_nil.mp (List.head?_eq_none_iff.mp h ▸ (List.perm_insertionSort _ _).symm)
  rw [← Bool.not_eq_true]
  intro hbetween
  have hmem : (request, pair) ∈ s.opposed threadId key := mem_opposed.mpr ⟨hrequest, hthread, hlive, hpair, hbetween⟩
  rw [hnil] at hmem
  cases hmem

theorem conflict_some {found : InvocationRequest × Incompatibility} (h : s.conflict threadId key = some found) :
    found.1 ∈ s.requests ∧ found.1.threadId = threadId ∧ found.1.requestStatus.live = true ∧
      found.2 ∈ s.incompatibilities ∧ found.2.between key found.1.guidanceKey = true :=
  mem_opposed.mp ((List.mem_insertionSort _).mp (List.mem_of_head? h))

/-- What a call does: nothing to a message that has a request, and one request for another. -/
theorem recordInvocation_cases (s : Store) (call : Call) :
    (∃ stored ∈ s.requests, stored.answerMessageId = call.answerMessageId ∧
      recordInvocation s call = (replay s call stored, s)) ∨
    call.answerMessageId ∉ s.requests.map InvocationRequest.answerMessageId ∧
      ∃ conflict, s.conflict call.threadId call.candidate.guidanceKey = conflict ∧
        recordInvocation s call = (.ok ⟨call.requestId, call.candidate,
          if conflict.isSome then .refused else .pendingCoordinator, conflict.map (·.2.reasonCode)⟩,
            insert s call conflict) := by
  unfold recordInvocation
  cases hget : Keyed.get InvocationRequest.answerMessageId s.requests call.answerMessageId with
  | some stored =>
    obtain ⟨hstored, hmessage⟩ := Keyed.get_some hget
    exact .inl ⟨stored, hstored, hmessage, rfl⟩
  | none => exact .inr ⟨Keyed.get_none.mp hget, _, rfl, rfl⟩

/-- What a move can do to a store. -/
theorem next_cases (h : next s a = some s') :
    s' = s ∨
    (∃ call conflict, a = .record call ∧ call.requestId ∉ s.requests.map InvocationRequest.id ∧
      call.answerMessageId ∉ s.requests.map InvocationRequest.answerMessageId ∧
      s.conflict call.threadId call.candidate.guidanceKey = conflict ∧ s' = insert s call conflict) ∨
    (∃ pair, a = .declare pair ∧ s' = { s with incompatibilities := s.incompatibilities ++ [pair] }) ∨
    (∃ id status, a = .settle id status ∧ (status = .accepted ∨ status = .expired) ∧
      s' = { s with requests := s.requests.map (settled id status) }) := by
  cases a with
  | record call =>
    obtain ⟨hfresh, h⟩ := Option.ite_none_right_eq_some.mp h
    obtain rfl := Option.some.inj h
    obtain ⟨stored, -, -, hrecord⟩ | ⟨hmessage, conflict, hconflict, hrecord⟩ := recordInvocation_cases s call
    · exact .inl (congrArg Prod.snd hrecord)
    · exact .inr (.inl ⟨call, conflict, rfl, hfresh, hmessage, hconflict, congrArg Prod.snd hrecord⟩)
  | declare pair => exact .inr (.inr (.inl ⟨pair, rfl, (Option.some.inj h).symm⟩))
  | settle id status =>
    obtain ⟨hstatus, h⟩ := Option.ite_none_right_eq_some.mp h
    exact .inr (.inr (.inr ⟨id, status, rfl, hstatus, (Option.some.inj h).symm⟩))

@[simp] theorem settled_id : (settled id status request).id = request.id := by
  unfold settled
  split <;> rfl

@[simp] theorem settled_message : (settled id status request).answerMessageId = request.answerMessageId := by
  unfold settled
  split <;> rfl

@[simp] theorem settled_thread : (settled id status request).threadId = request.threadId := by
  unfold settled
  split <;> rfl

@[simp] theorem settled_guidance : (settled id status request).guidanceKey = request.guidanceKey ∧
    (settled id status request).guidanceVersion = request.guidanceVersion ∧
      (settled id status request).guidanceHash = request.guidanceHash := by
  unfold settled
  split <;> exact ⟨rfl, rfl, rfl⟩

/-- What has been refused stays so, and nothing else is. -/
theorem settled_refused (hstatus : status = .accepted ∨ status = .expired) :
    (settled id status request).requestStatus = .refused ↔ request.requestStatus = .refused := by
  unfold settled
  split
  · rename_i h
    constructor
    · intro heq
      obtain rfl | rfl := hstatus <;> cases heq
    · intro heq
      rw [heq] at h
      exact absurd h.2 Bool.false_ne_true
  · rfl

theorem settled_live (h : (settled id status request).requestStatus.live = true) : request.requestStatus.live = true := by
  unfold settled at h
  split at h
  · rename_i hlive
    exact hlive.2
  · exact h

theorem selected_count {key key' : (String × String) × String} (hanalytics : s'.analytics = s.count key) :
    s'.selected key' = s.selected key' + if key' = key then 1 else 0 := by
  have hself := @Keyed.get_put_self _ _ _ SelectionCount.key s.analytics ⟨key.1, key.2, s.selected key + 1⟩
  have hother := @Keyed.get_put_ne _ _ _ SelectionCount.key s.analytics ⟨key.1, key.2, s.selected key + 1⟩ key'
  rw [Store.selected, hanalytics, Store.count]
  split
  · rename_i hkey
    subst hkey
    exact congrArg (fun found => (Option.map SelectionCount.selectionCount found).getD 0) hself
  · rename_i hkey
    rw [hother hkey]
    rfl

theorem fresh_kept (h : Fresh s) : Kept s := by
  obtain ⟨hrequests, hconflicts, -, hanalytics⟩ := h
  have hselected : ∀ key, s.selected key = 0 := by
    intro key
    rw [Store.selected, hanalytics]
    rfl
  refine ⟨?_, ?_, ?_, ?_, ?_, fun key version => ⟨?_, ?_⟩⟩
  · rw [hrequests]
    exact List.nodup_nil
  · rw [hrequests]
    exact List.nodup_nil
  · rw [hconflicts]
    exact List.nodup_nil
  · rw [hrequests]
    exact fun _ h => (nomatch h)
  · rw [hconflicts]
    exact fun _ h => (nomatch h)
  · rw [hselected, hrequests]
    rfl
  · rw [hselected, hrequests]
    rfl

/-- What is no request has no conflict. -/
theorem Kept.unexplained (h : Kept s) (hid : id ∉ s.requests.map InvocationRequest.id) :
    id ∉ s.conflicts.map InvocationConflict.invocationRequestId := by
  intro hmem
  obtain ⟨row, hrow, hsame⟩ := List.mem_map.mp hmem
  obtain ⟨request, hrequest, _, _, _, _, hrequestid, -⟩ := h.explained row hrow
  exact hid (hsame ▸ hrequestid ▸ List.mem_map_of_mem hrequest)

theorem Kept.insert {conflict : Option (InvocationRequest × Incompatibility)} (h : Kept s)
    (hid : call.requestId ∉ s.requests.map InvocationRequest.id)
    (hmessage : call.answerMessageId ∉ s.requests.map InvocationRequest.answerMessageId)
    (hconflict : s.conflict call.threadId call.candidate.guidanceKey = conflict) : Kept (insert s call conflict) := by
  have hconflictid := h.unexplained hid
  have hnew : (call.request (if conflict.isSome then .refused else .pendingCoordinator)).requestStatus = .refused ↔
      conflict.isSome = true := by
    cases conflict <;> simp [Call.request]
  refine ⟨?_, ?_, ?_, ?_, ?_, ?_⟩
  · rw [insert_requests, List.map_append, List.map_singleton]
    exact h.ids.append (List.nodup_singleton _) (by simpa [List.disjoint_singleton, Call.request] using hid)
  · rw [insert_requests, List.map_append, List.map_singleton]
    exact h.messages.append (List.nodup_singleton _) (by simpa [List.disjoint_singleton, Call.request] using hmessage)
  · rw [insert_conflicts, List.map_append]
    cases conflict with
    | none => simpa using h.conflictIds
    | some found => exact h.conflictIds.append (List.nodup_singleton _) (by simpa [List.disjoint_singleton] using hconflictid)
  · intro request hrequest
    obtain hold | hrequest := List.mem_append.mp hrequest
    · rw [h.refused request hold]
      have hne : request.id ≠ call.requestId := fun heq => hid (heq ▸ List.mem_map_of_mem hold)
      cases conflict <;> simp [Invocation.insert, hne]
    · obtain rfl := List.mem_singleton.mp hrequest
      rw [hnew]
      cases conflict with
      | none => simpa [Invocation.insert, Call.request] using hconflictid
      | some found => simp [Invocation.insert, Call.request]
  · intro row hrow
    obtain hold | hrow := List.mem_append.mp hrow
    · obtain ⟨request, hrequest, other, hother, pair, hpair, hrest⟩ := h.explained row hold
      exact ⟨request, List.mem_append_left _ hrequest, other, List.mem_append_left _ hother, pair, hpair, hrest⟩
    · cases conflict with
      | none => cases hrow
      | some found =>
        obtain rfl := List.mem_singleton.mp hrow
        obtain ⟨hfound, hthread, -, hpair, hbetween⟩ := conflict_some hconflict
        exact ⟨_, List.mem_append_right _ (List.mem_singleton_self _), found.1, List.mem_append_left _ hfound, found.2, hpair,
          rfl, rfl, hthread, hbetween, rfl⟩
  · intro key version
    obtain ⟨hrefused, hrecorded⟩ := h.counted key version
    have hcount : ∀ key', (Invocation.insert s call conflict).selected key' = s.selected key' +
        if key' = ((call.candidate.guidanceKey, call.candidate.version),
          if conflict.isSome then "CONFLICT_REFUSED" else "CANDIDATE_RECORDED") then 1 else 0 :=
      fun _ => selected_count rfl
    rw [hcount, hcount, hrefused, hrecorded, insert_requests, List.countP_append, List.countP_append,
      List.countP_singleton, List.countP_singleton]
    by_cases hkey : (key, version) = (call.candidate.guidanceKey, call.candidate.version)
    · rw [hkey]
      cases conflict <;> simp [Call.request]
    · have hkey' : ¬(call.candidate.guidanceKey, call.candidate.version) = (key, version) := fun h => hkey h.symm
      constructor
      · rw [if_neg (fun h => hkey (Prod.mk.inj h).1), if_neg (by simpa [Call.request] using fun h h' => absurd (Prod.ext h h') hkey')]
      · rw [if_neg (fun h => hkey (Prod.mk.inj h).1), if_neg (by simpa [Call.request] using fun h h' => absurd (Prod.ext h h') hkey')]

theorem Kept.settle (h : Kept s) (hstatus : status = .accepted ∨ status = .expired) :
    Kept { s with requests := s.requests.map (settled id status) } := by
  have hids : (s.requests.map (settled id status)).map InvocationRequest.id = s.requests.map InvocationRequest.id := by
    rw [List.map_map]
    exact List.map_congr_left (fun request _ => settled_id)
  have hmessages : (s.requests.map (settled id status)).map InvocationRequest.answerMessageId =
      s.requests.map InvocationRequest.answerMessageId := by
    rw [List.map_map]
    exact List.map_congr_left (fun request _ => settled_message)
  refine ⟨?_, ?_, h.conflictIds, ?_, ?_, ?_⟩
  · rw [hids]
    exact h.ids
  · rw [hmessages]
    exact h.messages
  · intro request hrequest
    obtain ⟨old, hold, rfl⟩ := List.mem_map.mp hrequest
    rw [settled_refused hstatus, settled_id]
    exact h.refused old hold
  · intro row hrow
    obtain ⟨request, hrequest, other, hother, pair, hpair, hid, hotherid, hthread, hbetween, hreason⟩ := h.explained row hrow
    refine ⟨settled id status request, List.mem_map_of_mem hrequest, settled id status other, List.mem_map_of_mem hother,
      pair, hpair, settled_id.trans hid, settled_id.trans hotherid, ?_, ?_, hreason⟩
    · rw [settled_thread, settled_thread, hthread]
    · rw [settled_guidance.1, settled_guidance.1, hbetween]
  · intro key version
    obtain ⟨hrefused, hrecorded⟩ := h.counted key version
    constructor
    · refine hrefused.trans ?_
      rw [List.countP_map]
      refine List.countP_congr (fun request _ => ?_)
      simp only [Function.comp_apply, settled_guidance.1, settled_guidance.2.1, settled_refused hstatus]
    · refine hrecorded.trans ?_
      rw [List.countP_map]
      refine List.countP_congr (fun request _ => ?_)
      simp only [Function.comp_apply, settled_guidance.1, settled_guidance.2.1, ne_eq, settled_refused hstatus]

theorem Kept.declare (h : Kept s) : Kept { s with incompatibilities := s.incompatibilities ++ [pair] } where
  ids := h.ids
  messages := h.messages
  conflictIds := h.conflictIds
  refused := h.refused
  explained row hrow := by
    obtain ⟨request, hrequest, other, hother, pair, hpair, hrest⟩ := h.explained row hrow
    exact ⟨request, hrequest, other, hother, pair, List.mem_append_left _ hpair, hrest⟩
  counted := h.counted

theorem Kept.next (h : Kept s) (hnext : next s a = some s') : Kept s' := by
  obtain rfl | ⟨call, conflict, -, hid, hmessage, hconflict, rfl⟩ | ⟨pair, -, rfl⟩ | ⟨id, status, -, hstatus, rfl⟩ :=
    next_cases hnext
  · exact h
  · exact h.insert hid hmessage hconflict
  · exact h.declare
  · exact h.settle hstatus

theorem kept_of_reach (h : invocations.Reach s) : Kept s :=
  h.invariant (fun _ hfresh => fresh_kept hfresh) (fun _ _ _ _ hkept hnext => hkept.next hnext)


/-- Requests made after some declarations, of which two live ones of a thread are never declared incompatible. -/
structure Apart (pairs : List Incompatibility) (old : List String) (s : Store) : Prop where
  declared : ∀ pair ∈ pairs, pair ∈ s.incompatibilities
  apart : ∀ request ∈ s.requests, ∀ other ∈ s.requests, request.threadId = other.threadId →
    request.requestStatus.live = true → other.requestStatus.live = true → request.id ∉ old →
      ∀ pair ∈ pairs, pair.between request.guidanceKey other.guidanceKey = false

theorem Apart.next {pairs : List Incompatibility} {old : List String} (h : Apart pairs old s)
    (hnext : next s a = some s') : Apart pairs old s' := by
  obtain rfl | ⟨call, conflict, -, -, -, hconflict, rfl⟩ | ⟨pair, -, rfl⟩ | ⟨id, status, -, -, rfl⟩ := next_cases hnext
  · exact h
  · refine ⟨h.declared, fun request hrequest other hother hthread hlive hlive' hold pair hpair => ?_⟩
    -- A live request that is new has found no live one which a declaration keeps apart from it.
    have hnew : ∀ {status : RequestStatus}, (if conflict.isSome then RequestStatus.refused else .pendingCoordinator) = status →
        status.live = true → ∀ row ∈ s.requests, row.threadId = call.threadId → row.requestStatus.live = true →
          pair.between call.candidate.guidanceKey row.guidanceKey = false := by
      intro status hstatus hlive row hrow hthread hlive'
      cases conflict with
      | none => exact conflict_none hconflict hrow hthread hlive' (h.declared pair hpair)
      | some found =>
        rw [← hstatus] at hlive
        cases hlive
    rw [insert_requests] at hrequest hother
    obtain hrequest | hrequest := List.mem_append.mp hrequest
    · obtain hother | hother := List.mem_append.mp hother
      · exact h.apart request hrequest other hother hthread hlive hlive' hold pair hpair
      · obtain rfl := List.mem_singleton.mp hother
        rw [between_comm]
        exact hnew rfl hlive' request hrequest hthread hlive
    · obtain rfl := List.mem_singleton.mp hrequest
      obtain hother | hother := List.mem_append.mp hother
      · exact hnew rfl hlive other hother hthread.symm hlive'
      · obtain rfl := List.mem_singleton.mp hother
        exact between_self
  · exact ⟨fun row hrow => List.mem_append_left _ (h.declared row hrow), h.apart⟩
  · refine ⟨h.declared, fun request hrequest other hother hthread hlive hlive' hold pair hpair => ?_⟩
    obtain ⟨request', hrequest', rfl⟩ := List.mem_map.mp hrequest
    obtain ⟨other', hother', rfl⟩ := List.mem_map.mp hother
    rw [settled_thread, settled_thread] at hthread
    rw [settled_id] at hold
    rw [settled_guidance.1, settled_guidance.1]
    exact h.apart request' hrequest' other' hother' hthread (settled_live hlive) (settled_live hlive') hold pair hpair

/-- Of two live requests of a thread, none made after a declaration is one which that declaration keeps apart from the other.
    What has been refused, and nothing else, has its conflict with another request of the thread and the reason declared,
    and the selections of each skill are counted as its requests are. -/
theorem incompatible_skills_never_live_together (h : invocations.Reach s) (path : invocations.Path s moves t) :
    (∀ request ∈ t.requests, ∀ other ∈ t.requests, request.threadId = other.threadId →
      request.requestStatus.live = true → other.requestStatus.live = true →
      request.id ∉ s.requests.map InvocationRequest.id →
        ∀ pair ∈ s.incompatibilities, pair.between request.guidanceKey other.guidanceKey = false) ∧
    (∀ request ∈ t.requests, request.requestStatus = .refused ↔
      ∃ conflict ∈ t.conflicts, conflict.invocationRequestId = request.id ∧ ∃ other ∈ t.requests, ∃ pair ∈ t.incompatibilities,
        other.id = conflict.conflictingInvocationRequestId ∧ other.threadId = request.threadId ∧
          pair.between request.guidanceKey other.guidanceKey = true ∧ pair.reasonCode = conflict.reasonCode) ∧
    ∀ key version, t.selected ((key, version), "CONFLICT_REFUSED") =
        t.requests.countP (fun request => (request.guidanceKey, request.guidanceVersion) = (key, version) ∧
          request.requestStatus = .refused) ∧
      t.selected ((key, version), "CANDIDATE_RECORDED") =
        t.requests.countP (fun request => (request.guidanceKey, request.guidanceVersion) = (key, version) ∧
          request.requestStatus ≠ .refused) := by
  have hkept := kept_of_reach (path.reach h)
  have hstart : Apart s.incompatibilities (s.requests.map InvocationRequest.id) s :=
    ⟨fun _ h => h, fun request hrequest _ _ _ _ _ hnew => absurd (List.mem_map_of_mem hrequest) hnew⟩
  have happart := path.keeps (fun _ _ _ happart hnext => happart.next hnext) hstart
  refine ⟨happart.apart, fun request hrequest => ?_, hkept.counted⟩
  rw [hkept.refused request hrequest]
  constructor
  · intro hmem
    obtain ⟨conflict, hconflict, hid⟩ := List.mem_map.mp hmem
    obtain ⟨request', hrequest', other, hother, pair, hpair, hid', hotherid, hthread, hbetween, hreason⟩ :=
      hkept.explained conflict hconflict
    obtain rfl := List.inj_on_of_nodup_map hkept.ids hrequest' hrequest (hid'.trans hid)
    exact ⟨conflict, hconflict, hid, other, hother, pair, hpair, hotherid, hthread, hbetween, hreason⟩
  · rintro ⟨conflict, hconflict, hid, -⟩
    exact List.mem_map.mpr ⟨conflict, hconflict, hid⟩

/-- A message whose request has answered with a result. -/
structure Answered (call : Call) (result : SkillInvocationRequest) (s : Store) (request : InvocationRequest) : Prop where
  mem : request ∈ s.requests
  id : request.id = result.requestId
  message : request.answerMessageId = call.answerMessageId
  guidance : (request.guidanceKey, request.guidanceVersion, request.guidanceHash) =
    (call.candidate.guidanceKey, call.candidate.version, call.candidate.revisionHash)
  refused : request.requestStatus = .refused ↔ result.status = .refused
  reason : result.conflictReason = if result.status = .refused then
    (Keyed.get InvocationConflict.invocationRequestId s.conflicts request.id).map InvocationConflict.reasonCode else none

theorem record_answered {result : SkillInvocationRequest} (h : Kept s)
    (hid : call.requestId ∉ s.requests.map InvocationRequest.id) (hrecord : recordInvocation s call = (.ok result, s')) :
    ∃ request, Answered call result s' request := by
  obtain ⟨stored, hstored, hmessage, hcall⟩ | ⟨-, conflict, hconflict, hcall⟩ := recordInvocation_cases s call
  · rw [hcall] at hrecord
    obtain ⟨hreplay, rfl⟩ := Prod.mk.inj hrecord
    unfold replay at hreplay
    split at hreplay
    · cases hreplay
    · rename_i hsame
      obtain rfl := Except.ok.inj hreplay
      exact ⟨stored, hstored, rfl, hmessage, not_not.mp hsame, Iff.rfl, rfl⟩
  · rw [hcall] at hrecord
    obtain ⟨hresult, rfl⟩ := Prod.mk.inj hrecord
    obtain rfl := Except.ok.inj hresult
    refine ⟨_, List.mem_append_right _ (List.mem_singleton_self _), rfl, rfl, rfl, Iff.rfl, ?_⟩
    cases conflict with
    | none => rfl
    | some found =>
      have hnone := Keyed.get_none.mpr (h.unexplained hid)
      have hself : Keyed.get InvocationConflict.invocationRequestId
          [(⟨call.requestId, found.1.id, found.2.reasonCode⟩ : InvocationConflict)] call.requestId =
          some ⟨call.requestId, found.1.id, found.2.reasonCode⟩ := by simp [Keyed.get]
      rw [insert_conflicts, Keyed.get_append]
      show _ = if RequestStatus.refused = .refused then ((Keyed.get _ s.conflicts call.requestId).or (Keyed.get _ _ call.requestId)).map
        InvocationConflict.reasonCode else none
      rw [if_pos rfl, hnone, Option.none_or]
      exact congrArg (Option.map InvocationConflict.reasonCode) hself.symm

/-- The answer stands whatever comes later. -/
theorem Answered.next {result : SkillInvocationRequest} (h : ∃ request, Answered call result s request)
    (hnext : next s a = some s') : ∃ request, Answered call result s' request := by
  obtain ⟨request, h⟩ := h
  obtain rfl | ⟨later, conflict, -, hid, -, -, rfl⟩ | ⟨pair, -, rfl⟩ | ⟨id, status, -, hstatus, rfl⟩ := next_cases hnext
  · exact ⟨request, h⟩
  · refine ⟨request, List.mem_append_left _ h.mem, h.id, h.message, h.guidance, h.refused, ?_⟩
    have hother : Keyed.get InvocationConflict.invocationRequestId
        (conflict.map fun found => (⟨later.requestId, found.1.id, found.2.reasonCode⟩ : InvocationConflict)).toList request.id =
          none := by
      refine Keyed.get_none.mpr (fun hmem => hid ?_)
      obtain ⟨row, hrow, hsame⟩ := List.mem_map.mp hmem
      cases conflict with
      | none => cases hrow
      | some found =>
        obtain rfl := List.mem_singleton.mp hrow
        rw [show later.requestId = request.id from hsame]
        exact List.mem_map_of_mem h.mem
    rw [insert_conflicts, Keyed.get_append, hother, Option.or_none]
    exact h.reason
  · exact ⟨request, h.mem, h.id, h.message, h.guidance, h.refused, h.reason⟩
  · refine ⟨settled id status request, List.mem_map_of_mem h.mem, settled_id.trans h.id, settled_message.trans h.message, ?_,
      (settled_refused hstatus).trans h.refused, ?_⟩
    · rw [settled_guidance.1, settled_guidance.2.1, settled_guidance.2.2]
      exact h.guidance
    · rw [settled_id]
      exact h.reason

/-- A message has one request for good: whoever asks again for the same revision is told of that request, with the refusal
    and the reason of the first answer, whoever asks for another one is turned away, and neither writes anything. -/
theorem answer_message_has_one_request {result : SkillInvocationRequest} (h : invocations.Reach s)
    (hid : call.requestId ∉ s.requests.map InvocationRequest.id) (hrecord : recordInvocation s call = (.ok result, s'))
    (path : invocations.Path s' moves t) (again : Call) (hsame : again.answerMessageId = call.answerMessageId) :
    (∃! request, request ∈ t.requests ∧ request.answerMessageId = call.answerMessageId) ∧
    ∃ status, (status = .refused ↔ result.status = .refused) ∧
      recordInvocation t again =
        (if (again.candidate.guidanceKey, again.candidate.version, again.candidate.revisionHash) =
            (call.candidate.guidanceKey, call.candidate.version, call.candidate.revisionHash) then
          .ok ⟨result.requestId, again.candidate, status, result.conflictReason⟩
        else .error "GUIDANCE_INVOCATION_REPLAY_CONFLICT", t) := by
  have hreach : invocations.Reach s' := by
    refine h.step (a := .record call) ?_
    show next s (.record call) = some s'
    rw [next, if_pos hid, hrecord]
  have hkept := kept_of_reach (path.reach hreach)
  obtain ⟨request, hanswered⟩ := path.keeps (P := fun u => ∃ request, Answered call result u request)
    (fun _ _ _ hanswered hnext => Answered.next hanswered hnext) (record_answered (kept_of_reach h) hid hrecord)
  refine ⟨⟨request, ⟨hanswered.mem, hanswered.message⟩, fun other hother =>
    List.inj_on_of_nodup_map hkept.messages hother.1 hanswered.mem (hother.2.trans hanswered.message.symm)⟩,
    request.requestStatus, hanswered.refused, ?_⟩
  have hget := Keyed.get_of_mem hkept.messages hanswered.mem
  rw [hanswered.message, ← hsame] at hget
  rw [recordInvocation, hget]
  refine Prod.ext ?_ rfl
  show replay t again request = _
  rw [replay, hanswered.guidance]
  by_cases hguidance : (again.candidate.guidanceKey, again.candidate.version, again.candidate.revisionHash) =
      (call.candidate.guidanceKey, call.candidate.version, call.candidate.revisionHash)
  · rw [if_pos hguidance, if_neg (not_not.mpr hguidance.symm), hanswered.reason, hanswered.id]
    by_cases hrefused : result.status = .refused
    · rw [if_pos hrefused, if_pos (hanswered.refused.mpr hrefused)]
    · rw [if_neg hrefused, if_neg (fun h => hrefused (hanswered.refused.mp h))]
  · rw [if_neg hguidance, if_pos (fun h => hguidance h.symm)]


def first : Call := ⟨"gir_1", 0, "thr_1", "msg_1", ⟨none, "a", "why"⟩, ⟨"ops.a", "1", "sha256:a", "ops"⟩⟩

def second : Call := ⟨"gir_2", 1, "thr_1", "msg_2", ⟨none, "b", ""⟩, ⟨"ops.b", "1", "sha256:b", "ops"⟩⟩

def firstAgain : Call := ⟨"gir_3", 2, "thr_1", "msg_1", ⟨none, "a", "why"⟩, ⟨"ops.a", "1", "sha256:a", "ops"⟩⟩

/-- Two skills are declared incompatible before either is asked for. -/
def declared : Store := ⟨[⟨"ops.b", "ops.a", "AUTHOR_DECLARED_INCOMPATIBLE", by decide⟩], [], [], [], []⟩

theorem incompatible_skills_never_live_together_second : ∃ t,
    invocations.Path declared [.record first, .record second] t ∧
      t.requests.map InvocationRequest.requestStatus = [.pendingCoordinator, .refused] ∧
      ∀ request ∈ t.requests, ∀ other ∈ t.requests, request.threadId = other.threadId →
        request.requestStatus.live = true → other.requestStatus.live = true →
          ∀ pair ∈ declared.incompatibilities, pair.between request.guidanceKey other.guidanceKey = false := by
  obtain ⟨t, path, hrequests⟩ := Machine.exists_path (P := fun t =>
    t.requests.map InvocationRequest.requestStatus == [.pendingCoordinator, .refused])
    (by decide : (Machine.runFn next declared [.record first, .record second]).any _ = true)
  have hapart := (incompatible_skills_never_live_together (.start ⟨rfl, rfl, rfl, rfl⟩) path).1
  exact ⟨t, path, by simpa using hrequests, fun request hrequest other hother hthread hlive hlive' =>
    hapart request hrequest other hother hthread hlive hlive' List.not_mem_nil⟩

theorem answer_message_has_one_request_first : ∃ status,
    recordInvocation (recordInvocation declared first).2 firstAgain =
      (.ok ⟨"gir_1", first.candidate, status, none⟩, (recordInvocation declared first).2) := by
  obtain ⟨-, status, -, h⟩ := answer_message_has_one_request (.start ⟨rfl, rfl, rfl, rfl⟩ : invocations.Reach declared)
    (List.not_mem_nil : first.requestId ∉ _) rfl .nil firstAgain rfl
  exact ⟨status, h.trans (congrArg (fun answer => (answer, (recordInvocation declared first).2)) (if_pos rfl))⟩

end Solvan.Skills.Invocation
