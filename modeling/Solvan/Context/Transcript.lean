import Mathlib.Data.List.Sort
import Solvan.Base.Checks
import Solvan.Base.Lines
import Solvan.Domain.Values

/-! The transcript of a conversation: what of it may be looked at when a turn is prepared. -/
namespace Solvan.Context

open Checks Base

/-- `_RANK` -/
def rank : String → Option Int
  | "PUBLIC" => some 0
  | "INTERNAL" => some 1
  | "CONFIDENTIAL" => some 2
  | _ => none

/-- `_RANK.get(classification, 99) <= _RANK.get(ceiling, -1)` -/
def within (classification ceiling : String) : Bool :=
  decide ((rank classification).getD 99 ≤ (rank ceiling).getD (-1))

/-- `^sha256:[0-9a-f]{64}$` -/
def isSha256 (text : String) : Bool :=
  text.toList.take 7 == "sha256:".toList && text.length == 71 &&
    (text.toList.drop 7).all (fun c => c.isDigit || "abcdef".toList.contains c)

/-- `bool(text.strip())` -/
def present (text : String) : Bool := !(strip text.toList).isEmpty

structure PartFields where
  id : String
  kind : String
  digest : String
  classification : String
  visible : Bool := true
  accessVerdictRef : Option String := none
  text : String := ""
deriving DecidableEq

/-- `TranscriptPart.__post_init__` -/
def PartFields.checks (part : PartFields) : List (Bool × String) :=
  [(present part.id, "transcript part id must be non-empty"),
    (present part.kind, "transcript part kind must be non-empty"),
    (isSha256 part.digest, "transcript part digest must be a sha256 digest"),
    ((rank part.classification).isSome, "transcript part classification is not supported"),
    (!part.visible || part.accessVerdictRef.any present,
      "visible transcript part requires an access verdict")]

structure TranscriptPart extends PartFields where
  valid : firstFailure toPartFields.checks = .ok ()
deriving DecidableEq

structure TranscriptMessage where
  id : String
  role : String
  turnState : String
  streamPosition : Int
  classification : String
  parts : List TranscriptPart := []
  inReplyToMessageId : Option String := none
  redactionComplete : Bool := true
  visible : Bool := true
deriving DecidableEq

structure CompactionFields where
  partId : String
  digest : String
  sourceMessageIds : List String
  classification : String
  accessVerdictRef : String
  visible : Bool := true
  tokenCount : Nat := 0
  createdAt : Option Datetime := none
deriving DecidableEq

/-- `CompactionCandidate.__post_init__`; a token count is not negative. -/
def CompactionFields.checks (item : CompactionFields) : List (Bool × String) :=
  [(present item.partId, "compaction part_id must be non-empty"),
    (isSha256 item.digest, "compaction digest must be a sha256 digest"),
    (!item.sourceMessageIds.isEmpty && item.sourceMessageIds.all present,
      "compaction source_message_ids must be non-empty"),
    (decide item.sourceMessageIds.Nodup, "compaction source_message_ids must be unique"),
    ((rank item.classification).isSome, "compaction classification is not supported"),
    (present item.accessVerdictRef, "compaction access_verdict_ref must be non-empty"),
    (item.createdAt.all Datetime.aware, "compaction created_at must be timezone-aware")]

structure CompactionCandidate extends CompactionFields where
  valid : firstFailure toCompactionFields.checks = .ok ()
deriving DecidableEq

structure ReferenceFields where
  kind : String
  ref : String
  digest : String
  classification : String := "INTERNAL"
  accessVerdictRef : String := "reference-access"
  authoritative : Bool := false
deriving DecidableEq

/-- `ReferenceCandidate.__post_init__` -/
def ReferenceFields.checks (reference : ReferenceFields) : List (Bool × String) :=
  [(present reference.kind, "reference kind must be non-empty"),
    (present reference.ref, "reference ref must be non-empty"),
    (isSha256 reference.digest, "reference digest must be a sha256 digest"),
    ((rank reference.classification).isSome, "reference classification is not supported"),
    (present reference.accessVerdictRef, "reference access verdict must be non-empty")]

structure ReferenceCandidate extends ReferenceFields where
  valid : firstFailure toReferenceFields.checks = .ok ()
deriving DecidableEq

/-- A question and its answer. -/
abbrev Turn := TranscriptMessage × TranscriptMessage

/-- The messages of a turn. -/
def Turn.messages (turn : Turn) : List TranscriptMessage := [turn.1, turn.2]

/-- The IDs of the messages of a turn. -/
def Turn.ids (turn : Turn) : List String := [turn.1.id, turn.2.id]

/-- `by_id.get(...)`: of the messages with one ID, the last. -/
def messageById (messages : List TranscriptMessage) (id : String) : Option TranscriptMessage :=
  messages.reverse.find? (fun message => message.id == id)

/-- One turn of the loop of `select_complete_turns`. -/
def completeTurn (messages : List TranscriptMessage) (currentUserId classificationCeiling : String)
    (answer : TranscriptMessage) : Option Turn :=
  if answer.id = currentUserId ∨ answer.role ≠ "LIAISON" then none
  else if answer.turnState ≠ "COMPLETED" ∨ answer.visible = false then none
  else
    match answer.inReplyToMessageId.bind (messageById messages) with
    | none => none
    | some user =>
      if user.id = currentUserId ∨ user.role ≠ "USER" then none
      else if (user.parts ++ answer.parts).any (fun part => !part.visible) then none
      else if user.turnState ≠ "COMPLETED" ∨ user.visible = false ∨ user.redactionComplete = false ∨
          answer.redactionComplete = false then none
      -- The parts are looked at a second time, for the same.
      else if !(user.parts ++ answer.parts).all (fun part => part.visible) then none
      else if !within user.classification classificationCeiling then none
      else if !within answer.classification classificationCeiling then none
      else some (user, answer)

def selectCompleteTurns (messages : List TranscriptMessage)
    (currentUserId classificationCeiling : String) : List Turn :=
  (messages.insertionSort (fun a b => a.streamPosition ≤ b.streamPosition)).filterMap
    (completeTurn messages currentUserId classificationCeiling)

/-- When a compaction was made; one that does not say is older than any. -/
def CompactionCandidate.moment (item : CompactionCandidate) : Int :=
  (item.createdAt.map Datetime.instant).getD (-epoch)

/-- The newest of the compactions, of equals the first. -/
def newestCompaction (candidates : List CompactionCandidate) : Option CompactionCandidate :=
  candidates.foldl (fun best item =>
    match best with
    | none => some item
    | some best => if best.moment < item.moment then some item else some best) none

def selectCompaction (candidates : List CompactionCandidate) (sourceIds : List String)
    (classificationCeiling : String) : Option CompactionCandidate :=
  newestCompaction (candidates.filter (fun item =>
    item.visible && item.sourceMessageIds.all sourceIds.contains &&
      within item.classification classificationCeiling))

/-- What makes a turn complete for a reader with a ceiling. -/
structure Complete (currentUserId classificationCeiling : String) (turn : Turn) : Prop where
  roles : turn.1.role = "USER" ∧ turn.2.role = "LIAISON"
  completed : turn.1.turnState = "COMPLETED" ∧ turn.2.turnState = "COMPLETED"
  past : turn.1.id ≠ currentUserId ∧ turn.2.id ≠ currentUserId
  answered : turn.2.inReplyToMessageId = some turn.1.id
  visible : turn.1.visible = true ∧ turn.2.visible = true
  redacted : turn.1.redactionComplete = true ∧ turn.2.redactionComplete = true
  classified : within turn.1.classification classificationCeiling = true ∧
    within turn.2.classification classificationCeiling = true
  parts : ∀ part ∈ turn.1.parts ++ turn.2.parts, part.visible = true

variable {messages : List TranscriptMessage} {currentUserId ceiling : String}
  {answer : TranscriptMessage} {turn : Turn} {candidates : List CompactionCandidate}
  {item : CompactionCandidate}

theorem messageById_some {id : String} {message : TranscriptMessage}
    (h : messageById messages id = some message) : message ∈ messages ∧ message.id = id :=
  ⟨List.mem_reverse.mp (List.mem_of_find?_eq_some h), by simpa using List.find?_some h⟩

theorem completeTurn_some (h : completeTurn messages currentUserId ceiling answer = some turn) :
    turn.2 = answer ∧ turn.1 ∈ messages ∧ Complete currentUserId ceiling turn := by
  unfold completeTurn at h
  split at h
  · cases h
  · rename_i hanswer
    split at h
    · cases h
    · rename_i hstate
      cases hreply : answer.inReplyToMessageId with
      | none =>
        rw [hreply] at h
        cases h
      | some replyTo =>
        rw [hreply, Option.bind_some] at h
        cases hfind : messageById messages replyTo with
        | none =>
          rw [hfind] at h
          cases h
        | some user =>
          obtain ⟨hmem, hid⟩ := messageById_some hfind
          rw [hfind] at h
          simp only [Bool.not_eq_true', Bool.eq_false_iff, ne_eq] at h
          split at h
          · cases h
          · rename_i huser
            split at h
            · cases h
            · rename_i hparts
              split at h
              · cases h
              · rename_i hcomplete
                split at h
                · cases h
                · split at h
                  · cases h
                  · rename_i hquestion
                    split at h
                    · cases h
                    · rename_i hreplied
                      cases h
                      push Not at hanswer hstate huser hcomplete hquestion hreplied
                      rw [List.any_eq_true] at hparts
                      push Not at hparts
                      refine ⟨rfl, hmem, ⟨huser.2, hanswer.2⟩, ⟨hcomplete.1, hstate.1⟩,
                        ⟨huser.1, hanswer.1⟩, by rw [hreply, hid], ?_, ?_, ⟨hquestion, hreplied⟩, ?_⟩
                      · exact ⟨by simpa using hcomplete.2.1, by simpa using hstate.2⟩
                      · exact ⟨by simpa using hcomplete.2.2.1, by simpa using hcomplete.2.2.2⟩
                      · intro part hpart
                        simpa using hparts part hpart

theorem mem_selectCompleteTurns (h : turn ∈ selectCompleteTurns messages currentUserId ceiling) :
    turn.1 ∈ messages ∧ turn.2 ∈ messages ∧ Complete currentUserId ceiling turn := by
  obtain ⟨answer, hanswer, hturn⟩ := List.mem_filterMap.mp h
  obtain ⟨rfl, huser, complete⟩ := completeTurn_some hturn
  exact ⟨huser, (List.mem_insertionSort _).mp hanswer, complete⟩

/-- The turns stand in the order in which they were answered. -/
theorem selectCompleteTurns_ordered (messages : List TranscriptMessage) (currentUserId ceiling : String) :
    (selectCompleteTurns messages currentUserId ceiling).Pairwise
      (fun a b => a.2.streamPosition ≤ b.2.streamPosition) := by
  have hsorted := List.pairwise_insertionSort
    (fun a b : TranscriptMessage => a.streamPosition ≤ b.streamPosition) messages
  refine List.Pairwise.filterMap _ (fun answer answer' hle turn hturn turn' hturn' => ?_) hsorted
  rw [(completeTurn_some hturn).1, (completeTurn_some hturn').1]
  exact hle

theorem newestCompaction_mem (h : newestCompaction candidates = some item) : item ∈ candidates := by
  have hloop : ∀ (items : List CompactionCandidate) (best : Option CompactionCandidate),
      items.foldl (fun best item =>
        match best with
        | none => some item
        | some best => if best.moment < item.moment then some item else some best) best = some item →
      best = some item ∨ item ∈ items := by
    intro items
    induction items with
    | nil => exact fun best h => .inl h
    | cons first rest ih =>
      intro best h
      rcases ih _ h with hbest | hrest
      · cases best with
        | none =>
          cases hbest
          exact .inr List.mem_cons_self
        | some best =>
          simp only at hbest
          split at hbest
          · cases hbest
            exact .inr List.mem_cons_self
          · exact .inl hbest
      · exact .inr (List.mem_cons_of_mem _ hrest)
  rcases hloop candidates none h with hnone | hmem
  · cases hnone
  · exact hmem

/-- A compaction that is selected may be seen and stands for none but the messages given. -/
theorem selectCompaction_some {sourceIds : List String}
    (h : selectCompaction candidates sourceIds ceiling = some item) :
    item.visible = true ∧ (∀ id ∈ item.sourceMessageIds, id ∈ sourceIds) ∧
      within item.classification ceiling = true := by
  have hkept := (List.mem_filter.mp (newestCompaction_mem h)).2
  simpa [and_assoc] using hkept

theorem CompactionCandidate.sources_nonempty (item : CompactionCandidate) :
    ∃ id, id ∈ item.sourceMessageIds := by
  have hsources := firstFailure_ok.mp item.valid _ (List.mem_cons_of_mem _ (List.mem_cons_of_mem _
    List.mem_cons_self))
  simp only [Bool.and_eq_true, Bool.not_eq_true', List.isEmpty_eq_false_iff] at hsources
  exact List.exists_mem_of_ne_nil _ hsources.1

end Solvan.Context
