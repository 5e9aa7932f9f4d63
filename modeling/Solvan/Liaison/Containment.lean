import Solvan.Liaison.TruthGate
import Solvan.Liaison.Turn

/-! No record outside the grant tells on what a turn delivers. -/
namespace Solvan.Liaison.Turn
open Solvan.Base

/-- Another store that cannot be told apart within the grant: the grant covers the same records, these hold
the same, and searches among them find the same. -/
structure TurnSettings.AlikeWithin (env : TurnSettings) (store : ProjectionStore) : Prop where
  authorized : ∀ record, record ∈ env.resolveAuthorizedRecords ↔
    record ∈ (env.over store).resolveAuthorizedRecords
  contents : ∀ record ∈ env.resolveAuthorizedRecords,
    env.store.read record.1 record.2 = store.read record.1 record.2
  found : ∀ query, env.draftingAnswer (.search query) = (env.over store).draftingAnswer (.search query)

/-- A session without the set that its verifying reader keeps. -/
def Session.bare (s : Session) : Session := { s with authorized := none }

/-- Sessions over the two stores that differ in nothing but the order of the set they keep. -/
structure SameReads (env : TurnSettings) (store : ProjectionStore) (s t : Session) : Prop where
  bare : s.bare = t.bare
  left : s.Pinned env.toSurroundings
  right : t.Pinned (env.over store).toSurroundings

section Stores

variable {env : TurnSettings} {store : ProjectionStore} {s t : Session}

theorem contained_alike (h : env.AlikeWithin store) : env.contained = (env.over store).contained := by
  funext recordType recordId
  unfold Surroundings.contained Surroundings.readWithin
  by_cases hcovered : (recordType, recordId) ∈ env.resolveAuthorizedRecords
  · rw [if_pos (by simpa using hcovered), if_pos (by simpa using (h.authorized _).mp hcovered)]
    exact h.contents _ hcovered
  · rw [if_neg (by simpa using hcovered),
      if_neg (by simpa using fun hother => hcovered ((h.authorized _).mpr hother))]

/-- The drafter is given the same reader. -/
theorem granted_alike (h : env.AlikeWithin store) : env.granted = (env.over store).granted := by
  have hanswer : env.draftingAnswer = (env.over store).draftingAnswer := by
    funext call
    cases call with
    | read recordType recordId => exact congrFun (congrFun (contained_alike h) recordType) recordId
    | search query => exact h.found query
  funext call s
  unfold Surroundings.granted
  rw [hanswer]
  rfl

/-- Drafting does not touch the set of the gate. -/
theorem drafting_fresh {env : Surroundings} {α : Type} {p : DraftProgram α} {result : Except String α}
    (h : p.run env.granted .start = (result, s)) : s.authorized = none := by
  have hkept := Program.run_keeps (I := fun s : Session => s.authorized = none) (h := env.granted) (p := p)
    (s := .start) (fun call s hs => by
      unfold Surroundings.granted
      split <;> exact hs) rfl
  rwa [h] at hkept

theorem pinned_of_fresh {env : Surroundings} (h : s.authorized = none) : s.Pinned env := by
  intro records hrecords
  rw [h] at hrecords
  cases hrecords

/-- The gate is answered alike, whatever order the kept sets have. -/
theorem verification_alike (h : env.AlikeWithin store) (call : Gating) (hsame : SameReads env store s t) :
    (env.forVerification call s).1 = ((env.over store).forVerification call t).1 ∧
      SameReads env store (env.forVerification call s).2 ((env.over store).forVerification call t).2 := by
  obtain ⟨hbare, hleft, hright⟩ := hsame
  have hleft' := verification_pinned call hleft
  have hright' := verification_pinned call hright
  obtain ⟨authorizations, usage, guard, looped, authorized, defects⟩ := s
  obtain ⟨authorizations', usage', guard', looped', authorized', defects'⟩ := t
  simp only [Session.bare, Session.mk.injEq, true_and] at hbare
  obtain ⟨rfl, rfl, rfl, rfl, rfl⟩ := hbare
  cases call with
  | read recordType recordId =>
    simp only [Surroundings.forVerification] at hleft' hright' ⊢
    have hcomplaint : ∀ authorized, env.complaint ⟨authorizations, usage, guard, looped, authorized, defects⟩
        (.read recordType recordId) = (env.over store).complaint
          ⟨authorizations, usage, guard, looped, authorized', defects⟩ (.read recordType recordId) :=
      fun _ => rfl
    rw [hcomplaint] at hleft' ⊢
    cases hanswer : (env.over store).complaint ⟨authorizations, usage, guard, looped, authorized', defects⟩
        (.read recordType recordId) with
    | some message =>
      rw [hanswer] at hleft' hright'
      exact ⟨rfl, rfl, hleft', hright'⟩
    | none =>
      rw [hanswer] at hleft' hright'
      refine ⟨congrArg Except.ok ?_, rfl, hleft', hright'⟩
      have hkept := hleft.getD
      have hkept' := hright.getD
      dsimp only at hkept hkept' ⊢
      rw [hkept, hkept']
      exact congrFun (congrFun (contained_alike h) recordType) recordId
  | unresolvedCitations count => exact ⟨rfl, rfl, hleft', hright'⟩
  | unknownTemplate => exact ⟨rfl, rfl, hleft', hright'⟩
  | record outcome reason => exact ⟨rfl, rfl, hleft', hright'⟩

theorem SameReads.usage (h : SameReads env store s t) : s.usage = t.usage := by
  have hbare := congrArg Session.usage h.bare
  exact hbare

theorem SameReads.defects (h : SameReads env store s t) : s.defects = t.defects := by
  have hbare := congrArg Session.defects h.bare
  exact hbare

theorem gated_alike (h : env.AlikeWithin store) (composition : Composition) (hfresh : s.authorized = none) :
    gated env composition s = gated (env.over store) composition s := by
  obtain ⟨hstop, hparts, hsame⟩ := gate_related (fun call _ _ hsame => verification_alike h call hsame)
    composition.drafts [] (SameReads.mk rfl (pinned_of_fresh hfresh) (pinned_of_fresh hfresh))
  unfold gated
  generalize gate env composition.drafts [] s = left at hstop hparts hsame ⊢
  generalize gate (env.over store) composition.drafts [] s = right at hstop hparts hsame ⊢
  obtain ⟨stop, parts, s'⟩ := left
  obtain ⟨stop', parts', t'⟩ := right
  obtain rfl : stop = stop' := hstop
  obtain rfl : parts = parts' := hparts
  have hended : ∀ state parts, ended env state parts s' = ended (env.over store) state parts t' := by
    intro state parts
    unfold ended
    rw [hsame.usage, hsame.defects]
    rfl
  match stop with
  | some (.raised message) => rfl
  | some (.grantError message) =>
    dsimp only
    rw [hended]
    rfl
  | none =>
    dsimp only
    rw [hended]
    rfl

/-- What is made of a composition depends on the records of the grant alone. -/
theorem assembled_alike (h : env.AlikeWithin store) (question : String) (anchor : Anchor)
    (composition : Composition) (hfresh : s.authorized = none) :
    assembled env question anchor composition s = assembled (env.over store) question anchor composition s := by
  have hparked : parkedOrGated env composition s = parkedOrGated (env.over store) composition s := by
    unfold parkedOrGated
    cases composition.parkedRequest with
    | none => exact gated_alike h composition hfresh
    | some payload => rfl
  have hreplied : replied env question anchor composition s =
      replied (env.over store) question anchor composition s := by
    unfold replied
    cases composition.replyIntent with
    | none => exact hparked
    | some intent =>
      dsimp only
      rw [hparked]
      rfl
  unfold assembled
  rw [hreplied]
  rfl

/-- So does a whole turn, whoever composes it. -/
theorem runTurn_alike (h : env.AlikeWithin store) (composer : Composer) (question : String) (anchor : Anchor)
    (providerInput : Option String) :
    runTurn env composer question anchor providerInput =
      runTurn (env.over store) composer question anchor providerInput := by
  unfold runTurn
  rw [← granted_alike h]
  cases hrun : (composer question anchor providerInput).run env.granted .start with
  | mk result s =>
    cases result with
    | error message => rfl
    | ok composition =>
      have hfresh : s.authorized = none := drafting_fresh hrun
      exact @assembled_alike env store (s.charged composition) h question anchor composition hfresh

/-- Stores that agree on the records of the grant give the same turns: not even the whole result tells them
apart, and no drafter can change that. -/
theorem turn_contained (h : env.AlikeWithin store) (question : String) (anchor : Anchor)
    (providerInput : Option String) :
    runTurn env (enumeratedComposer env.platform) question anchor providerInput =
        runTurn (env.over store) (enumeratedComposer env.platform) question anchor providerInput ∧
      ∀ composer, runTurn env composer question anchor providerInput =
        runTurn (env.over store) composer question anchor providerInput :=
  ⟨runTurn_alike h _ question anchor providerInput,
    fun composer => runTurn_alike h composer question anchor providerInput⟩

end Stores

/-- A language that knows ASCII, with no configuration. -/
def asciiPlatform : Platform where
  lang := asciiLanguage
  lower := fun s => String.ofList (s.toList.map Char.toLower)
  int := fun _ => none
  environ := fun _ => none
  recordsDigest := fun _ => "sha256:"
  newIdentifier := fun kind => kind ++ "_1"

/-- A store of a few records, of which an anchor reaches itself. -/
def storeOf (records : List (RecordKey × Record)) : ProjectionStore where
  read := fun recordType recordId => records.lookup (recordType, recordId)
  authorizedRecordsForAnchor := some (fun anchor =>
    match anchor with
    | .record record => [record]
    | _ => records.map Prod.fst)
  authorizedRecords := none
  searchRecords := none

/-- A turn about an incident under a grant that has not expired. -/
def incidentTurn (records : List (RecordKey × Record)) : TurnSettings where
  platform := asciiPlatform
  store := storeOf records
  grant := ⟨"ada", "incident:INC-1", ["read_projection", "search_records"], 600, "", .projectionApi⟩
  clock := fun _ => 0
  registry := liaisonRegistry
  budget := none
  classification := "INTERNAL"

def mitigated : RecordKey × Record :=
  (("incident", "INC-1"), [("id", .str "INC-1"), ("state", .str "MITIGATED")])

def elsewhere : RecordKey × Record :=
  (("incident", "INC-2"), [("id", .str "INC-1"), ("state", .str "CLOSED")])

theorem incident_label : anchorFromLabel "incident:INC-1" = some (.record ("incident", "INC-1")) := by
  decide +kernel

theorem incidentTurn_authorized (records : List (RecordKey × Record)) :
    (incidentTurn records).resolveAuthorizedRecords = [("incident", "INC-1")] := by
  have hrecords : (incidentTurn records).anchorRecords = some [("incident", "INC-1")] := by
    unfold Surroundings.anchorRecords
    dsimp only [incidentTurn]
    rw [incident_label]
    rfl
  unfold Surroundings.resolveAuthorizedRecords
  rw [hrecords]
  rfl

/-- Another incident in the store changes nothing. -/
theorem neighbour_contained :
    runTurn (incidentTurn [mitigated]) (enumeratedComposer asciiPlatform) "Is it closed?"
        (.record ("incident", "INC-1")) none =
      runTurn (incidentTurn [mitigated, elsewhere]) (enumeratedComposer asciiPlatform) "Is it closed?"
        (.record ("incident", "INC-1")) none := by
  have halike : (incidentTurn [mitigated]).AlikeWithin (storeOf [mitigated, elsewhere]) := by
    refine ⟨fun record => Iff.rfl, fun record hrecord => ?_, fun query => rfl⟩
    rw [incidentTurn_authorized, List.mem_singleton] at hrecord
    subst hrecord
    rfl
  exact (turn_contained halike "Is it closed?" (.record ("incident", "INC-1")) none).1

end Solvan.Liaison.Turn
