import Solvan.Liaison.Delivered
import Solvan.Liaison.Loops

/-! Whether the deterministic answers still arrive when a planner fails, or plans. -/
namespace Solvan.Liaison.Turn
open Solvan.Base

/-- The two turns deliver the same parts, escalation and suggestions, or raise the same error. -/
def SameDelivery (left right : Except String TurnResult) : Prop :=
  left.map (fun turn => (turn.parts, turn.escalation, turn.suggested)) =
    right.map (fun turn => (turn.parts, turn.escalation, turn.suggested))

/-- What a deterministic answer needs is not there: the incident of the anchor is not readable, or without one
no question that is answered across records finds an incident. -/
def Missing (env : TurnSettings) (question : String) (anchor : Anchor) : Prop :=
  match incidentOf anchor with
  | some incidentId => env.contained "incident" incidentId = none
  | none => ∀ matched, matchQuestion env.platform question none = some matched →
      matched.answersAcrossRecords = true →
        rowIds env.platform.lang (env.draftingAnswer (.search (incidentSearch anchor))) = []

/-- The deterministic turn comes to its gate: what it has to read is let through, and within the ceilings. -/
def Reaches (env : TurnSettings) (question : String) (anchor : Anchor) : Prop :=
  reads env.platform question anchor = true →
    env.complaint .start (anchorCall anchor).arguments = none ∧ 0 < env.ceilings.toolCalls

section Runs

variable {env : TurnSettings} {question : String} {anchor : Anchor} {providerInput : Option String}

/-- The run of the composer is one read at most. -/
theorem enumerated_run :
    (∃ message, (enumeratedComposer env.platform question anchor providerInput).run env.granted .start =
        (.error message, Session.start.asked) ∧ reads env.platform question anchor = true ∧
        env.complaint .start (anchorCall anchor).arguments = some message) ∨
      (enumeratedComposer env.platform question anchor providerInput).run env.granted .start =
          (.ok ((enumeratedComposer env.platform question anchor providerInput).value env.draftingAnswer),
            if reads env.platform question anchor then Session.start.drafted (anchorCall anchor).arguments
            else .start) ∧
        (reads env.platform question anchor = true →
          env.complaint .start (anchorCall anchor).arguments = none) := by
  obtain ⟨hreads, composition, hform⟩ | ⟨hreads, compose, hform⟩ :=
    @enumerated_form env.platform question providerInput anchor
  · rw [hform, hreads]
    exact .inr ⟨rfl, nofun⟩
  · rw [hform, hreads]
    cases hcomplaint : env.complaint .start (anchorCall anchor).arguments with
    | some message =>
      refine .inl ⟨message, ?_, rfl, rfl⟩
      simp only [Program.run, Surroundings.granted, hcomplaint]
    | none =>
      refine .inr ⟨?_, fun _ => rfl⟩
      simp only [Program.run, Surroundings.granted, hcomplaint]
      rfl

theorem composeRecord_hold {env : Platform} {incidentId : String} (record : Record) :
    (composeRecord env question incidentId record).hold = none := by
  unfold composeRecord
  split
  · rfl
  · split <;> rfl

/-- A composition holds back if and only if what it needs is missing. -/
theorem hold_iff :
    ((enumeratedComposer env.platform question anchor providerInput).value env.draftingAnswer).hold.isSome = true ↔
      Missing env question anchor := by
  unfold Missing
  cases hincident : incidentOf anchor with
  | some incidentId =>
    obtain rfl := incidentOf_some hincident
    rw [enumerated_value_incident]
    show (composeAbout _ _ _ (env.contained "incident" incidentId)).hold.isSome = true ↔
      env.contained "incident" incidentId = none
    cases env.contained "incident" incidentId with
    | none => exact ⟨fun _ => rfl, fun _ => rfl⟩
    | some record =>
      rw [composeAbout, composeRecord_hold]
      simp
  | none =>
    unfold enumeratedComposer composeAcrossRecords
    rw [hincident]
    dsimp only
    cases matchQuestion env.platform question none with
    | none => exact ⟨fun _ => nofun, fun _ => rfl⟩
    | some matched =>
      dsimp only
      cases hacross : matched.answersAcrossRecords with
      | false =>
        refine ⟨fun _ found hfound hnot => ?_, fun _ => rfl⟩
        obtain rfl := Option.some.inj hfound
        rw [hacross] at hnot
        cases hnot
      | true =>
        show (composeIncidents matched (rowIds env.platform.lang
          (env.draftingAnswer (.search (incidentSearch anchor))))).hold.isSome = true ↔ _
        have hrows : (∀ found, some matched = some found → found.answersAcrossRecords = true →
            rowIds env.platform.lang (env.draftingAnswer (.search (incidentSearch anchor))) = []) ↔
            rowIds env.platform.lang (env.draftingAnswer (.search (incidentSearch anchor))) = [] :=
          ⟨fun h => h matched rfl hacross, fun h _ _ _ => h⟩
        rw [hrows]
        unfold composeIncidents
        cases rowIds env.platform.lang (env.draftingAnswer (.search (incidentSearch anchor))) with
        | nil => simp
        | cons first rest => simp

/-- A composition that holds back says nothing else. -/
theorem held_silent {oracle : (call : Drafting) → call.Answer}
    (h : ((enumeratedComposer env.platform question anchor providerInput).value oracle).hold.isSome = true) :
    ((enumeratedComposer env.platform question anchor providerInput).value oracle).drafts = [] ∧
      ((enumeratedComposer env.platform question anchor providerInput).value oracle).escalation = none := by
  cases hincident : incidentOf anchor with
  | some incidentId =>
    obtain rfl := incidentOf_some hincident
    rw [enumerated_value_incident] at h ⊢
    cases hread : oracle (.read "incident" incidentId) with
    | none => exact ⟨rfl, rfl⟩
    | some record =>
      rw [hread, composeAbout, composeRecord_hold] at h
      cases h
  | none =>
    unfold enumeratedComposer composeAcrossRecords at h ⊢
    rw [hincident] at h ⊢
    dsimp only at h ⊢
    split at h
    · exact ⟨rfl, rfl⟩
    · rename_i matched hmatched
      split at h
      · rename_i hacross
        rw [if_pos hacross]
        exact ⟨rfl, rfl⟩
      · rename_i hacross
        rw [if_neg hacross]
        change (composeIncidents matched _).hold.isSome = true at h
        change (composeIncidents matched _).drafts = [] ∧ (composeIncidents matched _).escalation = none
        unfold composeIncidents at h ⊢
        split at h
        · rename_i hempty
          rw [if_pos hempty]
          exact ⟨rfl, rfl⟩
        · cases h

end Runs

section Failure

variable {env : TurnSettings} {question : String} {anchor : Anchor} {providerInput : Option String}
  {composition : Composition} {s t : Session} {planner : QuestionPlanner} {routerDeferred : String → Bool}

/-- Sessions that differ in what they count. -/
structure SameClock (s t : Session) : Prop where
  authorizations : s.authorizations = t.authorizations
  authorized : s.authorized = t.authorized

theorem verification_clock {env : Surroundings} (call : Gating) (h : SameClock s t) :
    (env.forVerification call s).1 = (env.forVerification call t).1 ∧
      SameClock (env.forVerification call s).2 (env.forVerification call t).2 := by
  obtain ⟨hcount, hkept⟩ := h
  cases call with
  | read recordType recordId =>
    have hcomplaint : env.complaint s (.read recordType recordId) = env.complaint t (.read recordType recordId) := by
      unfold Surroundings.complaint
      rw [hcount]
    simp only [Surroundings.forVerification, hcomplaint, hkept]
    cases env.complaint t (.read recordType recordId) with
    | some message => exact ⟨rfl, congrArg (· + 1) hcount, hkept⟩
    | none => exact ⟨rfl, congrArg (· + 1) hcount, rfl⟩
  | unresolvedCitations count => exact ⟨rfl, hcount, hkept⟩
  | unknownTemplate => exact ⟨rfl, hcount, hkept⟩
  | record outcome reason => exact ⟨rfl, hcount, hkept⟩

/-- Without a hold, the composition after a failure is gated into the same parts. -/
theorem gated_degraded (hhold : composition.hold = none) (h : SameClock s t) :
    SameDelivery (gated env composition.degraded s) (gated env composition t) := by
  obtain ⟨hstop, hparts, -⟩ := @gate_related env env.store SameClock s t
    (fun call _ _ hsame => verification_clock call hsame) composition.drafts [] h
  have hdrafts : composition.degraded.drafts = composition.drafts := rfl
  unfold gated
  rw [hdrafts]
  generalize gate env composition.drafts [] s = left at hstop hparts ⊢
  change _ = (gate env composition.drafts [] t).1 at hstop
  change _ = (gate env composition.drafts [] t).2.1 at hparts
  generalize gate env composition.drafts [] t = right at hstop hparts ⊢
  obtain ⟨stop, parts, s'⟩ := left
  obtain ⟨stop', parts', t'⟩ := right
  obtain rfl : stop = stop' := hstop
  obtain rfl : parts = parts' := hparts
  cases stop with
  | some failure => cases failure <;> rfl
  | none =>
    have hclosing : closing env composition.degraded parts = closing env composition parts := by
      unfold closing
      rw [hhold]
      rfl
    simp only [SameDelivery, Except.map, ended, hclosing]
    rfl

/-- A hold that is all there is to say is lost with the failure. -/
theorem gated_held {hold : Hold} (hhold : composition.hold = some hold) (hdrafts : composition.drafts = [])
    (hescalation : composition.escalation = none) :
    ¬SameDelivery (gated env composition.degraded s) (gated env composition t) := by
  unfold gated
  rw [show composition.degraded.drafts = [] from hdrafts, hdrafts]
  simp [SameDelivery, Except.map, gate, ended, closing, hhold, hescalation, Composition.degraded]

/-- The parts of the gate are text, claims and refusals. -/
theorem gate_kinds {drafts : List Draft} {parts : List Part} {part : Part}
    (hpart : part ∈ (gate env drafts parts s).2.1) :
    part ∈ parts ∨ part.kind = .text ∨ part.kind = .claim ∨ part.kind = .refusal := by
  induction drafts generalizing parts s with
  | nil => exact .inl hpart
  | cons first rest ih =>
    cases first with
    | connective templateId phrase =>
      simp only [gate] at hpart
      split at hpart
      · exact .inl hpart
      · obtain hmem | hkind := ih hpart
        · obtain hmem | hnew := List.mem_append.mp hmem
          · exact .inl hmem
          · obtain rfl := List.mem_singleton.mp hnew
            exact .inr (.inl rfl)
        · exact .inr hkind
    | claim draft =>
      simp only [gate] at hpart
      split at hpart
      · exact .inl hpart
      · exact .inl hpart
      · split at hpart
        · exact ih hpart
        · obtain hmem | hkind := ih hpart
          · obtain hmem | hnew := List.mem_append.mp hmem
            · exact .inl hmem
            · obtain rfl := List.mem_singleton.mp hnew
              unfold claimPart
              dsimp only
              split
              · exact .inr (.inr (.inr rfl))
              · exact .inr (.inr (.inl rfl))
          · exact .inr hkind

/-- What comes of the gate never says that a ceiling was reached. -/
theorem gated_unlimited {turn : TurnResult} (h : gated env composition s = .ok turn) :
    ∀ part ∈ turn.parts, part.kind ≠ .budgetNote := by
  have hkinds : ∀ part ∈ (gate env composition.drafts [] s).2.1, part.kind ≠ .budgetNote := by
    intro part hpart hnote
    obtain hmem | hkind | hkind | hkind := gate_kinds hpart
    · cases hmem
    all_goals cases hnote.symm.trans hkind
  unfold gated at h
  split at h
  · cases h
  · rename_i message parts s' hgate
    rw [hgate] at hkinds
    obtain rfl := Except.ok.inj h
    intro part hpart
    obtain hmem | hnew := List.mem_append.mp hpart
    · exact hkinds part hmem
    · obtain rfl := List.mem_singleton.mp hnew
      intro hnote
      cases hnote
  · rename_i parts s' hgate
    rw [hgate] at hkinds
    obtain rfl := Except.ok.inj h
    intro part hpart
    simp only [ended, closing, List.mem_append, Option.mem_toList, Option.map_eq_some_iff] at hpart
    rcases hpart with (hmem | ⟨hold, -, rfl⟩) | ⟨escalation, -, rfl⟩
    · exact hkinds part hmem
    all_goals
      intro hnote
      cases hnote

/-- A turn whose planner failed delivers what the deterministic turn does if and only if that comes to no gate,
or a model call is within the ceilings and there is no hold. -/
theorem failed_same_iff (hplanner : planner question anchor providerInput = pure .failed) :
    SameDelivery
        (runTurn env (adkQuestionComposer planner (enumeratedComposer env.platform) routerDeferred) question anchor
          providerInput)
        (runTurn env (enumeratedComposer env.platform) question anchor providerInput) ↔
      (Reaches env question anchor → 0 < env.ceilings.modelCalls ∧ ¬Missing env question anchor) := by
  have hplain := @enumerated_plain env.platform env.draftingAnswer question providerInput anchor
  have hhold := @hold_iff env question anchor providerInput
  unfold runTurn
  rw [adk_failed hplanner, Program.run_bind]
  rw [show enumeratedComposer env.platform question anchor none =
    enumeratedComposer env.platform question anchor providerInput from rfl]
  obtain ⟨message, hrun, hreads, hcomplaint⟩ | ⟨hrun, hcomplaint⟩ :=
    @enumerated_run env question anchor providerInput
  · rw [hrun]
    refine ⟨fun _ hreaches => ?_, fun _ => rfl⟩
    rw [(hreaches hreads).1] at hcomplaint
    cases hcomplaint
  · rw [hrun]
    have hsilent := @held_silent env question anchor providerInput env.draftingAnswer
    generalize (enumeratedComposer env.platform question anchor providerInput).value env.draftingAnswer = composition
      at hplain hhold hsilent ⊢
    have hsession : ∀ {s : Session}, s = (if reads env.platform question anchor then
        Session.start.drafted (anchorCall anchor).arguments else .start) →
        s.looped = false ∧ s.usage.modelCalls = 0 ∧ s.usage.tokens = 0 ∧
          (s.usage.toolCalls ≤ env.ceilings.toolCalls ↔ Reaches env question anchor) := by
      intro s hs
      rw [hs]
      unfold Reaches
      cases hreads : reads env.platform question anchor with
      | false => exact ⟨rfl, rfl, rfl, fun _ => nofun, fun _ => Nat.zero_le _⟩
      | true =>
        exact ⟨drafted_once _, rfl, rfl, fun hceiling _ => ⟨hcomplaint hreads, hceiling⟩,
          fun hreaches => (hreaches rfl).2⟩
    generalize (if reads env.platform question anchor then Session.start.drafted (anchorCall anchor).arguments
      else .start) = s at hsession
    obtain ⟨hlooped, hmodels, htokens, hreaches⟩ := hsession rfl
    show SameDelivery (assembled env question anchor composition.degraded (s.charged composition.degraded))
      (assembled env question anchor composition (s.charged composition)) ↔ _
    rw [hplain.charged]
    by_cases hceiling : Reaches env question anchor
    · have hright : assembled env question anchor composition s = gated env composition s :=
        hplain.assembled hlooped (TurnBudget.exceededBy_none.mpr ⟨hreaches.mpr hceiling, by omega, by omega⟩)
      rw [hright]
      by_cases hmodel : 0 < env.ceilings.modelCalls
      · have hwithin : env.ceilings.exceededBy (s.charged composition.degraded).usage = none :=
          TurnBudget.exceededBy_none.mpr ⟨hreaches.mpr hceiling, by show s.usage.modelCalls + 1 ≤ _; omega,
            by show s.usage.tokens + 0 ≤ _; omega⟩
        rw [assembled_gated (s := s.charged composition.degraded) rfl rfl rfl hlooped hwithin]
        cases hfound : composition.hold with
        | none =>
          rw [hfound] at hhold
          refine ⟨fun _ _ => ⟨hmodel, fun hmissing => ?_⟩, fun _ => gated_degraded hfound ⟨rfl, rfl⟩⟩
          cases hhold.mpr hmissing
        | some hold =>
          obtain ⟨hdrafts, hescalation⟩ := hsilent (by rw [hfound]; rfl)
          rw [hfound] at hhold
          exact ⟨fun hsame => absurd hsame (gated_held hfound hdrafts hescalation),
            fun hnot => absurd (hhold.mp rfl) (hnot hceiling).2⟩
      · refine ⟨fun hsame => ?_, fun hnot => absurd (hnot hceiling).1 hmodel⟩
        have hover : ¬env.ceilings.exceededBy (s.charged composition.degraded).usage = none := by
          intro hwithin
          have hcharged : s.usage.modelCalls + 1 ≤ env.ceilings.modelCalls :=
            (TurnBudget.exceededBy_none.mp hwithin).2.1
          omega
        obtain ⟨ceiling, hceiling⟩ := Option.ne_none_iff_exists'.mp hover
        rw [assembled_over (s := s.charged composition.degraded) hlooped hceiling] at hsame
        cases hgated : gated env composition s with
        | error message =>
          rw [hgated] at hsame
          cases hsame
        | ok turn =>
          rw [hgated] at hsame
          obtain ⟨hparts, -⟩ := Prod.mk.inj (Except.ok.inj hsame)
          refine absurd rfl (gated_unlimited hgated (publicPart .budgetNote 0
            [("ceiling", .str ceiling), ("reached", .bool true)] env.classification) ?_)
          rw [← hparts]
          exact List.mem_singleton_self _
    · refine ⟨fun _ hnot => absurd hnot hceiling, fun _ => ?_⟩
      have hover : env.ceilings.toolCalls < s.usage.toolCalls := by
        by_contra hwithin
        exact hceiling (hreaches.mp (by omega))
      -- Both have made the same calls, and the tool calls are counted first.
      have htools : ∀ usage : TurnUsage, usage.toolCalls = s.usage.toolCalls → env.ceilings.exceededBy usage =
          some ("tool-call ceiling of " ++ String.ofList (Nat.toDigits 10 env.ceilings.toolCalls)) :=
        fun usage hcalls => if_pos (by omega)
      rw [assembled_over (s := s.charged composition.degraded) hlooped (htools _ rfl),
        assembled_over hlooped (htools _ rfl)]
      rfl

end Failure

end Solvan.Liaison.Turn
