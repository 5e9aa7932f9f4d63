import Mathlib.Logic.Relation
import Solvan.Investigation.Steps

namespace Solvan.Investigation
open Relation (ReflTransGen)

def InvestigationStore.runsOf (s : InvestigationStore) (stepId : String) : List RunRow :=
  s.runs.filter (fun r => r.investigationStepId == some stepId)

/-- A run is one of a step, under the key of that step, or of no step at all. -/
def Owned (plans : List PlanRow) (steps : List StepRow) (r : RunRow) : Prop :=
  match r.investigationStepId with
  | none => ∃ key, r.logicalStepKey = .other key
  | some id => ∃ step ∈ steps, ∃ p ∈ plans, step.id = id ∧ p.id = step.planId ∧
      r.logicalStepKey = .investigation p.incidentId p.planVersion step.proposal.stepKey

/-- What the keys of the tables say, and each step with its runs. -/
structure Keyed (s : InvestigationStore) : Prop where
  planKeys : Table.Unique PlanRow.id s.plans
  planVersions : Table.Unique (fun p => (p.incidentId, p.planVersion)) s.plans
  stepKeys : Table.Unique StepRow.id s.steps
  stepNames : Table.Unique (fun r => (r.planId, r.proposal.stepKey)) s.steps
  runKeys : Table.Unique RunRow.id s.runs
  owned : ∀ r ∈ s.runs, Owned s.plans s.steps r
  planned : ∀ step ∈ s.steps, ∃ p ∈ s.plans, p.id = step.planId
  shape : ∀ step ∈ s.steps, Shape step (s.runsOf step.id)

/-- The steps against their plans and against each other. -/
structure Coherent (s : InvestigationStore) : Prop extends Keyed s where
  standing : ∀ step ∈ s.steps, ∀ p ∈ s.plans, p.id = step.planId →
    (step.status.unsettled = true → p.status = .accepted) ∧
      (step.status = .stale → p.status = .superseded)
  unblocked : ∀ step ∈ s.steps, step.status ≠ .planned → step.status ≠ .stale →
    s.unblocked step = true
  latest : ∀ p ∈ s.plans, ∀ p' ∈ s.plans, p'.incidentId = p.incidentId → p.status = .accepted →
    p'.planVersion ≤ p.planVersion
  completed : ∀ p ∈ s.plans, p.status = .completed → ∀ step ∈ s.steps, step.planId = p.id →
    step.status.done = true

variable {turns turns' : Turn → Prop} {s s' s'' : InvestigationStore} {g : StepRow → StepRow}
  {h h' : PlanRow → PlanRow} {step step' : StepRow} {r r' run : RunRow} {p : PlanRow}
  {q : RunRow → Bool} {f : RunRow → RunRow} {now : Int} {runs runs' : List RunRow}

theorem mem_runsOf {id : String} :
    r ∈ s.runsOf id ↔ r ∈ s.runs ∧ r.investigationStepId = some id := by
  simp [InvestigationStore.runsOf]

/-- What a statement does to the runs: it changes live ones, or writes a new one. -/
inductive RunsChange (plans : List PlanRow) (steps : List StepRow) (runs : List RunRow) :
    List RunRow → Prop where
  | update {q : RunRow → Bool} {f : RunRow → RunRow}
      (live : ∀ r ∈ runs, q r = true → r.status.live = true)
      (same : ∀ r ∈ runs, q r = true → Same r (f r)) :
      RunsChange plans steps runs (Table.update q f runs)
  | insert {run : RunRow} (new : ∀ r ∈ runs, r.id ≠ run.id) (owned : Owned plans steps run) :
      RunsChange plans steps runs (runs ++ [run])

theorem RunsChange.refl {plans : List PlanRow} {steps : List StepRow} :
    RunsChange plans steps runs runs := by
  have hnone : Table.update (fun _ : RunRow => false) id runs = runs :=
    Table.update_of_no_hit (fun _ _ => rfl)
  have hchange : RunsChange plans steps runs (Table.update (fun _ : RunRow => false) id runs) :=
    .update (fun _ _ hq => absurd hq Bool.false_ne_true) (fun _ _ hq => absurd hq Bool.false_ne_true)
  rwa [hnone] at hchange

/-- What no statement on plans, steps and runs touches. -/
def Frame (s s' : InvestigationStore) : Prop :=
  s'.now = s.now ∧ s'.dispatches = s.dispatches ∧ s'.pendings = s.pendings

theorem Frame.refl : Frame s s := ⟨rfl, rfl, rfl⟩

theorem Frame.trans (f : Frame s s') (f' : Frame s' s'') : Frame s s'' :=
  ⟨f'.1.trans f.1, f'.2.1.trans f.2.1, f'.2.2.trans f.2.2⟩

/-- A statement, as what it does to each plan and to each step with its runs. -/
structure Transforms (turns : Turn → Prop) (s s' : InvestigationStore) (h : PlanRow → PlanRow)
    (g : StepRow → StepRow) : Prop where
  frame : Frame s s'
  plans : s'.plans = s.plans.map h
  frozen : ∀ p, (h p).id = p.id ∧ (h p).incidentId = p.incidentId ∧
    (h p).planVersion = p.planVersion
  steps : s'.steps = s.steps.map g
  evolves : ∀ step ∈ s.steps,
    Evolves turns s.now (step, s.runsOf step.id) (g step, s'.runsOf step.id)
  runs : RunsChange s.plans s.steps s.runs s'.runs

theorem Transforms.frozenSteps (t : Transforms turns s s' h g) :
    ∀ step ∈ s.steps, (g step).toAcceptedStep = step.toAcceptedStep ∧ (g step).id = step.id ∧
      (g step).planId = step.planId :=
  fun step hm => (t.evolves step hm).frozen

theorem Owned.mono {plans plans' : List PlanRow} {steps steps' : List StepRow}
    (owned : Owned plans steps r)
    (keepsPlans : ∀ p ∈ plans, ∃ p' ∈ plans', p'.id = p.id ∧ p'.incidentId = p.incidentId ∧
      p'.planVersion = p.planVersion)
    (keepsSteps : ∀ step ∈ steps, ∃ step' ∈ steps', step'.id = step.id ∧
      step'.planId = step.planId ∧ step'.proposal.stepKey = step.proposal.stepKey) :
    Owned plans' steps' r := by
  unfold Owned at owned ⊢
  cases hid : r.investigationStepId with
  | none => simpa only [hid] using owned
  | some id =>
    simp only [hid] at owned
    obtain ⟨step, hstep, p, hp, hsid, hplan, hkey⟩ := owned
    obtain ⟨step', hstep', hid', hplan', hname⟩ := keepsSteps step hstep
    obtain ⟨p', hp', hpid, hincident, hversion⟩ := keepsPlans p hp
    refine ⟨step', hstep', p', hp', hid'.trans hsid, ?_, ?_⟩
    · rw [hpid, hplan, hplan']
    · rw [hkey, hincident, hversion, hname]

theorem Owned.of_same {plans : List PlanRow} {steps : List StepRow} (owned : Owned plans steps r)
    (same : Same r r') : Owned plans steps r' := by
  unfold Owned at owned ⊢
  rw [same.step, same.key]
  exact owned

theorem RunsChange.owned {plans : List PlanRow} {steps : List StepRow}
    (c : RunsChange plans steps runs runs') (owned : ∀ r ∈ runs, Owned plans steps r) :
    ∀ r ∈ runs', Owned plans steps r := by
  intro r' hr'
  cases c with
  | update live same =>
    rcases Table.update_cases hr' with ⟨r, hr, hq, rfl⟩ | ⟨hr, -⟩
    · exact (owned r hr).of_same (same r hr hq)
    · exact owned r' hr
  | insert new owned' =>
    rcases List.mem_append.mp hr' with hr | hr
    · exact owned r' hr
    · exact List.mem_singleton.mp hr ▸ owned'

theorem RunsChange.unique {plans : List PlanRow} {steps : List StepRow}
    (c : RunsChange plans steps runs runs') (unique : Table.Unique RunRow.id runs) :
    Table.Unique RunRow.id runs' := by
  cases c with
  | update live same => exact unique.update (fun r hr hq => (same r hr hq).id)
  | insert new _ => exact unique.append new

theorem Transforms.keyed (t : Transforms turns s s' h g) (hs : Keyed s) : Keyed s' := by
  have hnames : ∀ step ∈ s.steps,
      ((g step).planId, (g step).proposal.stepKey) = (step.planId, step.proposal.stepKey) := by
    intro step hm
    obtain ⟨haccepted, -, hplan⟩ := t.frozenSteps step hm
    rw [hplan, haccepted]
  refine ⟨?_, ?_, ?_, ?_, t.runs.unique hs.runKeys, ?_, ?_, ?_⟩
  · exact t.plans ▸ hs.planKeys.map (fun p _ => (t.frozen p).1)
  · refine t.plans ▸ hs.planVersions.map (fun p _ => ?_)
    rw [(t.frozen p).2.1, (t.frozen p).2.2]
  · exact t.steps ▸ hs.stepKeys.map (fun r hr => (t.frozenSteps r hr).2.1)
  · exact t.steps ▸ hs.stepNames.map hnames
  · intro r hr
    refine (t.runs.owned hs.owned r hr).mono ?_ ?_
    · intro p hp
      exact ⟨h p, t.plans ▸ List.mem_map_of_mem hp, t.frozen p⟩
    · intro step hm
      obtain ⟨haccepted, hid, hplan⟩ := t.frozenSteps step hm
      exact ⟨g step, t.steps ▸ List.mem_map_of_mem hm, hid, hplan, by rw [haccepted]⟩
  · intro step' hm'
    rw [t.steps] at hm'
    obtain ⟨step, hm, rfl⟩ := List.mem_map.mp hm'
    obtain ⟨p, hp, hid⟩ := hs.planned step hm
    refine ⟨h p, t.plans ▸ List.mem_map_of_mem hp, ?_⟩
    rw [(t.frozen p).1, hid, (t.frozenSteps step hm).2.2]
  · intro step' hm'
    rw [t.steps] at hm'
    obtain ⟨step, hm, rfl⟩ := List.mem_map.mp hm'
    rw [(t.frozenSteps step hm).2.1]
    exact (t.evolves step hm).shape (hs.shape step hm)

/-- What unblocks a step goes on doing so: steps keep their names, and what is
done stays done. -/
theorem unblocked_of_map (steps : s'.steps = s.steps.map g)
    (names : ∀ r ∈ s.steps, (g r).planId = r.planId ∧ (g r).proposal.stepKey = r.proposal.stepKey)
    (done : ∀ r ∈ s.steps, r.status.done = true → (g r).status.done = true)
    (plan : step'.planId = step.planId) (proposal : step'.proposal = step.proposal)
    (unblocked : s.unblocked step = true) : s'.unblocked step' = true := by
  simp only [InvestigationStore.unblocked, List.all_eq_true] at unblocked ⊢
  rw [proposal]
  intro key hkey
  have hrequired := unblocked key hkey
  have hmap : s'.steps.filter (fun r => r.planId == step'.planId && r.proposal.stepKey == key) =
      (s.steps.filter (fun r => r.planId == step.planId && r.proposal.stepKey == key)).map g := by
    rw [steps, List.filter_map]
    congr 1
    refine List.filter_congr (fun r hr => ?_)
    rw [Function.comp_apply, (names r hr).1, (names r hr).2, plan]
  rw [hmap]
  simp only [Bool.and_eq_true, List.isEmpty_map] at hrequired ⊢
  refine ⟨hrequired.1, List.all_eq_true.mpr (fun r hr => ?_)⟩
  obtain ⟨r₀, hr₀, rfl⟩ := List.mem_map.mp hr
  exact done r₀ (List.mem_of_mem_filter hr₀) (List.all_eq_true.mp hrequired.2 r₀ hr₀)

/-- A statement that leaves the plans alone. -/
structure Advance (turns : Turn → Prop) (s s' : InvestigationStore) (g : StepRow → StepRow) : Prop
    where
  transforms : Transforms turns s s' id g
  promoted : ∀ step ∈ s.steps, step.status = .planned → (g step).status ≠ .planned →
    s.unblocked step = true
  stale : ∀ step ∈ s.steps, (g step).status = .stale → step.status = .stale

theorem Transforms.unblocked (t : Transforms turns s s' h g) (hm : step ∈ s.steps)
    (unblocked : s.unblocked step = true) : s'.unblocked (g step) = true := by
  refine unblocked_of_map t.steps (fun r hr => ?_) (fun r hr hd => ?_)
    (t.frozenSteps step hm).2.2 (by rw [(t.frozenSteps step hm).1]) unblocked
  · obtain ⟨haccepted, -, hplan⟩ := t.frozenSteps r hr
    exact ⟨hplan, by rw [haccepted]⟩
  · exact (t.evolves r hr).done hd

theorem Advance.coherent (a : Advance turns s s' g) (hs : Coherent s) : Coherent s' := by
  have t := a.transforms
  have hplans : s'.plans = s.plans := by rw [t.plans, List.map_id]
  refine ⟨t.keyed hs.toKeyed, ?_, ?_, ?_, ?_⟩
  · intro step' hm' p hp hid
    rw [t.steps] at hm'
    obtain ⟨step, hm, rfl⟩ := List.mem_map.mp hm'
    rw [(t.frozenSteps step hm).2.2] at hid
    have hold := hs.standing step hm p (hplans ▸ hp) hid
    exact ⟨fun hu => hold.1 ((t.evolves step hm).unsettled hu), fun hst => hold.2 (a.stale step hm hst)⟩
  · intro step' hm' hplanned hstale
    rw [t.steps] at hm'
    obtain ⟨step, hm, rfl⟩ := List.mem_map.mp hm'
    refine t.unblocked hm ?_
    by_cases hp : step.status = .planned
    · exact a.promoted step hm hp hplanned
    · refine hs.unblocked step hm hp (fun hst => hstale ?_)
      rw [(t.evolves step hm).status_of_settled (by rw [hst]; rfl), hst]
  · rw [hplans]
    exact hs.latest
  · intro p hp hc step' hm' hid
    rw [t.steps] at hm'
    obtain ⟨step, hm, rfl⟩ := List.mem_map.mp hm'
    rw [(t.frozenSteps step hm).2.2] at hid
    exact (t.evolves step hm).done (hs.completed p (hplans ▸ hp) hc step hm hid)

/-- A step with its runs as statement after statement leaves it. -/
abbrev Leads (turns : Turn → Prop) (now : Int) :=
  ReflTransGen (Evolves turns now)

/-- What a transaction does to the steps, each with its runs: they come of one
that was there, or of a new one. -/
structure Moves (turns : Turn → Prop) (s s' : InvestigationStore) : Prop where
  frame : Frame s s'
  forth : ∀ step ∈ s.steps, ∃ step' ∈ s'.steps,
    Leads turns s.now (step, s.runsOf step.id) (step', s'.runsOf step'.id)
  back : ∀ step' ∈ s'.steps, ∃ step runs, Leads turns s.now (step, runs) (step', s'.runsOf step'.id) ∧
    (step ∈ s.steps ∧ runs = s.runsOf step.id ∨ Shape step [] ∧ runs = [])
  ended : ∀ r ∈ s.runs, r.status.live = false → r ∈ s'.runs
  same : ∀ r ∈ s.runs, ∃ r' ∈ s'.runs, Same r r'

theorem Same.refl : Same r r := ⟨rfl, rfl, rfl, rfl, rfl⟩

theorem Same.trans {r'' : RunRow} (h : Same r r') (h' : Same r' r'') : Same r r'' :=
  ⟨h'.id.trans h.id, h'.step.trans h.step, h'.key.trans h.key, h'.attempt.trans h.attempt,
    h'.created.trans h.created⟩

theorem Moves.refl : Moves turns s s :=
  ⟨.refl, fun step hm => ⟨step, hm, .refl⟩, fun step hm => ⟨step, _, .refl, .inl ⟨hm, rfl⟩⟩,
    fun _ hr _ => hr, fun r hr => ⟨r, hr, .refl⟩⟩

theorem Moves.trans (m : Moves turns s s') (m' : Moves turns s' s'') : Moves turns s s'' := by
  refine ⟨m.frame.trans m'.frame, ?_, ?_, fun r hr he => m'.ended r (m.ended r hr he) he, ?_⟩
  · intro step hm
    obtain ⟨step', hm', hl⟩ := m.forth step hm
    obtain ⟨step'', hm'', hl'⟩ := m'.forth step' hm'
    exact ⟨step'', hm'', hl.trans (m.frame.1 ▸ hl')⟩
  · intro step'' hm''
    obtain ⟨step', runs', hl', hfrom⟩ := m'.back step'' hm''
    rw [m.frame.1] at hl'
    rcases hfrom with ⟨hm', rfl⟩ | ⟨hnew, rfl⟩
    · obtain ⟨step, runs, hl, hfrom⟩ := m.back step' hm'
      exact ⟨step, runs, hl.trans hl', hfrom⟩
    · exact ⟨step', [], hl', .inr ⟨hnew, rfl⟩⟩
  · intro r hr
    obtain ⟨r', hr', hsame⟩ := m.same r hr
    obtain ⟨r'', hr'', hsame'⟩ := m'.same r' hr'
    exact ⟨r'', hr'', hsame.trans hsame'⟩

theorem RunsChange.ended {plans : List PlanRow} {steps : List StepRow}
    (c : RunsChange plans steps runs runs') (hr : r ∈ runs) (ended : r.status.live = false) :
    r ∈ runs' := by
  cases c with
  | update live same =>
    refine Table.mem_update_of_miss hr ?_
    by_contra hq
    have hlive := live r hr (by simpa using hq)
    rw [ended] at hlive
    cases hlive
  | insert _ _ => exact List.mem_append_left _ hr

theorem RunsChange.same {plans : List PlanRow} {steps : List StepRow}
    (c : RunsChange plans steps runs runs') (hr : r ∈ runs) : ∃ r' ∈ runs', Same r r' := by
  cases c with
  | @update q f live same =>
    cases hq : q r with
    | true => exact ⟨f r, Table.mem_update_of_hit hr hq, same r hr hq⟩
    | false => exact ⟨r, Table.mem_update_of_miss hr hq, .refl⟩
  | insert _ _ => exact ⟨r, List.mem_append_left _ hr, .refl⟩

theorem Transforms.moves (t : Transforms turns s s' h g) : Moves turns s s' := by
  refine ⟨t.frame, ?_, ?_, fun r hr he => t.runs.ended hr he, fun r hr => t.runs.same hr⟩
  · intro step hm
    refine ⟨g step, t.steps ▸ List.mem_map_of_mem hm, ?_⟩
    rw [(t.frozenSteps step hm).2.1]
    exact .single (t.evolves step hm)
  · intro step' hm'
    rw [t.steps] at hm'
    obtain ⟨step, hm, rfl⟩ := List.mem_map.mp hm'
    refine ⟨step, s.runsOf step.id, ?_, .inl ⟨hm, rfl⟩⟩
    rw [(t.frozenSteps step hm).2.1]
    exact .single (t.evolves step hm)

/-- The runs of one step, where an update changes some of all runs. -/
theorem runsOf_update (hs' : s'.runs = Table.update q f s.runs)
    (same : ∀ r ∈ s.runs, q r = true → Same r (f r)) (id : String) :
    s'.runsOf id = Table.update q f (s.runsOf id) := by
  unfold InvestigationStore.runsOf
  rw [hs', Table.filter_update (fun r hr hq => by rw [(same r hr hq).step])]

theorem runsOf_insert (hs' : s'.runs = s.runs ++ [run]) (id : String) :
    s'.runsOf id =
      s.runsOf id ++ if run.investigationStepId = some id then [run] else [] := by
  unfold InvestigationStore.runsOf
  rw [hs', List.filter_append, List.filter_cons, List.filter_nil]
  simp only [beq_iff_eq]

theorem Advance.refl : Advance turns s s id :=
  ⟨⟨.refl, by rw [List.map_id], fun _ => ⟨rfl, rfl, rfl⟩, by rw [List.map_id], fun _ _ => .same, .refl⟩,
    fun _ _ hp hne => absurd hp hne, fun _ _ hst => hst⟩

/-- A statement that changes columns of live runs, and leaves them live. -/
theorem Advance.touch (runs : s'.runs = Table.update q f s.runs)
    (rest : Frame s s' ∧ s'.plans = s.plans ∧ s'.steps = s.steps)
    (same : ∀ r ∈ s.runs, q r = true → Same r (f r))
    (open_ : ∀ r ∈ s.runs, q r = true → r.status.live = true ∧ (f r).status.live = true ∧
      (f r).completedAt = r.completedAt) : Advance turns s s' id := by
  obtain ⟨frame, hplans, hsteps⟩ := rest
  refine ⟨⟨frame, by rw [hplans, List.map_id], fun _ => ⟨rfl, rfl, rfl⟩, by rw [hsteps, List.map_id],
    ?_, ?_⟩, fun _ _ hp hne => absurd hp hne, fun _ _ hst => hst⟩
  · intro step hm
    rw [runsOf_update runs same, id]
    exact .touch (fun r hr => same r (mem_runsOf.mp hr).1) (fun r hr => open_ r (mem_runsOf.mp hr).1)
  · exact runs ▸ .update (fun r hr hq => (open_ r hr hq).1) same

/-- What becomes of a step whose live run has ended at a moment. -/
inductive Ends (turns : Turn → Prop) (now : Int) (r : RunRow) (moment : Int) (step step' : StepRow) :
    Prop where
  | settled (status : step'.status = .succeeded ∧ turns .succeeded ∨ step'.status = .failed ∨
        step'.status = .stale)
      (current : step'.currentAgentRunId = step.currentAgentRunId)
      (accepted : step'.toAcceptedStep = step.toAcceptedStep) (id : step'.id = step.id)
      (plan : step'.planId = step.planId)
  | retried (first : r.attempt = 1) (atOnce : moment = now) (ready : step'.status = .ready)
      (current : step'.currentAgentRunId = none) (put : PutsOff turns now step'.retryNotBefore)
      (accepted : step'.toAcceptedStep = step.toAcceptedStep) (id : step'.id = step.id)
      (plan : step'.planId = step.planId)

theorem Keyed.evolves_ending {moment : Int} (hs : Keyed s) (hm : step ∈ s.steps)
    (runs : s'.runs = Table.update q f s.runs)
    (live : ∀ r ∈ s.runs, q r = true → r.status.live = true)
    (same : ∀ r ∈ s.runs, q r = true → Same r (f r)) (hr : r ∈ s.runsOf step.id) (hq : q r = true)
    (ended : (f r).status.live = false ∧ (f r).completedAt = some moment)
    (stale : void (f r).status = true → step'.status = .stale)
    (swept : sweptRun (f r) = true → step'.currentAgentRunId ≠ none → SweptAt step' (f r))
    (ends : Ends turns s.now r moment step step') :
    Evolves turns s.now (step, s.runsOf step.id) (step', s'.runsOf step.id) := by
  have hrun := (mem_runsOf.mp hr).1
  obtain ⟨hunderway, -, earlier, heq, hearlier⟩ := (hs.shape step hm).of_live hr (live r hrun hq)
  have hruns : s'.runsOf step.id = earlier ++ [f r] := by
    rw [runsOf_update runs same, heq, Table.update, List.map_append, List.map_singleton, if_pos hq]
    congr 1
    refine Table.update_of_no_hit (fun r₀ hr₀ => ?_)
    have hin : r₀ ∈ s.runs := (mem_runsOf.mp (heq ▸ List.mem_append_left _ hr₀)).1
    by_contra hq₀
    have hlive := live r₀ hin (by simpa using hq₀)
    rw [hearlier r₀ hr₀] at hlive
    cases hlive
  rw [heq, hruns]
  cases ends with
  | settled status current accepted id plan =>
    exact .settle hunderway (live r hrun hq) (same r hrun hq) ended stale swept status
      current accepted id plan
  | retried first atOnce ready current put accepted id plan =>
    exact .retry hunderway (live r hrun hq) (same r hrun hq) (atOnce ▸ ended) stale first ready
      current put accepted id plan

theorem runsOf_idle (runs : s'.runs = Table.update q f s.runs)
    (same : ∀ r ∈ s.runs, q r = true → Same r (f r)) {id : String}
    (miss : ∀ r ∈ s.runsOf id, q r = false) : s'.runsOf id = s.runsOf id := by
  rw [runsOf_update runs same]
  exact Table.update_of_no_hit miss

theorem Evolves.of_idle (runs : s'.runsOf step.id = s.runsOf step.id) :
    Evolves turns s.now (step, s.runsOf step.id) (step, s'.runsOf step.id) :=
  runs ▸ .same

/-- A live run ends, and the step that stands at it goes on or is settled. -/
theorem Advance.ending (moment : Int) (hs : Keyed s) (runs : s'.runs = Table.update q f s.runs)
    (steps : s'.steps = s.steps.map g) (rest : Frame s s' ∧ s'.plans = s.plans)
    (hr : r ∈ s.runs) (live : r.status.live = true) (hq : q r = true)
    (only : ∀ r₀ ∈ s.runs, q r₀ = true → r₀ = r) (same : Same r (f r))
    (ended : (f r).status.live = false ∧ (f r).completedAt = some moment)
    (kept : void (f r).status = false) (unswept : sweptRun (f r) = false)
    (hit : ∀ step ∈ s.steps, r.investigationStepId = some step.id →
      Ends turns s.now r moment step (g step) ∧ (g step).status ≠ .stale)
    (miss : ∀ step ∈ s.steps, r.investigationStepId ≠ some step.id → g step = step) :
    Advance turns s s' g := by
  obtain ⟨frame, hplans⟩ := rest
  have hlive : ∀ r₀ ∈ s.runs, q r₀ = true → r₀.status.live = true := fun r₀ hr₀ hq₀ =>
    only r₀ hr₀ hq₀ ▸ live
  have hsame : ∀ r₀ ∈ s.runs, q r₀ = true → Same r₀ (f r₀) := fun r₀ hr₀ hq₀ =>
    only r₀ hr₀ hq₀ ▸ same
  refine ⟨⟨frame, by rw [hplans, List.map_id], fun _ => ⟨rfl, rfl, rfl⟩, steps, ?_,
    runs ▸ .update hlive hsame⟩, ?_, ?_⟩
  · intro step hm
    by_cases hid : r.investigationStepId = some step.id
    · exact hs.evolves_ending hm runs hlive hsame (mem_runsOf.mpr ⟨hr, hid⟩) hq ended
        (fun hvoid => absurd hvoid (by rw [kept]; exact Bool.false_ne_true))
        (fun hswept => absurd hswept (by rw [unswept]; exact Bool.false_ne_true)) (hit step hm hid).1
    · rw [miss step hm hid]
      refine .of_idle (runsOf_idle runs hsame (fun r₀ hr₀ => ?_))
      by_contra hq₀
      have hself := only r₀ (mem_runsOf.mp hr₀).1 (by simpa using hq₀)
      exact hid (hself ▸ (mem_runsOf.mp hr₀).2)
  · intro step hm hp hne
    by_cases hid : r.investigationStepId = some step.id
    · have hunderway := ((hs.shape step hm).of_live (mem_runsOf.mpr ⟨hr, hid⟩) live).1
      rw [hp] at hunderway
      cases hunderway
    · rw [miss step hm hid] at hne
      exact absurd hp hne
  · intro step hm hst
    by_cases hid : r.investigationStepId = some step.id
    · exact absurd hst (hit step hm hid).2
    · rw [miss step hm hid] at hst
      exact hst

end Solvan.Investigation
