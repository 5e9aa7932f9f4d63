import Solvan.Base.Attempts
import Solvan.Investigation.Results

/-! What may become of one step and its runs, as a task worked on in attempts. -/
namespace Solvan.Investigation
open Attempts (Task Try Phase)

/-- The attempts a step may have: the first, and its declared fallback. -/
def attemptLimit : Nat := 2

def StepRow.phase (step : StepRow) : Phase :=
  match step.status with
  | .planned => .waiting
  | .ready => .ready step.retryNotBefore
  | .dispatched | .running => .underway
  | .succeeded | .failed | .stale | .skipped => .settled

def RunRow.try_ (r : RunRow) : Try := ⟨r.createdAt, r.completedAt⟩

def task (step : StepRow) (runs : List RunRow) : Task := ⟨step.phase, runs.map RunRow.try_⟩

/-- The step stands at its last run. -/
def AtLast (step : StepRow) (runs : List RunRow) : Prop :=
  ∃ r, runs.getLast? = some r ∧ step.currentAgentRunId = some r.id

/-- Where `current_agent_run_id` has to stand. -/
def Stands (step : StepRow) (runs : List RunRow) : Prop :=
  match step.status with
  | .planned | .ready => step.currentAgentRunId = none
  | .dispatched | .running | .succeeded | .failed => AtLast step runs
  | .stale => step.currentAgentRunId = none ∨ AtLast step runs
  | .skipped => False

/-- A run that was called off. -/
def void : RunStatus → Bool
  | .stale | .cancelled => true
  | _ => false

/-- A step the sweep has failed, as the sweep would fail it once more. -/
def SweptAt (step : StepRow) (r : RunRow) : Prop :=
  step.status = .failed ∧ retries r step = false ∧
    step.resultRef = some ("runtime-error:" ++ dispatchDeadlineExceeded)

/-- A step and its runs, in the order they were made. -/
structure Shape (step : StepRow) (runs : List RunRow) : Prop where
  sound : (task step runs).Sound attemptLimit
  timed : ∀ r ∈ runs, r.status.live = r.completedAt.isNone
  numbered : runs.map RunRow.attempt = List.range' 1 runs.length
  stands : Stands step runs
  void : ∀ r ∈ runs, void r.status = true → step.status = .stale
  swept : ∀ r, runs.getLast? = some r → sweptRun r = true → step.currentAgentRunId ≠ none →
    SweptAt step r

/-- The columns of a run that never change. -/
structure Same (r r' : RunRow) : Prop where
  id : r'.id = r.id
  step : r'.investigationStepId = r.investigationStepId
  key : r'.logicalStepKey = r.logicalStepKey
  attempt : r'.attempt = r.attempt
  created : r'.createdAt = r.createdAt

/-- What only some transactions do to a step: take its result, put it up for its
fallback without putting it off, or settle it once more. -/
inductive Turn where
  | succeeded
  | unputOff
  | resettled
deriving DecidableEq

variable {turns turns' : Turn → Prop} {now : Int} {step step' : StepRow} {runs runs' : List RunRow}
  {r r' : RunRow}

/-- `retry_not_before` lies far enough ahead, or the statement did not set it. -/
def PutsOff (turns : Turn → Prop) (now : Int) (notBefore : Option Int) : Prop :=
  turns .unputOff ∨ Attempts.PutsOff (milliseconds dispatchRetryBackoffMs) now notBefore

/-- What a statement may do to one step and its runs. -/
inductive Evolves (turns : Turn → Prop) (now : Int) : StepRow × List RunRow → StepRow × List RunRow →
    Prop where
  | same {step : StepRow} {runs : List RunRow} : Evolves turns now (step, runs) (step, runs)
  | promote {step : StepRow} {runs : List RunRow} (planned : step.status = .planned) :
      Evolves turns now (step, runs) ({ step with status := .ready }, runs)
  | dispatch {step : StepRow} {runs : List RunRow} {run : RunRow} (ready : step.status = .ready)
      (due : ∀ moment ∈ step.retryNotBefore, moment ≤ now)
      (fresh : run.status = .created ∧ run.completedAt = none ∧ run.createdAt = now ∧
        run.attempt = runs.length + 1) :
      Evolves turns now (step, runs)
        ({ step with
          status := .dispatched
          currentAgentRunId := some run.id
          startedAt := some now }, runs ++ [run])
  | touch {step : StepRow} {runs : List RunRow} {p : RunRow → Bool} {f : RunRow → RunRow}
      (same : ∀ r ∈ runs, p r = true → Same r (f r))
      (open_ : ∀ r ∈ runs, p r = true → r.status.live = true ∧ (f r).status.live = true ∧
        (f r).completedAt = r.completedAt) :
      Evolves turns now (step, runs) (step, Table.update p f runs)
  | settle {step step' : StepRow} {runs : List RunRow} {r r' : RunRow} {moment : Int}
      (underway : step.status.underway = true) (live : r.status.live = true) (same : Same r r')
      (ended : r'.status.live = false ∧ r'.completedAt = some moment)
      (stale : void r'.status = true → step'.status = .stale)
      (swept : sweptRun r' = true → step'.currentAgentRunId ≠ none → SweptAt step' r')
      (settled : step'.status = .succeeded ∧ turns .succeeded ∨ step'.status = .failed ∨
        step'.status = .stale)
      (current : step'.currentAgentRunId = step.currentAgentRunId)
      (accepted : step'.toAcceptedStep = step.toAcceptedStep) (id : step'.id = step.id)
      (plan : step'.planId = step.planId) :
      Evolves turns now (step, runs ++ [r]) (step', runs ++ [r'])
  | retry {step step' : StepRow} {runs : List RunRow} {r r' : RunRow}
      (underway : step.status.underway = true) (live : r.status.live = true) (same : Same r r')
      (ended : r'.status.live = false ∧ r'.completedAt = some now)
      (stale : void r'.status = true → step'.status = .stale) (first : r.attempt = 1)
      (ready : step'.status = .ready) (current : step'.currentAgentRunId = none)
      (put : PutsOff turns now step'.retryNotBefore)
      (accepted : step'.toAcceptedStep = step.toAcceptedStep) (id : step'.id = step.id)
      (plan : step'.planId = step.planId) :
      Evolves turns now (step, runs ++ [r]) (step', runs ++ [r'])
  | shelve {step : StepRow} {runs : List RunRow} {completedAt : Option Int}
      (idle : step.status = .planned ∨ step.status = .ready) :
      Evolves turns now (step, runs) ({ step with status := .stale, completedAt }, runs)
  | resettle {step : StepRow} {runs : List RunRow} {completedAt : Option Int}
      (turn : turns .resettled) (failed : step.status = .failed) :
      Evolves turns now (step, runs) ({ step with completedAt }, runs)

/-- The part of a step that no statement changes. -/
theorem Evolves.frozen (h : Evolves turns now (step, runs) (step', runs')) :
    step'.toAcceptedStep = step.toAcceptedStep ∧ step'.id = step.id ∧ step'.planId = step.planId := by
  cases h with
  | same => exact ⟨rfl, rfl, rfl⟩
  | promote _ => exact ⟨rfl, rfl, rfl⟩
  | dispatch _ _ _ => exact ⟨rfl, rfl, rfl⟩
  | touch _ _ => exact ⟨rfl, rfl, rfl⟩
  | settle _ _ _ _ _ _ _ _ accepted id plan => exact ⟨accepted, id, plan⟩
  | retry _ _ _ _ _ _ _ _ _ accepted id plan => exact ⟨accepted, id, plan⟩
  | shelve _ => exact ⟨rfl, rfl, rfl⟩
  | resettle _ _ => exact ⟨rfl, rfl, rfl⟩

theorem phase_of_underway (h : step.status.underway = true) : step.phase = .underway := by
  unfold StepRow.phase
  cases hs : step.status <;> simp_all [StepStatus.underway]

theorem phase_of_settled (h : step.status = .succeeded ∨ step.status = .failed ∨ step.status = .stale) :
    step.phase = .settled := by
  unfold StepRow.phase
  rcases h with h | h | h <;> rw [h]

/-- A live run is open. -/
theorem Shape.try_of_live (shape : Shape step runs) (hr : r ∈ runs) (live : r.status.live = true) :
    r.try_ = ⟨r.createdAt, none⟩ := by
  have htimed := shape.timed r hr
  rw [live] at htimed
  simp only [RunRow.try_, Option.isNone_iff_eq_none.mp htimed.symm]

theorem map_try_touch {p : RunRow → Bool} {f : RunRow → RunRow}
    (keeps : ∀ r ∈ runs, p r = true → (f r).createdAt = r.createdAt ∧ (f r).completedAt = r.completedAt) :
    (Table.update p f runs).map RunRow.try_ = runs.map RunRow.try_ := by
  refine Table.keys_update (fun r hr hp => ?_)
  obtain ⟨hc, he⟩ := keeps r hr hp
  simp only [RunRow.try_, hc, he]

/-- A step with its runs is a task worked on in attempts. -/
theorem Evolves.attempts (h : Evolves turns now (step, runs) (step', runs')) (shape : Shape step runs) :
    Attempts.Step attemptLimit (PutsOff turns now) now (task step runs) (task step' runs') := by
  cases h with
  | same => exact .rest
  | promote planned =>
    simp only [task, StepRow.phase, planned]
    exact .release _
  | dispatch ready due fresh =>
    obtain ⟨-, hcompleted, hcreated, -⟩ := fresh
    simp only [task, StepRow.phase, ready, List.map_append, List.map_cons, List.map_nil,
      RunRow.try_, hcompleted, hcreated]
    exact .start due
  | touch same open_ =>
    have htries := map_try_touch (fun r hr hp => ⟨(same r hr hp).created, (open_ r hr hp).2.2⟩)
    simp only [task, htries]
    exact .rest
  | @settle _ _ runs r r' moment underway live same ended _ _ settled _ _ _ _ =>
    have htry := shape.try_of_live (List.mem_append_right _ (List.mem_singleton_self r)) live
    have htry' : r'.try_ = ⟨r.createdAt, some moment⟩ := by
      simp only [RunRow.try_, same.created, ended.2]
    simp only [task, phase_of_underway underway, phase_of_settled (settled.imp And.left id),
      List.map_append, List.map_cons, List.map_nil, htry, htry']
    exact .settle moment
  | @retry _ _ runs r r' underway live same ended _ first ready _ put _ _ _ =>
    have htry := shape.try_of_live (List.mem_append_right _ (List.mem_singleton_self r)) live
    have htry' : r'.try_ = ⟨r.createdAt, some now⟩ := by
      simp only [RunRow.try_, same.created, ended.2]
    -- The run is the first, so there is none before it.
    have hnone : runs = [] := by
      have hnumbered := shape.numbered
      rw [List.length_append, List.length_singleton, List.range'_concat, List.map_append] at hnumbered
      have hlast := List.append_inj_right' hnumbered rfl
      simp only [List.map_cons, List.map_nil, List.cons.injEq, and_true] at hlast
      exact List.length_eq_zero_iff.mp (by omega)
    subst hnone
    have hphase : step'.phase = .ready step'.retryNotBefore := by simp only [StepRow.phase, ready]
    simp only [task, phase_of_underway underway, hphase, List.nil_append, List.map_cons,
      List.map_nil, htry, htry']
    exact Attempts.Step.retry _ (by decide : ([] : List Try).length + 1 < attemptLimit) put
  | shelve idle =>
    refine .drop ?_
    unfold StepRow.phase
    rcases idle with h | h <;> rw [h] <;> exact nofun
  | resettle _ failed =>
    simp only [task, StepRow.phase, failed]
    exact .rest

theorem Shape.atLast_of_underway (shape : Shape step runs) (h : step.status.underway = true) :
    AtLast step runs := by
  have stands := shape.stands
  unfold Stands at stands
  cases hs : step.status <;> simp_all [StepStatus.underway]

theorem Shape.atLast_of_failed (shape : Shape step runs) (h : step.status = .failed) :
    AtLast step runs := by
  have stands := shape.stands
  simpa only [Stands, h] using stands

/-- Whatever a step stands at is its last run. -/
theorem Shape.atLast_of_current {id : String} (shape : Shape step runs)
    (h : step.currentAgentRunId = some id) : AtLast step runs := by
  have stands := shape.stands
  unfold Stands at stands
  cases hs : step.status <;> simp_all

theorem AtLast.touch {p : RunRow → Bool} {f : RunRow → RunRow} (h : AtLast step runs)
    (same : ∀ r ∈ runs, p r = true → Same r (f r)) : AtLast step (Table.update p f runs) := by
  obtain ⟨r, hr, hcurrent⟩ := h
  have hlast : (Table.update p f runs).getLast? = some (if p r then f r else r) := by
    unfold Table.update
    rw [List.getLast?_map, hr]
    rfl
  have hid : (if p r then f r else r).id = r.id := by
    split
    · rename_i hp
      exact (same r (List.mem_of_getLast? hr) hp).id
    · rfl
  exact ⟨_, hlast, hid ▸ hcurrent⟩

theorem Stands.touch {p : RunRow → Bool} {f : RunRow → RunRow} (h : Stands step runs)
    (same : ∀ r ∈ runs, p r = true → Same r (f r)) : Stands step (Table.update p f runs) := by
  unfold Stands at h ⊢
  cases hs : step.status with
  | planned | ready | skipped => simpa only [hs] using h
  | stale =>
    simp only [hs] at h
    exact h.imp id (fun h => h.touch same)
  | dispatched | running | succeeded | failed =>
    simp only [hs] at h
    exact h.touch same

theorem AtLast.close (h : AtLast step (runs ++ [r])) (same : Same r r')
    (current : step'.currentAgentRunId = step.currentAgentRunId) : AtLast step' (runs ++ [r']) := by
  obtain ⟨r₀, hlast, hcurrent⟩ := h
  rw [List.getLast?_append, List.getLast?_singleton, Option.some_or, Option.some.injEq] at hlast
  subst hlast
  refine ⟨r', by simp, ?_⟩
  rw [current, hcurrent, same.id]

theorem timed_close (timed : ∀ r₀ ∈ runs ++ [r], r₀.status.live = r₀.completedAt.isNone)
    (ended : r'.status.live = false) (moment : Int) (completed : r'.completedAt = some moment) :
    ∀ r₀ ∈ runs ++ [r'], r₀.status.live = r₀.completedAt.isNone := by
  intro r₀ hr₀
  rcases List.mem_append.mp hr₀ with hr₀ | hr₀
  · exact timed r₀ (List.mem_append_left _ hr₀)
  · rw [List.mem_singleton] at hr₀
    rw [hr₀, ended, completed]
    rfl

theorem numbered_close (numbered : (runs ++ [r]).map RunRow.attempt = List.range' 1 (runs ++ [r]).length)
    (same : Same r r') :
    (runs ++ [r']).map RunRow.attempt = List.range' 1 (runs ++ [r']).length := by
  simpa only [List.map_append, List.map_cons, List.map_nil, List.length_append,
    List.length_singleton, same.attempt] using numbered

/-- A run that ends leaves nothing void behind a step that goes on. -/
theorem void_close (before : ∀ r₀ ∈ runs ++ [r], void r₀.status = true → step.status = .stale)
    (underway : step.status.underway = true) (stale : void r'.status = true → step'.status = .stale) :
    ∀ r₀ ∈ runs ++ [r'], void r₀.status = true → step'.status = .stale := by
  intro r₀ hr₀ hvoid
  rcases List.mem_append.mp hr₀ with hr₀ | hr₀
  · rw [before r₀ (List.mem_append_left _ hr₀) hvoid] at underway
    cases underway
  · exact stale (List.mem_singleton.mp hr₀ ▸ hvoid)

theorem Evolves.shape (h : Evolves turns now (step, runs) (step', runs')) (shape : Shape step runs) :
    Shape step' runs' := by
  have sound := (h.attempts shape).sound (by decide : 0 < attemptLimit) shape.sound
  cases h with
  | same => exact shape
  | promote planned =>
    have hnone : step.currentAgentRunId = none := by
      have stands := shape.stands
      simpa only [Stands, planned] using stands
    refine ⟨sound, shape.timed, shape.numbered, hnone, fun r hr hvoid => ?_,
      fun _ _ _ hne => absurd hnone hne⟩
    · have hstale := shape.void r hr hvoid
      rw [planned] at hstale
      cases hstale
  | @dispatch _ runs run ready due fresh =>
    obtain ⟨hstatus, hcompleted, hcreated, hattempt⟩ := fresh
    refine ⟨sound, ?_, ?_, ?_, ?_, ?_⟩
    · intro r₀ hr₀
      rcases List.mem_append.mp hr₀ with hr₀ | hr₀
      · exact shape.timed r₀ hr₀
      · rw [List.mem_singleton] at hr₀
        rw [hr₀, hstatus, hcompleted]
        rfl
    · rw [List.map_append, shape.numbered, List.length_append, List.length_singleton,
        List.range'_concat, List.map_cons, List.map_nil, hattempt]
      simp only [Nat.one_mul, Nat.add_comm]
    · exact ⟨run, by simp, rfl⟩
    · intro r₀ hr₀ hvoid
      rcases List.mem_append.mp hr₀ with hr₀ | hr₀
      · have hstale := shape.void r₀ hr₀ hvoid
        rw [ready] at hstale
        cases hstale
      · rw [List.mem_singleton.mp hr₀, hstatus] at hvoid
        cases hvoid
    · intro r₀ hlast hswept
      rw [List.getLast?_append, List.getLast?_singleton, Option.some_or, Option.some.injEq] at hlast
      simp [← hlast, sweptRun, hstatus] at hswept
  | @touch _ runs p f same open_ =>
    refine ⟨sound, ?_, ?_, shape.stands.touch same, ?_, ?_⟩
    · intro r' hr'
      rcases Table.update_cases hr' with ⟨r, hr, hp, rfl⟩ | ⟨hr, -⟩
      · obtain ⟨hlive, hlive', hcompleted⟩ := open_ r hr hp
        rw [hlive', hcompleted, ← shape.timed r hr, hlive]
      · exact shape.timed r' hr
    · rw [Table.keys_update (fun r hr hp => (same r hr hp).attempt), Table.update, List.length_map]
      exact shape.numbered
    · intro r' hr' hvoid
      rcases Table.update_cases hr' with ⟨r, hr, hp, rfl⟩ | ⟨hr, -⟩
      · have hlive := (open_ r hr hp).2.1
        cases hst : (f r).status <;> simp_all [void, RunStatus.live]
      · exact shape.void r' hr hvoid
    · intro r' hlast hswept hne
      unfold Table.update at hlast
      rw [List.getLast?_map, Option.map_eq_some_iff] at hlast
      obtain ⟨r, hlast, rfl⟩ := hlast
      cases hp : p r with
      | true =>
        have hlive := (open_ r (List.mem_of_getLast? hlast) hp).2.1
        simp only [hp, if_true, sweptRun, Bool.and_eq_true, beq_iff_eq] at hswept
        rw [hswept.1] at hlive
        cases hlive
      | false =>
        simp only [hp, Bool.false_eq_true, if_false] at hswept ⊢
        exact shape.swept r hlast hswept hne
  | settle underway live same ended stale swept settled current accepted id plan =>
    refine ⟨sound, timed_close shape.timed ended.1 _ ended.2, numbered_close shape.numbered same, ?_,
      void_close shape.void underway stale, ?_⟩
    rotate_left
    · intro r₀ hlast
      rw [List.getLast?_append, List.getLast?_singleton, Option.some_or, Option.some.injEq] at hlast
      exact hlast ▸ swept
    have hstands := (shape.atLast_of_underway underway).close same current
    unfold Stands
    rcases settled with ⟨h, -⟩ | h | h
    · rw [h]
      exact hstands
    · rw [h]
      exact hstands
    · rw [h]
      exact .inr hstands
  | retry underway live same ended stale first ready current put accepted id plan =>
    refine ⟨sound, timed_close shape.timed ended.1 _ ended.2, numbered_close shape.numbered same, ?_,
      void_close shape.void underway stale, fun _ _ _ hne => absurd current hne⟩
    simp only [Stands, ready]
    exact current
  | shelve idle =>
    have hnone : step.currentAgentRunId = none := by
      have stands := shape.stands
      unfold Stands at stands
      rcases idle with h | h
      · simpa only [h] using stands
      · simpa only [h] using stands
    exact ⟨sound, shape.timed, shape.numbered, .inl hnone, fun _ _ _ => rfl,
      fun _ _ _ hne => absurd hnone hne⟩
  | resettle turn failed =>
    refine ⟨sound, shape.timed, shape.numbered, ?_, shape.void, shape.swept⟩
    have stands := shape.stands
    simp only [Stands, failed] at stands ⊢
    exact stands

theorem Shape.ended_of_settled (shape : Shape step runs)
    (h : step.status = .succeeded ∨ step.status = .failed ∨ step.status = .stale) :
    ∀ r ∈ runs, r.status.live = false := by
  intro r hr
  have sound := shape.sound
  simp only [Task.Sound, task, phase_of_settled h] at sound
  have hended := sound.1 _ (List.mem_map_of_mem hr)
  rw [shape.timed r hr]
  exact Option.isNone_eq_false_iff.mpr hended

/-- A run that is still live is the last one, and the step is underway at it. -/
theorem Shape.of_live (shape : Shape step runs) (hr : r ∈ runs) (live : r.status.live = true) :
    step.status.underway = true ∧ step.currentAgentRunId = some r.id ∧
      ∃ earlier, runs = earlier ++ [r] ∧ ∀ r' ∈ earlier, r'.status.live = false := by
  have hopen : r.completedAt = none := by
    have htimed := shape.timed r hr
    rw [live] at htimed
    exact Option.isNone_iff_eq_none.mp htimed.symm
  have sound := shape.sound
  have not_ended : ¬ Attempts.AllEnded (runs.map RunRow.try_) := by
    intro h
    have hended := h _ (List.mem_map_of_mem hr)
    simp only [RunRow.try_, hopen, Option.isSome_none, Bool.false_eq_true] at hended
  have hphase : step.phase = .underway := by
    cases hp : step.phase with
    | underway => rfl
    | waiting =>
      simp only [Task.Sound, task, hp, List.map_eq_nil_iff] at sound
      subst sound
      cases hr
    | ready notBefore =>
      simp only [Task.Sound, task, hp] at sound
      exact absurd sound.1 not_ended
    | settled =>
      simp only [Task.Sound, task, hp] at sound
      exact absurd sound.1 not_ended
  have hunderway : step.status.underway = true := by
    unfold StepRow.phase at hphase
    cases hs : step.status <;> simp_all [StepStatus.underway]
  simp only [Task.Sound, task, hphase] at sound
  obtain ⟨tries, begun, heq, hended, -⟩ := sound
  obtain ⟨earlier, last, rfl, hearlier, hlast⟩ := List.map_eq_append_iff.mp heq
  obtain ⟨r₀, rfl, -⟩ := List.map_eq_singleton_iff.mp hlast
  have hclosed : ∀ r' ∈ earlier, r'.status.live = false := by
    intro r' hr'
    have h := hended _ (hearlier ▸ List.mem_map_of_mem hr')
    rw [shape.timed r' (List.mem_append_left _ hr')]
    exact Option.isNone_eq_false_iff.mpr h
  have hself : r = r₀ := by
    rcases List.mem_append.mp hr with hr | hr
    · rw [hclosed r hr] at live
      cases live
    · exact List.mem_singleton.mp hr
  subst hself
  obtain ⟨r₁, hlast, hcurrent⟩ := shape.atLast_of_underway hunderway
  rw [List.getLast?_append, List.getLast?_singleton, Option.some_or, Option.some.injEq] at hlast
  subst hlast
  exact ⟨hunderway, hcurrent, earlier, rfl, hclosed⟩

/-- Without the second turn, what is settled stays as it is, runs and all. -/
theorem Evolves.settled (h : Evolves turns now (step, runs) (step', runs')) (shape : Shape step runs)
    (once : ¬ turns .resettled)
    (settled : step.status = .succeeded ∨ step.status = .failed ∨ step.status = .stale) :
    step' = step ∧ runs' = runs := by
  have hidle : step.status.underway = true → False := by
    intro hu
    rcases settled with hs | hs | hs <;> simp [hs, StepStatus.underway] at hu
  cases h with
  | same => exact ⟨rfl, rfl⟩
  | promote planned => simp [planned] at settled
  | dispatch ready _ _ => simp [ready] at settled
  | touch same open_ =>
    refine ⟨rfl, Table.update_of_no_hit (fun r hr => ?_)⟩
    by_contra hp
    have hlive := (open_ r hr (by simpa using hp)).1
    rw [shape.ended_of_settled settled r hr] at hlive
    cases hlive
  | settle underway _ _ _ _ _ _ _ _ _ _ => exact (hidle underway).elim
  | retry underway _ _ _ _ _ _ _ _ _ _ _ => exact (hidle underway).elim
  | shelve idle => rcases idle with hs | hs <;> simp [hs] at settled
  | resettle turn _ => exact absurd turn once

/-- A run that has ended stays as it is. -/
theorem Evolves.ended (h : Evolves turns now (step, runs) (step', runs')) (hr : r ∈ runs)
    (ended : r.status.live = false) : r ∈ runs' := by
  cases h with
  | same | promote _ | shelve _ | resettle _ _ => exact hr
  | dispatch _ _ _ => exact List.mem_append_left _ hr
  | touch same open_ =>
    refine Table.mem_update_of_miss hr ?_
    by_contra hp
    have hlive := (open_ r hr (by simpa using hp)).1
    rw [ended] at hlive
    cases hlive
  | settle _ live _ _ _ _ _ _ _ _ _ =>
    rcases List.mem_append.mp hr with hr | hr
    · exact List.mem_append_left _ hr
    · rw [List.mem_singleton.mp hr, live] at ended
      cases ended
  | retry _ live _ _ _ _ _ _ _ _ _ _ =>
    rcases List.mem_append.mp hr with hr | hr
    · exact List.mem_append_left _ hr
    · rw [List.mem_singleton.mp hr, live] at ended
      cases ended

/-- Nothing that is settled is taken up again. -/
theorem Evolves.unsettled (h : Evolves turns now (step, runs) (step', runs'))
    (unsettled : step'.status.unsettled = true) : step.status.unsettled = true := by
  cases h with
  | same | touch _ _ | resettle _ _ => exact unsettled
  | promote planned => rw [planned]; rfl
  | dispatch ready _ _ => rw [ready]; rfl
  | settle _ _ _ _ _ _ settled _ _ _ _ => rcases settled with hs | hs | hs <;> simp [hs, StepStatus.unsettled] at unsettled
  | retry underway _ _ _ _ _ _ _ _ _ _ _ =>
    cases hs : step.status <;> simp_all [StepStatus.underway, StepStatus.unsettled]
  | shelve idle => rcases idle with hs | hs <;> rw [hs] <;> rfl

theorem Evolves.status_of_settled (h : Evolves turns now (step, runs) (step', runs'))
    (settled : step.status.unsettled = false) : step'.status = step.status := by
  have hidle : step.status.underway = true → False := by
    cases hs : step.status <;> simp_all [StepStatus.unsettled, StepStatus.underway]
  cases h with
  | same | touch _ _ | resettle _ _ => rfl
  | promote planned => simp [planned, StepStatus.unsettled] at settled
  | dispatch ready _ _ => simp [ready, StepStatus.unsettled] at settled
  | settle underway _ _ _ _ _ _ _ _ _ _ => exact (hidle underway).elim
  | retry underway _ _ _ _ _ _ _ _ _ _ _ => exact (hidle underway).elim
  | shelve idle => rcases idle with hs | hs <;> simp [hs, StepStatus.unsettled] at settled

theorem unsettled_of_done (h : step.status.done = true) : step.status.unsettled = false := by
  cases hs : step.status <;> simp_all [StepStatus.done, StepStatus.unsettled]

theorem Evolves.done (h : Evolves turns now (step, runs) (step', runs'))
    (done : step.status.done = true) : step'.status.done = true := by
  rw [h.status_of_settled (unsettled_of_done done)]
  exact done

/-- A step is done only where a result is taken. -/
theorem Evolves.undone (h : Evolves turns now (step, runs) (step', runs')) (no : ¬turns .succeeded)
    (done : step'.status.done = true) : step.status.done = true := by
  cases h with
  | same | touch _ _ | resettle _ _ => exact done
  | promote _ | dispatch _ _ _ | shelve _ => cases done
  | settle _ _ _ _ _ _ settled _ _ _ _ =>
    rcases settled with ⟨-, hturn⟩ | hs | hs
    · exact absurd hturn no
    · rw [hs] at done
      cases done
    · rw [hs] at done
      cases done
  | retry _ _ _ _ _ _ ready _ _ _ _ _ =>
    rw [ready] at done
    cases done

theorem Evolves.planned (h : Evolves turns now (step, runs) (step', runs'))
    (planned : step'.status = .planned) : step.status = .planned := by
  cases h with
  | same | touch _ _ | resettle _ _ => exact planned
  | promote _ => cases planned
  | dispatch _ _ _ => cases planned
  | settle _ _ _ _ _ _ settled _ _ _ _ => simp [planned] at settled
  | retry _ _ _ _ _ _ ready _ _ _ _ _ => rw [ready] at planned; cases planned
  | shelve _ => cases planned

end Solvan.Investigation
