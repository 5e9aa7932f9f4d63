import Mathlib.Data.List.Chain

/-! Tasks worked on in attempts, of which there is a limit, and which are put
off for a while after one has ended without a result. -/
namespace Attempts

structure Try where
  begun : Int
  ended : Option Int
deriving DecidableEq

inductive Phase where
  | waiting
  | ready (notBefore : Option Int)
  | underway
  | settled
deriving DecidableEq

structure Task where
  phase : Phase
  tries : List Try

variable {limit : Nat} {now : Int} {puts : Option Int → Prop} {task task' : Task}
  {tries : List Try} {t : Try}

/-- What may become of a task at a moment, where `puts` says how far retries are
put off. -/
inductive Step (limit : Nat) (puts : Option Int → Prop) (now : Int) : Task → Task → Prop where
  | rest {task : Task} : Step limit puts now task task
  | release {tries : List Try} (notBefore : Option Int) :
      Step limit puts now ⟨.waiting, tries⟩ ⟨.ready notBefore, tries⟩
  | start {notBefore : Option Int} {tries : List Try} (due : ∀ moment ∈ notBefore, moment ≤ now) :
      Step limit puts now ⟨.ready notBefore, tries⟩ ⟨.underway, tries ++ [⟨now, none⟩]⟩
  | retry {tries : List Try} {begun : Int} (notBefore : Option Int)
      (left : tries.length + 1 < limit) (put : puts notBefore) :
      Step limit puts now ⟨.underway, tries ++ [⟨begun, none⟩]⟩
        ⟨.ready notBefore, tries ++ [⟨begun, some now⟩]⟩
  | settle {tries : List Try} {begun : Int} (ended : Int) :
      Step limit puts now ⟨.underway, tries ++ [⟨begun, none⟩]⟩
        ⟨.settled, tries ++ [⟨begun, some ended⟩]⟩
  | drop {phase : Phase} {tries : List Try} (idle : phase ≠ .underway) :
      Step limit puts now ⟨phase, tries⟩ ⟨.settled, tries⟩

def AllEnded (tries : List Try) : Prop := ∀ t ∈ tries, t.ended.isSome

/-- At most one attempt is open, only while the task is underway, and there are
never more than the limit. -/
def Task.Sound (limit : Nat) (task : Task) : Prop :=
  match task.phase with
  | .waiting => task.tries = []
  | .ready _ => AllEnded task.tries ∧ task.tries.length < limit
  | .underway => ∃ tries begun, task.tries = tries ++ [⟨begun, none⟩] ∧ AllEnded tries ∧
      tries.length < limit
  | .settled => AllEnded task.tries ∧ task.tries.length ≤ limit

theorem AllEnded.snoc (h : AllEnded tries) (ht : t.ended.isSome) : AllEnded (tries ++ [t]) := by
  intro t' hm
  rcases List.mem_append.mp hm with hm | hm
  · exact h t' hm
  · rw [List.mem_singleton] at hm
    exact hm ▸ ht

/-- The open attempt is the last one. -/
theorem Task.Sound.of_underway {begun : Int}
    (h : Task.Sound limit ⟨.underway, tries ++ [⟨begun, none⟩]⟩) :
    AllEnded tries ∧ tries.length < limit := by
  obtain ⟨tries', begun', heq, hended, hlen⟩ := h
  obtain ⟨rfl, -⟩ := List.append_inj' heq rfl
  exact ⟨hended, hlen⟩

theorem Task.Sound.length_le (h : task.Sound limit) : task.tries.length ≤ limit := by
  obtain ⟨phase, tries⟩ := task
  cases phase with
  | waiting =>
    have htries : tries = [] := h
    simp [htries]
  | ready notBefore => exact Nat.le_of_lt h.2
  | underway =>
    obtain ⟨tries', begun, heq, -, hlen⟩ := h
    have heq : tries = tries' ++ [⟨begun, none⟩] := heq
    rw [heq, List.length_append, List.length_singleton]
    exact hlen
  | settled => exact h.2

theorem Step.sound (step : Step limit puts now task task') (positive : 0 < limit)
    (h : task.Sound limit) : task'.Sound limit := by
  cases step with
  | rest => exact h
  | release notBefore =>
    have htries : _ = [] := h
    subst htries
    exact ⟨fun t ht => (nomatch ht), positive⟩
  | start due => exact ⟨_, now, rfl, h.1, h.2⟩
  | retry notBefore left put =>
    have hopen := h.of_underway
    refine ⟨hopen.1.snoc rfl, ?_⟩
    rw [List.length_append, List.length_singleton]
    exact left
  | settle ended =>
    have hopen := h.of_underway
    refine ⟨hopen.1.snoc rfl, ?_⟩
    rw [List.length_append, List.length_singleton]
    exact hopen.2
  | @drop phase tries idle =>
    cases phase with
    | waiting =>
      have htries : tries = [] := h
      subst htries
      exact ⟨fun t ht => (nomatch ht), Nat.zero_le _⟩
    | ready notBefore => exact ⟨h.1, Nat.le_of_lt h.2⟩
    | underway => exact absurd rfl idle
    | settled => exact h

/-- A retry may be made no sooner than `backoff` from now. -/
def PutsOff (backoff now : Int) (notBefore : Option Int) : Prop :=
  ∃ moment, notBefore = some moment ∧ now + backoff ≤ moment

/-- One attempt follows another no sooner than `backoff` after its end. -/
def Follows (backoff : Int) (t t' : Try) : Prop :=
  ∃ ended, t.ended = some ended ∧ ended + backoff ≤ t'.begun

/-- All attempts so far were put off, and so will the next one be. -/
structure Task.PutOff (backoff : Int) (task : Task) : Prop where
  chain : task.tries.IsChain (Follows backoff)
  next : ∀ notBefore, task.phase = .ready notBefore → ∀ t ∈ task.tries.getLast?,
    ∃ ended, t.ended = some ended ∧ PutsOff backoff ended notBefore

theorem isChain_snoc {backoff : Int} (h : tries.IsChain (Follows backoff))
    (last : ∀ t' ∈ tries.getLast?, Follows backoff t' t) :
    (tries ++ [t]).IsChain (Follows backoff) := by
  refine List.isChain_append.mpr ⟨h, .singleton _, ?_⟩
  intro t' ht' t'' ht''
  obtain rfl : t = t'' := by simpa using ht''
  exact last t' ht'

/-- How the last attempt ended does not matter for those before it. -/
theorem isChain_close {backoff begun : Int} {ended ended' : Option Int}
    (h : (tries ++ [Try.mk begun ended]).IsChain (Follows backoff)) :
    (tries ++ [Try.mk begun ended']).IsChain (Follows backoff) := by
  obtain ⟨hinit, -, hlast⟩ := List.isChain_append.mp h
  refine isChain_snoc hinit (fun t' ht' => ?_)
  exact hlast t' ht' ⟨begun, ended⟩ rfl

theorem Step.putOff {backoff : Int} (step : Step limit (PutsOff backoff now) now task task')
    (sound : task.Sound limit) (h : task.PutOff backoff) : task'.PutOff backoff := by
  cases step with
  | rest => exact h
  | release notBefore =>
    have htries : _ = [] := sound
    subst htries
    exact ⟨.nil, fun _ _ t ht => nomatch ht⟩
  | @start notBefore tries due =>
    refine ⟨isChain_snoc h.chain (fun t ht => ?_), fun _ hp => nomatch hp⟩
    obtain ⟨ended, he, moment, hm, hput⟩ := h.next notBefore rfl t ht
    exact ⟨ended, he, Int.le_trans hput (due moment hm)⟩
  | @retry tries begun notBefore left put =>
    refine ⟨isChain_close h.chain, fun notBefore' hp t ht => ?_⟩
    cases hp
    rw [List.getLast?_append, List.getLast?_singleton, Option.some_or, Option.mem_def,
      Option.some.injEq] at ht
    subst ht
    exact ⟨now, rfl, put⟩
  | settle ended => exact ⟨isChain_close h.chain, fun _ hp => nomatch hp⟩
  | drop idle => exact ⟨h.chain, fun _ hp => nomatch hp⟩

end Attempts
