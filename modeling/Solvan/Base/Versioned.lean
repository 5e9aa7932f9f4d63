import Mathlib.Data.List.Range
import Mathlib.Logic.Function.Basic
import Solvan.Base.Claims
import Solvan.Base.Machine

/-! Aggregates with a version, a state and a lease, which only the holder of the
lease moves on, and the history of all that was done to them. -/
namespace Versioned
open Claims (Hold)

structure Aggregate (σ ι τ : Type) where
  version : Nat
  state : σ
  lease : Option (Hold ι τ)

/-- A change of one aggregate. -/
structure Entry (κ σ : Type) where
  key : κ
  fromState : σ
  toState : σ
  fromVersion : Nat
  toVersion : Nat
deriving DecidableEq

inductive Record (κ σ ι τ : Type) where
  | acquired (key : κ) (hold : Hold ι τ)
  | released (key : κ)
  | committed (entry : Entry κ σ) (owner : ι) (token : τ) (moment : Int)

/-- Newest first. -/
abbrev History (κ σ ι τ : Type) := List (Record κ σ ι τ)

variable {κ σ ι τ : Type} [DecidableEq κ] {k : κ} {v v₀ : Nat} {st st₀ : σ}
  {entries : List (Entry κ σ)} {entry : Entry κ σ} {history : History κ σ ι τ}

/-- The changes of all aggregates, oldest first. -/
def changes : History κ σ ι τ → List (Entry κ σ)
  | [] => []
  | .committed entry _ _ _ :: rest => changes rest ++ [entry]
  | _ :: rest => changes rest

/-- The changes of one aggregate, oldest first. -/
def ledger (k : κ) (history : History κ σ ι τ) : List (Entry κ σ) :=
  (changes history).filter (fun entry => entry.key = k)

/-- The lease last acquired on an aggregate and not released since. -/
def holder (k : κ) : History κ σ ι τ → Option (Hold ι τ)
  | [] => none
  | .acquired key hold :: rest => if key = k then some hold else holder k rest
  | .released key :: rest => if key = k then none else holder k rest
  | .committed _ _ _ _ :: rest => holder k rest

/-- Every change was committed by whoever held the aggregate, while the lease lasted. -/
def Fenced : History κ σ ι τ → Prop
  | [] => True
  | .committed entry owner token moment :: rest =>
    (∃ hold, holder entry.key rest = some hold ∧ hold.LiveFor moment owner token) ∧ Fenced rest
  | _ :: rest => Fenced rest

/-- Changes that take an aggregate from one version and state to another,
without a gap. -/
inductive Runs (v₀ : Nat) (st₀ : σ) : List (Entry κ σ) → Nat → σ → Prop where
  | nil : Runs v₀ st₀ [] v₀ st₀
  | snoc {entries : List (Entry κ σ)} {v : Nat} {st : σ} (k : κ) (st' : σ)
      (runs : Runs v₀ st₀ entries v st) : Runs v₀ st₀ (entries ++ [⟨k, st, st', v, v + 1⟩]) (v + 1) st'

omit [DecidableEq κ] in
theorem Runs.version (h : Runs v₀ st₀ entries v st) : v = v₀ + entries.length := by
  induction h with
  | nil => rfl
  | snoc k st' _ ih =>
    rw [List.length_append, List.length_singleton]
    omega

omit [DecidableEq κ] in
/-- The versions reached are consecutive, from the first one on. -/
theorem Runs.versions (h : Runs v₀ st₀ entries v st) :
    entries.map Entry.toVersion = List.range' (v₀ + 1) entries.length := by
  induction h with
  | nil => rfl
  | snoc k st' runs ih =>
    have hv := runs.version
    rw [List.map_append, ih, List.length_append, List.length_singleton, List.range'_concat]
    congr 1
    simp only [List.map_cons, List.map_nil, hv]
    congr 1
    omega

omit [DecidableEq κ] in
/-- Where the changes end is where the aggregate is. -/
theorem Runs.last (h : Runs v₀ st₀ entries v st) :
    (entries.getLast?.map (fun e => (e.toVersion, e.toState))).getD (v₀, st₀) = (v, st) := by
  cases h with
  | nil => rfl
  | snoc k st' runs => simp

omit [DecidableEq κ] in
/-- Each change starts where the one before it ended. -/
theorem Runs.chain (h : Runs v₀ st₀ entries v st) :
    entries.IsChain (fun e e' => e'.fromState = e.toState ∧ e'.fromVersion = e.toVersion) := by
  induction h with
  | nil => exact .nil
  | snoc k st' runs ih =>
    refine List.isChain_append.mpr ⟨ih, .singleton _, ?_⟩
    intro e he e' he'
    have hlast := runs.last
    simp only [Option.mem_def] at he he'
    rw [he] at hlast
    simp only [List.head?_cons, Option.some.injEq] at he'
    subst he'
    simp only [Option.map_some, Option.getD_some, Prod.mk.injEq] at hlast
    exact ⟨hlast.2.symm, hlast.1.symm⟩

omit [DecidableEq κ] in
theorem Runs.first (h : Runs v₀ st₀ entries v st) :
    ∀ e ∈ entries.head?, e.fromState = st₀ ∧ e.fromVersion = v₀ := by
  induction h with
  | nil => simp
  | snoc k st' runs ih =>
    intro e he
    cases runs with
    | nil =>
      simp only [List.nil_append, List.head?_cons, Option.mem_def, Option.some.injEq] at he
      subst he
      exact ⟨rfl, rfl⟩
    | snoc k₁ st₁ runs₁ =>
      refine ih e ?_
      simpa using he

/-- The aggregates, what each began as, and their history. -/
structure System (κ σ ι τ : Type) where
  row : κ → Option (Aggregate σ ι τ)
  origin : κ → Option (Nat × σ)
  history : History κ σ ι τ

variable {s s' : System κ σ ι τ} {a : Aggregate σ ι τ}

def System.put (s : System κ σ ι τ) (k : κ) (a : Aggregate σ ι τ) : System κ σ ι τ :=
  { s with row := Function.update s.row k (some a) }

/-- What creates an aggregate, leases it, gives a lease up, or moves on what is
held by a live lease. -/
inductive Step (s : System κ σ ι τ) : System κ σ ι τ → Prop where
  | create {k : κ} (v : Nat) (st : σ) (new : s.row k = none) :
      Step s { s.put k ⟨v, st, none⟩ with
        origin := Function.update s.origin k (some (v, st)) }
  | acquire {k : κ} {a : Aggregate σ ι τ} (hold : Hold ι τ) (here : s.row k = some a) :
      Step s { s.put k { a with lease := some hold } with
        history := .acquired k hold :: s.history }
  | release {k : κ} {a : Aggregate σ ι τ} (here : s.row k = some a) :
      Step s { s.put k { a with lease := none } with
        history := .released k :: s.history }
  | commit {k : κ} {a : Aggregate σ ι τ} {hold : Hold ι τ} {moment : Int} {owner : ι} {token : τ}
      (st : σ) (here : s.row k = some a) (held : a.lease = some hold)
      (live : hold.LiveFor moment owner token) :
      Step s { s.put k { a with version := a.version + 1, state := st } with
        history := .committed ⟨k, a.state, st, a.version, a.version + 1⟩ owner token moment ::
          s.history }

/-- What the history says of an aggregate, or of one that is not there. -/
def Recorded (history : History κ σ ι τ) (k : κ) (origin : Option (Nat × σ)) :
    Option (Aggregate σ ι τ) → Prop
  | none => ledger k history = [] ∧ holder k history = none
  | some a => holder k history = a.lease ∧
    ∃ v st, origin = some (v, st) ∧ Runs v st (ledger k history) a.version a.state

structure Sound (s : System κ σ ι τ) : Prop where
  recorded : ∀ k, Recorded s.history k (s.origin k) (s.row k)
  fenced : Fenced s.history

/-- A record about one aggregate says nothing of the others. -/
theorem Recorded.of_eq {history' : History κ σ ι τ} {origin : Option (Nat × σ)}
    {row : Option (Aggregate σ ι τ)} (h : Recorded history k origin row)
    (hledger : ledger k history' = ledger k history)
    (hholder : holder k history' = holder k history) : Recorded history' k origin row := by
  cases row with
  | none => exact ⟨hledger.trans h.1, hholder.trans h.2⟩
  | some a =>
    obtain ⟨hheld, v, st, horigin, runs⟩ := h
    exact ⟨hholder.trans hheld, v, st, horigin, hledger.symm ▸ runs⟩

theorem ledger_committed (k : κ) (entry : Entry κ σ) (owner : ι) (token : τ) (moment : Int)
    (history : History κ σ ι τ) :
    ledger k (.committed entry owner token moment :: history) =
      ledger k history ++ if entry.key = k then [entry] else [] := by
  simp only [ledger, changes, List.filter_append, List.filter_cons, List.filter_nil,
    decide_eq_true_eq]

/-- One aggregate changes, and what is recorded about the others stands. -/
theorem Sound.put {record : Record κ σ ι τ} (h : Sound s)
    (self : Recorded (record :: s.history) k (s.origin k) (some a))
    (hledger : ∀ k', k' ≠ k → ledger k' (record :: s.history) = ledger k' s.history)
    (hholder : ∀ k', k' ≠ k → holder k' (record :: s.history) = holder k' s.history)
    (fenced : Fenced (record :: s.history)) :
    Sound { s.put k a with history := record :: s.history } := by
  refine ⟨fun k' => ?_, fenced⟩
  by_cases hk : k' = k
  · subst hk
    simpa only [System.put, Function.update_self] using self
  · simpa only [System.put, Function.update_of_ne hk] using
      (h.recorded k').of_eq (hledger k' hk) (hholder k' hk)

theorem Step.sound (step : Step s s') (h : Sound s) : Sound s' := by
  cases step with
  | @create k v st new =>
    refine ⟨fun k' => ?_, h.fenced⟩
    by_cases hk : k' = k
    · subst hk
      have hold := h.recorded k'
      rw [new] at hold
      simp only [System.put, Function.update_self]
      exact ⟨hold.2, v, st, rfl, hold.1.symm ▸ .nil⟩
    · simpa only [System.put, Function.update_of_ne hk] using h.recorded k'
  | @acquire k a hold here =>
    have hrec := h.recorded k
    rw [here] at hrec
    refine h.put ⟨?_, hrec.2⟩ (fun _ _ => rfl) (fun k' hk => ?_) h.fenced
    · simp [holder]
    · simp [holder, Ne.symm hk]
  | @release k a here =>
    have hrec := h.recorded k
    rw [here] at hrec
    refine h.put ⟨?_, hrec.2⟩ (fun _ _ => rfl) (fun k' hk => ?_) h.fenced
    · simp [holder]
    · simp [holder, Ne.symm hk]
  | @commit k a hold moment owner token st here held live =>
    have hrec := h.recorded k
    rw [here] at hrec
    obtain ⟨hheld, v, st₀, horigin, runs⟩ := hrec
    refine h.put ⟨hheld, v, st₀, horigin, ?_⟩ (fun k' hk => ?_) (fun _ _ => rfl) ?_
    · rw [ledger_committed, if_pos rfl]
      exact runs.snoc k st
    · rw [ledger_committed, if_neg (Ne.symm hk), List.append_nil]
    · exact ⟨⟨hold, hheld.trans held, live⟩, h.fenced⟩

theorem Sound.runs (h : Sound s) (here : s.row k = some a) :
    ∃ v st, s.origin k = some (v, st) ∧ Runs v st (ledger k s.history) a.version a.state := by
  have hrec := h.recorded k
  rw [here] at hrec
  exact hrec.2

/-- A change that was made by whoever held the aggregate just before it. -/
def CommittedByHolder (history : History κ σ ι τ) (entry : Entry κ σ) : Prop :=
  ∃ (later earlier : History κ σ ι τ) (owner : ι) (token : τ) (moment : Int) (hold : Hold ι τ),
    history = later ++ .committed entry owner token moment :: earlier ∧
      holder entry.key earlier = some hold ∧ hold.LiveFor moment owner token

theorem CommittedByHolder.cons (h : CommittedByHolder history entry) (record : Record κ σ ι τ) :
    CommittedByHolder (record :: history) entry := by
  obtain ⟨later, earlier, owner, token, moment, hold, heq, held⟩ := h
  exact ⟨record :: later, earlier, owner, token, moment, hold, by rw [heq, List.cons_append], held⟩

theorem Fenced.committedByHolder (h : Fenced history) (he : entry ∈ changes history) :
    CommittedByHolder history entry := by
  induction history with
  | nil => cases he
  | cons record history ih =>
    cases record with
    | acquired key hold => exact (ih h he).cons _
    | released key => exact (ih h he).cons _
    | committed entry' owner token moment =>
      rcases List.mem_append.mp he with he | he
      · exact (ih h.2 he).cons _
      · obtain ⟨hold, held, live⟩ := h.1
        rw [List.mem_singleton] at he
        subst he
        exact ⟨[], history, owner, token, moment, hold, rfl, held, live⟩

/-- No version of an aggregate is reached twice. -/
theorem nodup_versions {all : List (Entry κ σ)}
    (h : ∀ k, ((all.filter (fun e => e.key = k)).map Entry.toVersion).Nodup) :
    (all.map (fun e => (e.key, e.toVersion))).Nodup := by
  induction all with
  | nil => exact .nil
  | cons entry all ih =>
    rw [List.map_cons, List.nodup_cons]
    constructor
    · intro hm
      obtain ⟨entry', hm, he⟩ := List.mem_map.mp hm
      simp only [Prod.mk.injEq] at he
      have hk := h entry.key
      simp only [List.filter_cons, decide_true, if_true, List.map_cons, List.nodup_cons] at hk
      refine hk.1 (List.mem_map.mpr ⟨entry', List.mem_filter.mpr ⟨hm, ?_⟩, he.2⟩)
      simp [he.1]
    · refine ih (fun k => (h k).sublist ?_)
      exact ((List.sublist_cons_self entry all).filter _).map _

theorem Sound.nodup_versions (h : Sound s) :
    ((changes s.history).map (fun e => (e.key, e.toVersion))).Nodup := by
  refine Versioned.nodup_versions (fun k => ?_)
  cases here : s.row k with
  | none =>
    have hrec := h.recorded k
    rw [here] at hrec
    have hnone : (changes s.history).filter (fun e => e.key = k) = [] := hrec.1
    rw [hnone]
    exact .nil
  | some a =>
    obtain ⟨v, st, -, runs⟩ := h.runs here
    have hversions := runs.versions
    unfold ledger at hversions
    rw [hversions]
    exact List.nodup_range'

/-- Every change is of an aggregate that is there, and leaves its first version. -/
theorem Sound.later (h : Sound s) (he : entry ∈ changes s.history) :
    ∃ a v st, s.row entry.key = some a ∧ s.origin entry.key = some (v, st) ∧
      v < entry.toVersion := by
  have hm : entry ∈ ledger entry.key s.history := List.mem_filter.mpr ⟨he, by simp⟩
  cases here : s.row entry.key with
  | none =>
    have hrec := h.recorded entry.key
    rw [here] at hrec
    rw [hrec.1] at hm
    cases hm
  | some a =>
    obtain ⟨v, st, origin, runs⟩ := h.runs here
    have hversion := List.mem_map_of_mem (f := Entry.toVersion) hm
    rw [runs.versions, List.mem_range'_1] at hversion
    exact ⟨a, v, st, rfl, origin, hversion.1⟩

/-- Aggregates with a history, from before the first one is created. -/
def machine : Machine (System κ σ ι τ) Unit where
  start s := (∀ k, s.row k = none) ∧ (∀ k, s.origin k = none) ∧ s.history = []
  step s _ s' := Step s s'

theorem sound_of_reach (h : (machine (κ := κ) (σ := σ) (ι := ι) (τ := τ)).Reach s) : Sound s := by
  refine h.invariant (I := Sound) ?_ (fun s _ s' _ sound step => Step.sound step sound)
  rintro s ⟨hrow, horigin, hhistory⟩
  refine ⟨fun k => ?_, ?_⟩
  · rw [hrow k, hhistory]
    exact ⟨rfl, rfl⟩
  · rw [hhistory]
    trivial

end Versioned
