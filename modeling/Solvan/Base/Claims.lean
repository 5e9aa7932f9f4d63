import Solvan.Base.Table

/-! Bounded, token-fenced claims on items of work. A claim is held by an owner
under a token until it expires. An item whose claim has lapsed is up for the
next claim until its budget of claims is spent. -/
namespace Claims

structure Hold (ι τ : Type) where
  owner : ι
  token : τ
  expires : Int
deriving DecidableEq, Repr

inductive Phase (ι τ ω : Type) where
  | free
  | held (hold : Hold ι τ)
  | done (outcome : ω)
deriving DecidableEq, Repr

structure Item (ι τ ω : Type) where
  attempts : Nat
  phase : Phase ι τ ω
deriving DecidableEq, Repr

/-- `retire` is completion by some other authority while nobody holds the item. -/
inductive Event (ι τ ω : Type) where
  | claim (hold : Hold ι τ)
  | extend (owner : ι) (token : τ) (expires : Int)
  | finish (owner : ι) (token : τ) (outcome : ω)
  | giveBack (owner : ι) (token : τ) (refund : Bool)
  | retire (outcome : ω)
  | park (outcome : ω)
deriving DecidableEq, Repr

variable {ι τ ω : Type} {budget : Nat} {now : Int} {item item' : Item ι τ ω}
  {event : Event ι τ ω}

def Phase.Available (now : Int) : Phase ι τ ω → Prop
  | .free => True
  | .held hold => hold.expires < now
  | .done _ => False

def Hold.LiveFor (now : Int) (owner : ι) (token : τ) (hold : Hold ι τ) : Prop :=
  hold.owner = owner ∧ hold.token = token ∧ now ≤ hold.expires

/-- What may happen to an item at a moment. -/
inductive Step (budget : Nat) (now : Int) : Item ι τ ω → Event ι τ ω → Item ι τ ω → Prop where
  | claim {n : Nat} {phase : Phase ι τ ω} (hold : Hold ι τ) (open_ : phase.Available now)
      (left : n < budget) : Step budget now ⟨n, phase⟩ (.claim hold) ⟨n + 1, .held hold⟩
  | extend {n : Nat} {hold : Hold ι τ} {owner : ι} {token : τ} (expires : Int)
      (live : hold.LiveFor now owner token) :
      Step budget now ⟨n, .held hold⟩ (.extend owner token expires)
        ⟨n, .held { hold with expires }⟩
  | finish {n : Nat} {hold : Hold ι τ} {owner : ι} {token : τ} (outcome : ω)
      (live : hold.LiveFor now owner token) :
      Step budget now ⟨n, .held hold⟩ (.finish owner token outcome) ⟨n, .done outcome⟩
  | giveBack {n : Nat} {hold : Hold ι τ} {owner : ι} {token : τ} (refund : Bool)
      (live : hold.LiveFor now owner token) :
      Step budget now ⟨n, .held hold⟩ (.giveBack owner token refund)
        ⟨if refund then n - 1 else n, .free⟩
  | retire {n : Nat} {phase : Phase ι τ ω} (outcome : ω) (open_ : phase.Available now) :
      Step budget now ⟨n, phase⟩ (.retire outcome) ⟨n, .done outcome⟩
  | park {n : Nat} {phase : Phase ι τ ω} (outcome : ω) (open_ : phase.Available now)
      (spent : budget ≤ n) : Step budget now ⟨n, phase⟩ (.park outcome) ⟨n, .done outcome⟩

/-- Nothing happens to an item that is done. -/
theorem Step.not_done {outcome : ω} (h : Step budget now item event item') :
    item.phase ≠ .done outcome := by
  intro hd
  cases h with
  | extend expires live | finish outcome live | giveBack refund live => cases hd
  | claim hold open_ left => cases hd; exact open_
  | retire outcome open_ | park outcome open_ spent => cases hd; exact open_

/-- How an item comes to be done. -/
theorem Step.done_cases {outcome : ω} (h : Step budget now item event item')
    (hd : item'.phase = .done outcome) :
    (∃ owner token, event = .finish owner token outcome) ∨ event = .retire outcome ∨
      (event = .park outcome ∧ budget ≤ item'.attempts) := by
  cases h with
  | claim hold open_ left | extend expires live | giveBack refund live => cases hd
  | finish outcome live => cases hd; exact .inl ⟨_, _, rfl⟩
  | retire outcome open_ => cases hd; exact .inr (.inl rfl)
  | park outcome open_ spent => cases hd; exact .inr (.inr ⟨rfl, spent⟩)

/-- What has happened to one item, newest first. -/
abbrev Log (ι τ ω : Type) := List (Int × Event ι τ ω)

def claims : Log ι τ ω → Nat
  | [] => 0
  | (_, .claim _) :: log => claims log + 1
  | _ :: log => claims log

def refunds : Log ι τ ω → Nat
  | [] => 0
  | (_, .giveBack _ _ true) :: log => refunds log + 1
  | _ :: log => refunds log

def outcomes : Log ι τ ω → List ω
  | [] => []
  | (_, .finish _ _ outcome) :: log | (_, .retire outcome) :: log | (_, .park outcome) :: log =>
    outcome :: outcomes log
  | _ :: log => outcomes log

/-- The latest claim, with its extensions, unless it was given back or the item
is done. -/
def outstanding : Log ι τ ω → Option (Hold ι τ)
  | [] => none
  | (_, .claim hold) :: _ => some hold
  | (_, .extend _ _ expires) :: log => (outstanding log).map ({ · with expires })
  | _ :: _ => none

/-- The tokens claims were made under. -/
def tokens : Log ι τ ω → List τ
  | [] => []
  | (_, .claim hold) :: log => hold.token :: tokens log
  | _ :: log => tokens log

/-- When an event was in order, given what came before it. -/
def InOrder (budget : Nat) (now : Int) (log : Log ι τ ω) : Event ι τ ω → Prop
  | .claim _ => claims log < refunds log + budget ∧ ∀ hold ∈ outstanding log, hold.expires < now
  | .extend owner token _ | .finish owner token _ | .giveBack owner token _ =>
    ∃ hold, outstanding log = some hold ∧ hold.LiveFor now owner token
  | .retire _ => ∀ hold ∈ outstanding log, hold.expires < now
  | .park _ => refunds log + budget ≤ claims log ∧ ∀ hold ∈ outstanding log, hold.expires < now

/-- Every event of a log was in order when it happened. -/
def Sound (budget : Nat) : Log ι τ ω → Prop
  | [] => True
  | (now, event) :: log => InOrder budget now log event ∧ Sound budget log

/-- An item together with everything that has happened to it. -/
inductive Account (budget : Nat) : Item ι τ ω → Log ι τ ω → Prop where
  | fresh : Account budget ⟨0, .free⟩ []
  | step {item item' : Item ι τ ω} {log : Log ι τ ω} {now : Int} {event : Event ι τ ω}
      (h : Account budget item log) (move : Step budget now item event item') :
      Account budget item' ((now, event) :: log)

variable {log : Log ι τ ω}

/-- The phase of an item, read back from its log. -/
theorem Account.phase_cases (h : Account budget item log) :
    (item.phase = .free ∧ outstanding log = none ∧ outcomes log = []) ∨
    (∃ hold, item.phase = .held hold ∧ outstanding log = some hold ∧ outcomes log = []) ∨
    (∃ outcome, item.phase = .done outcome ∧ outstanding log = none ∧
      outcomes log = [outcome]) := by
  induction h with
  | fresh => exact .inl ⟨rfl, rfl, rfl⟩
  | step h move ih =>
    cases move with
    | claim hold open_ left =>
      rcases ih with ⟨-, -, ho⟩ | ⟨_, -, -, ho⟩ | ⟨_, hp, -⟩
      · exact .inr (.inl ⟨hold, rfl, rfl, ho⟩)
      · exact .inr (.inl ⟨hold, rfl, rfl, ho⟩)
      · cases hp; exact open_.elim
    | extend expires live => simp_all [outstanding, outcomes]
    | finish outcome live => simp_all [outstanding, outcomes]
    | giveBack refund live => simp_all [outstanding, outcomes]
    | retire outcome open_ =>
      rcases ih with ⟨-, -, ho⟩ | ⟨_, -, -, ho⟩ | ⟨_, hp, -⟩
      · exact .inr (.inr ⟨outcome, rfl, rfl, congrArg _ ho⟩)
      · exact .inr (.inr ⟨outcome, rfl, rfl, congrArg _ ho⟩)
      · cases hp; exact open_.elim
    | park outcome open_ spent =>
      rcases ih with ⟨-, -, ho⟩ | ⟨_, -, -, ho⟩ | ⟨_, hp, -⟩
      · exact .inr (.inr ⟨outcome, rfl, rfl, congrArg _ ho⟩)
      · exact .inr (.inr ⟨outcome, rfl, rfl, congrArg _ ho⟩)
      · cases hp; exact open_.elim

theorem Account.outstanding_held {hold : Hold ι τ} (h : Account budget item log)
    (hp : item.phase = .held hold) : outstanding log = some hold := by
  rcases h.phase_cases with ⟨hf, -⟩ | ⟨hold', hh, ho, -⟩ | ⟨_, hd, -⟩
  · rw [hf] at hp; cases hp
  · rw [hh] at hp; cases hp; exact ho
  · rw [hd] at hp; cases hp

/-- What is open to the next claim has no live claim outstanding. -/
theorem Account.lapsed (h : Account budget item log) (open_ : item.phase.Available now) :
    ∀ hold ∈ outstanding log, hold.expires < now := by
  intro hold ho
  rcases h.phase_cases with ⟨-, hn, -⟩ | ⟨hold', hh, ho', -⟩ | ⟨_, -, hn, -⟩
  · rw [hn] at ho; cases ho
  · rw [ho'] at ho; cases ho; rw [hh] at open_; exact open_
  · rw [hn] at ho; cases ho

/-- The counter is the claims made less the claims refunded, a held item has
one that counts, and no item has more than its budget. -/
theorem Account.counted (h : Account budget item log) :
    item.attempts + refunds log = claims log ∧ item.attempts ≤ budget ∧
      ∀ hold, item.phase = .held hold → 1 ≤ item.attempts := by
  induction h with
  | fresh => exact ⟨rfl, Nat.zero_le _, by simp⟩
  | step h move ih =>
    obtain ⟨hb, hle, hpos⟩ := ih
    cases move with
    | claim hold open_ left =>
      simp only [claims, refunds] at hb ⊢
      exact ⟨by omega, left, fun _ _ => Nat.le_add_left 1 _⟩
    | extend expires live => exact ⟨hb, hle, fun _ _ => hpos _ rfl⟩
    | finish outcome live => exact ⟨hb, hle, by simp⟩
    | giveBack refund live =>
      have hone := hpos _ rfl
      cases refund with
      | true =>
        simp only [claims, refunds, ↓reduceIte] at hb hle hone ⊢
        exact ⟨by omega, by omega, by simp⟩
      | false => exact ⟨hb, hle, by simp⟩
    | retire outcome open_ => exact ⟨hb, hle, by simp⟩
    | park outcome open_ spent => exact ⟨hb, hle, by simp⟩

/-- Whatever happened to an item happened in order. -/
theorem Account.sound (h : Account budget item log) : Sound budget log := by
  induction h with
  | fresh => trivial
  | step h move ih =>
    refine ⟨?_, ih⟩
    have hb := h.counted.1
    cases move with
    | claim hold open_ left => exact ⟨by simp only at hb; omega, h.lapsed open_⟩
    | extend expires live => exact ⟨_, h.outstanding_held rfl, live⟩
    | finish outcome live => exact ⟨_, h.outstanding_held rfl, live⟩
    | giveBack refund live => exact ⟨_, h.outstanding_held rfl, live⟩
    | retire outcome open_ => exact h.lapsed open_
    | park outcome open_ spent => exact ⟨by simp only at hb; omega, h.lapsed open_⟩

theorem Account.outcomes_length (h : Account budget item log) : (outcomes log).length ≤ 1 := by
  rcases h.phase_cases with ⟨-, -, ho⟩ | ⟨_, -, -, ho⟩ | ⟨_, -, -, ho⟩ <;> simp [ho]

/-- The tokens of the claims that were refunded. -/
def refunded : Log ι τ ω → List τ
  | [] => []
  | (_, .giveBack _ token true) :: log => token :: refunded log
  | _ :: log => refunded log

theorem length_tokens : (tokens log).length = claims log := by
  induction log with
  | nil => rfl
  | cons entry log ih =>
    obtain ⟨_, event⟩ := entry
    cases event <;> simp [tokens, claims, ih]

theorem length_refunded : (refunded log).length = refunds log := by
  induction log with
  | nil => rfl
  | cons entry log ih =>
    obtain ⟨_, event⟩ := entry
    cases event with
    | giveBack owner token refund => cases refund <;> simp [refunded, refunds, ih]
    | _ => simpa [refunded, refunds] using ih

/-- Every claim was put to use, or was refunded, or is outstanding. -/
def UsedOrRefunded (used : τ → Prop) (log : Log ι τ ω) : Prop :=
  ∀ token ∈ tokens log, used token ∨ token ∈ refunded log ∨
    ∃ hold, outstanding log = some hold ∧ hold.token = token

/-- Claims stay used or refunded while every claim given back is refunded and
the ones taken over had been put to use. -/
theorem UsedOrRefunded.step {used : τ → Prop} (h : UsedOrRefunded used log)
    (ha : Account budget item log) (move : Step budget now item event item')
    (refunding : ∀ owner token, event ≠ .giveBack owner token false)
    (settled : ∀ outcome, item'.phase = .done outcome → event = .park outcome)
    (charged : (∃ hold, event = .claim hold) ∨ (∃ outcome, event = .park outcome) →
      ∀ hold, item.phase = .held hold → hold.expires < now → used hold.token) :
    UsedOrRefunded used ((now, event) :: log) := by
  have taken : ∀ hold, outstanding log = some hold → item.phase = .held hold := by
    intro hold ho
    rcases ha.phase_cases with ⟨-, hn, -⟩ | ⟨hold', hp, ho', -⟩ | ⟨_, -, hn, -⟩
    · rw [hn] at ho; cases ho
    · rw [ho'] at ho; cases ho; exact hp
    · rw [hn] at ho; cases ho
  intro token ht
  cases move with
  | claim hold open_ left =>
    rcases List.mem_cons.mp ht with rfl | ht
    · exact .inr (.inr ⟨hold, rfl, rfl⟩)
    · rcases h token ht with hu | hr | ⟨old, ho, rfl⟩
      · exact .inl hu
      · exact .inr (.inl hr)
      · exact .inl (charged (.inl ⟨hold, rfl⟩) old (taken old ho) (ha.lapsed open_ old ho))
  | extend expires live =>
    rcases h token ht with hu | hr | ⟨old, ho, he⟩
    · exact .inl hu
    · exact .inr (.inl hr)
    · exact .inr (.inr ⟨{ old with expires }, by simp [outstanding, ho], he⟩)
  | finish outcome live => cases settled outcome rfl
  | giveBack refund live =>
    cases refund with
    | false => exact absurd rfl (refunding _ _)
    | true =>
      rcases h token ht with hu | hr | ⟨old, ho, rfl⟩
      · exact .inl hu
      · exact .inr (.inl (List.mem_cons_of_mem _ hr))
      · cases taken old ho
        rw [live.2.1]
        exact .inr (.inl List.mem_cons_self)
  | retire outcome open_ => cases settled outcome rfl
  | park outcome open_ spent =>
    rcases h token ht with hu | hr | ⟨old, ho, rfl⟩
    · exact .inl hu
    · exact .inr (.inl hr)
    · exact .inl (charged (.inr ⟨outcome, rfl⟩) old (taken old ho) (ha.lapsed open_ old ho))

/-- A budget that is spent while nothing is outstanding was spent on claims
that were put to use. -/
theorem UsedOrRefunded.spent {used : τ → Prop} {uses : List τ} (h : UsedOrRefunded used log)
    (nodup : (tokens log).Nodup) (settled : outstanding log = none)
    (spent : refunds log + budget ≤ claims log) (listed : ∀ token, used token → token ∈ uses) :
    budget ≤ uses.length := by
  have hsub : tokens log ⊆ uses ++ refunded log := by
    intro token ht
    rcases h token ht with hu | hr | ⟨hold, ho, -⟩
    · exact List.mem_append_left _ (listed token hu)
    · exact List.mem_append_right _ hr
    · rw [settled] at ho; cases ho
  have hle := (List.subperm_of_subset nodup hsub).length_le
  rw [List.length_append, length_tokens, length_refunded] at hle
  omega

end Claims
