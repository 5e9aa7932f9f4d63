import Solvan.Base.Claims
import Solvan.Base.Table

/-! Tables whose rows are claimed, kept together with a ledger of everything
that happened to each row. -/
namespace Claims

/-- What has happened to the rows of a table, newest first, each entry under
the key of its row. -/
abbrev Ledger (κ ι τ ω : Type) := List (κ × Int × Event ι τ ω)

variable {κ ι τ ω ρ : Type} [DecidableEq κ] {budget : Nat} {now : Int}
  {key : ρ → κ} {view : ρ → Item ι τ ω} {rows : List ρ} {ledger : Ledger κ ι τ ω}
  {issued issued' : List τ} {p : ρ → Bool} {f : ρ → ρ} {event : ρ → Event ι τ ω} {r : ρ} {k : κ}

/-- The entries about one row. -/
def about (k : κ) (ledger : Ledger κ ι τ ω) : Log ι τ ω :=
  (ledger.filter (fun entry => entry.1 == k)).map Prod.snd

/-- What an update adds to the ledger. -/
def entries (key : ρ → κ) (p : ρ → Bool) (now : Int) (event : ρ → Event ι τ ω) (rows : List ρ) :
    Ledger κ ι τ ω :=
  (rows.filter p).map (fun r => (key r, now, event r))

theorem about_append (older : Ledger κ ι τ ω) :
    about k (ledger ++ older) = about k ledger ++ about k older := by
  simp [about]

/-- A row that is not hit gets no entry. -/
theorem about_entries_miss (h : ∀ r ∈ rows, p r = true → key r ≠ k) :
    about k (entries key p now event rows) = [] := by
  simp only [about, entries, List.map_eq_nil_iff, List.filter_eq_nil_iff]
  intro entry he
  obtain ⟨r, hr, rfl⟩ := List.mem_map.mp he
  obtain ⟨hm, hp⟩ := List.mem_filter.mp hr
  simpa using h r hm hp

/-- A row that is hit gets one. -/
theorem about_entries_hit (hu : Table.Unique key rows) (hr : r ∈ rows) (hp : p r = true) :
    about (key r) (entries key p now event rows) = [(now, event r)] := by
  obtain ⟨before, after, rfl⟩ := List.mem_iff_append.mp hr
  have hd : ∀ r' ∈ before ++ after, key r' ≠ key r := by
    intro r' hr' he
    simp only [Table.Unique, List.map_append, List.map_cons, List.nodup_append,
      List.nodup_cons] at hu
    rcases List.mem_append.mp hr' with hb | ha
    · exact hu.2.2 _ (List.mem_map_of_mem hb) (key r) (by simp) he
    · exact hu.2.1.1 (he ▸ List.mem_map_of_mem ha)
  have hb : about (key r) (entries key p now event before) = [] :=
    about_entries_miss (fun r' hr' _ => hd r' (by simp [hr']))
  have ha : about (key r) (entries key p now event after) = [] :=
    about_entries_miss (fun r' hr' _ => hd r' (by simp [hr']))
  have hs : entries key p now event (before ++ r :: after) =
      entries key p now event before ++ ((key r, now, event r) :: entries key p now event after) := by
    simp [entries, hp]
  rw [hs, about_append, hb, List.nil_append]
  simpa [about] using ha

/-- Every row's claims are accounted for by the ledger, each under a token
issued for it alone. -/
structure Booked (budget : Nat) (key : ρ → κ) (view : ρ → Item ι τ ω) (rows : List ρ)
    (ledger : Ledger κ ι τ ω) (issued : List τ) : Prop where
  unique : Table.Unique key rows
  account : ∀ r ∈ rows, Account budget (view r) (about (key r) ledger)
  known : ∀ entry ∈ ledger, entry.1 ∈ rows.map key
  tokens : ∀ r ∈ rows, (tokens (about (key r) ledger)).Nodup
  issued : ∀ entry ∈ ledger, ∀ hold, entry.2.2 = .claim hold → hold.token ∈ issued

theorem Booked.empty : Booked budget key view [] ([] : Ledger κ ι τ ω) ([] : List τ) := by
  constructor <;> simp [Table.Unique]

theorem mem_tokens {token : τ} {log : Log ι τ ω} (h : token ∈ tokens log) :
    ∃ entry ∈ log, ∃ hold, entry.2 = .claim hold ∧ hold.token = token := by
  induction log with
  | nil => cases h
  | cons entry log ih =>
    obtain ⟨at_, event⟩ := entry
    cases event with
    | claim hold =>
      rcases List.mem_cons.mp h with rfl | h
      · exact ⟨_, List.mem_cons_self, hold, rfl, rfl⟩
      · obtain ⟨entry, hm, he⟩ := ih h
        exact ⟨entry, List.mem_cons_of_mem _ hm, he⟩
    | _ =>
      obtain ⟨entry, hm, he⟩ := ih h
      exact ⟨entry, List.mem_cons_of_mem _ hm, he⟩

theorem Booked.token_issued {token : τ} (h : Booked budget key view rows ledger issued)
    (ht : token ∈ Claims.tokens (about k ledger)) : token ∈ issued := by
  obtain ⟨entry, hm, hold, he, rfl⟩ := mem_tokens ht
  obtain ⟨full, hf, rfl⟩ := List.mem_map.mp hm
  exact h.issued full (List.mem_filter.mp hf).1 hold he

/-- An update of rows each of which may make its move keeps the books, if
what it claims it claims under new tokens. -/
theorem Booked.update (h : Booked budget key view rows ledger issued)
    (hk : ∀ r ∈ rows, p r = true → key (f r) = key r)
    (moves : ∀ r ∈ rows, p r = true → Step budget now (view r) (event r) (view (f r)))
    (fresh : ∀ r ∈ rows, p r = true → ∀ hold, event r = .claim hold →
      hold.token ∉ issued ∧ hold.token ∈ issued')
    (kept : ∀ token ∈ issued, token ∈ issued') :
    Booked budget key view (Table.update p f rows) (entries key p now event rows ++ ledger)
      issued' where
  unique := h.unique.update hk
  account := by
    intro r' hr'
    rcases Table.update_cases hr' with ⟨r, hr, hp, rfl⟩ | ⟨hr, hp⟩
    · rw [hk r hr hp, about_append, about_entries_hit h.unique hr hp]
      exact (h.account r hr).step (moves r hr hp)
    · rw [about_append, about_entries_miss (h.unique.ne_of_miss hr hp)]
      exact h.account r' hr
  known := by
    intro entry he
    rw [Table.keys_update hk]
    rcases List.mem_append.mp he with he | he
    · obtain ⟨r, hr, rfl⟩ := List.mem_map.mp he
      exact List.mem_map_of_mem (List.mem_filter.mp hr).1
    · exact h.known entry he
  tokens := by
    intro r' hr'
    rcases Table.update_cases hr' with ⟨r, hr, hp, rfl⟩ | ⟨hr, hp⟩
    · rw [hk r hr hp, about_append, about_entries_hit h.unique hr hp]
      have ht := h.tokens r hr
      cases he : event r with
      | claim hold =>
        exact List.nodup_cons.mpr
          ⟨fun hin => (fresh r hr hp hold he).1 (h.token_issued hin), ht⟩
      | _ => exact ht
    · rw [about_append, about_entries_miss (h.unique.ne_of_miss hr hp)]
      exact h.tokens r' hr
  issued := by
    intro entry he hold hc
    rcases List.mem_append.mp he with he | he
    · obtain ⟨r, hr, rfl⟩ := List.mem_map.mp he
      obtain ⟨hm, hp⟩ := List.mem_filter.mp hr
      exact (fresh r hm hp hold hc).2
    · exact kept _ (h.issued entry he hold hc)

/-- Nothing has happened to an item whose key is new. -/
theorem about_unknown (known : ∀ entry ∈ ledger, entry.1 ∈ rows.map key)
    (new : ∀ r' ∈ rows, key r' ≠ key r) : about (key r) ledger = [] := by
  simp only [about, List.map_eq_nil_iff, List.filter_eq_nil_iff]
  intro entry he heq
  obtain ⟨r', hr', hk'⟩ := List.mem_map.mp (known entry he)
  exact new r' hr' (hk'.trans (by simpa using heq))

/-- An item nothing has happened to joins under a key of its own. -/
theorem Booked.insert (h : Booked budget key view rows ledger issued)
    (hk : ∀ r' ∈ rows, key r' ≠ key r) (hv : view r = ⟨0, .free⟩) :
    Booked budget key view (rows ++ [r]) ledger issued := by
  have hnone : about (key r) ledger = [] := about_unknown h.known hk
  refine ⟨h.unique.append hk, ?_, ?_, ?_, h.issued⟩
  · intro r' hr'
    rcases List.mem_append.mp hr' with hr' | hr'
    · exact h.account r' hr'
    · rw [List.mem_singleton.mp hr', hnone, hv]
      exact .fresh
  · intro entry he
    rw [List.map_append]
    exact List.mem_append_left _ (h.known entry he)
  · intro r' hr'
    rcases List.mem_append.mp hr' with hr' | hr'
    · exact h.tokens r' hr'
    · rw [List.mem_singleton.mp hr', hnone]
      exact List.nodup_nil

/-- No statement whose every hit is a move touches a row that is done. -/
theorem mem_update_of_done {outcome : ω} (hr : r ∈ rows) (hd : (view r).phase = .done outcome)
    (moves : ∀ r ∈ rows, p r = true → Step budget now (view r) (event r) (view (f r))) :
    r ∈ Table.update p f rows := by
  cases hp : p r with
  | false => exact Table.mem_update_of_miss hr hp
  | true => exact absurd hd (moves r hr hp).not_done

/-- What the books say of one row. -/
structure Orderly (budget : Nat) (item : Item ι τ ω) (log : Log ι τ ω) : Prop where
  balance : item.attempts + refunds log = claims log
  bounded : item.attempts ≤ budget
  sound : Sound budget log
  outcome : ∀ outcome, item.phase = .done outcome ↔ outcomes log = [outcome]
  once : (outcomes log).length ≤ 1
  tokens : (tokens log).Nodup

theorem Booked.orderly (h : Booked budget key view rows ledger issued) (hr : r ∈ rows) :
    Orderly budget (view r) (about (key r) ledger) := by
  have ha := h.account r hr
  refine ⟨ha.counted.1, ha.counted.2.1, ha.sound, ?_, ha.outcomes_length, h.tokens r hr⟩
  intro outcome
  rcases ha.phase_cases with ⟨hp, -, ho⟩ | ⟨_, hp, -, ho⟩ | ⟨_, hp, -, ho⟩ <;> simp [hp, ho]

end Claims
