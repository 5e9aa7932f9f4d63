import Mathlib.Data.Finset.Max
import Mathlib.Data.Prod.Lex
import Mathlib.Data.String.Basic
import Solvan.Base.Picks

/-! The bounded sample of log entries, and which entries are in it. -/
namespace Solvan.Compute
open Base

/-- Times are instants. -/
structure NormalizedLogEntry where
  observedAt : Int
  signatureKey : String
  normalizedMessage : String
deriving DecidableEq

structure LogEvidence where
  evidenceRef : String
  entries : List NormalizedLogEntry
  atMost : entries.length ≤ 1000

structure ComputeProvenance where
  method : String
  inputEvidenceRefs : List String
  parameters : List (String × Nat)
deriving DecidableEq

structure LogSample where
  entries : List NormalizedLogEntry
  sourceEntryCount : Nat
  provenance : ComputeProvenance
deriving DecidableEq

inductive ComputeError where
  | value (message : String)
  | index
deriving DecidableEq

/-- `(item.observed_at, item.signature_key, item.normalized_message)` -/
def entryKey (item : NormalizedLogEntry) : Int ×ₗ String ×ₗ String :=
  toLex (item.observedAt, toLex (item.signatureKey, item.normalizedMessage))

def ordered (entries : List NormalizedLogEntry) : List NormalizedLogEntry :=
  entries.insertionSort (fun a b => entryKey a ≤ entryKey b)

/-- `counts[signature]` -/
def count (entries : List NormalizedLogEntry) (signature : String) : Nat :=
  entries.countP (fun item => item.signatureKey == signature)

/-- `(counts[signature], signature)` -/
def rarity (entries : List NormalizedLogEntry) (signature : String) : Nat ×ₗ String :=
  toLex (count entries signature, signature)

def rarityOrder (entries : List NormalizedLogEntry) : List NormalizedLogEntry :=
  (ordered entries).insertionSort
    (fun a b => rarity (ordered entries) a.signatureKey ≤ rarity (ordered entries) b.signatureKey)

/-- `round(a / b)`: the nearest integer, the even one of two -/
def roundDiv (a b : Nat) : Nat :=
  if 2 * (a % b) < b ∨ 2 * (a % b) = b ∧ a / b % 2 = 0 then a / b else a / b + 1

/-- The loop over the offsets -/
def spread (items : List NormalizedLogEntry) (maximumEntries remaining : Nat) :
    List Nat → List NormalizedLogEntry → Except ComputeError (List NormalizedLogEntry)
  | [], selected => .ok selected
  | offset :: offsets, selected =>
    match items[roundDiv (offset * (items.length - 1)) (max (remaining - 1) 1)]? with
    | none => .error .index
    | some item => spread items maximumEntries remaining offsets (pick maximumEntries selected item)

/-- `log_sample_bounded` -/
def logSampleBounded (evidence : LogEvidence) (maximumEntries : Nat) : Except ComputeError LogSample :=
  if 1 ≤ maximumEntries ∧ maximumEntries ≤ 100 then do
    let items := ordered evidence.entries
    let selected := (rarityOrder evidence.entries).foldl (pick maximumEntries) []
    let remaining := maximumEntries - selected.length
    let selected ← if 0 < remaining ∧ items ≠ [] then
        spread items maximumEntries remaining (List.range remaining) selected
      else .ok selected
    return {
      entries := selected.insertionSort
        (fun a b => toLex (a.observedAt, a.signatureKey) ≤ toLex (b.observedAt, b.signatureKey))
      sourceEntryCount := items.length
      provenance :=
        ⟨"RARE_SIGNATURE_THEN_TIME_SPREAD", [evidence.evidenceRef], [("maximum_entries", maximumEntries)]⟩ }
  else .error (.value "maximum_entries must be between 1 and 100")

section Order

variable {entries entries' : List NormalizedLogEntry} {a b e : NormalizedLogEntry}

theorem entryKey_inj (h : entryKey a = entryKey b) : a = b := by
  cases a
  cases b
  simpa [entryKey] using h

theorem mem_ordered : e ∈ ordered entries ↔ e ∈ entries := List.mem_insertionSort _

theorem ordered_sorted : (ordered entries).Pairwise (fun a b => entryKey a ≤ entryKey b) := by
  have : Std.Total (fun a b : NormalizedLogEntry => entryKey a ≤ entryKey b) := ⟨fun a b => le_total _ _⟩
  have : IsTrans NormalizedLogEntry (fun a b => entryKey a ≤ entryKey b) := ⟨fun _ _ _ => le_trans⟩
  exact List.pairwise_insertionSort _ _

/-- The order of the entries is one whatever order they came in. -/
theorem ordered_perm (h : entries.Perm entries') : ordered entries = ordered entries' :=
  List.Perm.eq_of_pairwise (fun _ _ _ _ hab hba => entryKey_inj (le_antisymm hab hba)) ordered_sorted ordered_sorted
    ((List.perm_insertionSort _ _).trans (h.trans (List.perm_insertionSort _ _).symm))

theorem rarity_ordered : rarity (ordered entries) = rarity entries := by
  have hperm : (ordered entries).Perm entries := List.perm_insertionSort _ _
  funext signature
  unfold rarity count
  rw [hperm.countP_eq]

/-- An entry comes before another: its signature is rarer, or it is the same and the entry is earlier. -/
def Foremost (entries : List NormalizedLogEntry) (a b : NormalizedLogEntry) : Prop :=
  rarity entries a.signatureKey < rarity entries b.signatureKey ∨
    a.signatureKey = b.signatureKey ∧ entryKey a < entryKey b

instance : DecidableRel (Foremost entries) := fun _ _ => instDecidableOr

theorem rarity_inj {s s' : String} (h : rarity entries s = rarity entries s') : s = s' :=
  (Prod.mk.inj (toLex.injective h)).2

theorem foremost_asymm (a b : NormalizedLogEntry) (h : Foremost entries a b) : ¬Foremost entries b a := by
  rintro (hback | ⟨hsame, hback⟩)
  · obtain hlt | ⟨hsame, -⟩ := h
    · exact absurd hback (lt_asymm hlt)
    · rw [hsame] at hback
      exact absurd hback (lt_irrefl _)
  · obtain hlt | ⟨-, hlt⟩ := h
    · rw [hsame] at hlt
      exact absurd hlt (lt_irrefl _)
    · exact absurd hback (lt_asymm hlt)

theorem mem_rarityOrder : e ∈ rarityOrder entries ↔ e ∈ entries :=
  (List.mem_insertionSort _).trans mem_ordered

theorem rarityOrder_sorted : (rarityOrder entries).Pairwise (fun a b => a = b ∨ Foremost entries a b) := by
  have : Std.Total (fun a b : NormalizedLogEntry =>
    rarity (ordered entries) a.signatureKey ≤ rarity (ordered entries) b.signatureKey) := ⟨fun _ _ => le_total _ _⟩
  have : IsTrans NormalizedLogEntry (fun a b =>
    rarity (ordered entries) a.signatureKey ≤ rarity (ordered entries) b.signatureKey) := ⟨fun _ _ _ => le_trans⟩
  refine (sorted_twice ordered_sorted).imp (fun {a b} hab => ?_)
  rw [rarity_ordered] at hab
  obtain hlt | heq := lt_or_eq_of_le hab.1
  · exact .inr (.inl hlt)
  · have hsignature := rarity_inj heq
    obtain hlt | heq := lt_or_eq_of_le (hab.2 (le_of_eq heq.symm))
    · exact .inr (.inr ⟨hsignature, hlt⟩)
    · exact .inl (entryKey_inj heq)

end Order

section Sample

variable {evidence evidence' : LogEvidence} {entries selected : List NormalizedLogEntry} {sample : LogSample}
  {maximumEntries remaining : Nat} {e : NormalizedLogEntry}

/-- What the pass over the rarity order selects. -/
def kept (entries : List NormalizedLogEntry) (maximumEntries : Nat) : List NormalizedLogEntry :=
  (rarityOrder entries).foldl (pick maximumEntries) []

theorem kept_picked : Picked (Foremost entries) maximumEntries (rarityOrder entries) (kept entries maximumEntries) :=
  picked_foldl .nil rarityOrder_sorted

theorem ahead_ordered : ahead (Foremost entries) (rarityOrder entries) e = ahead (Foremost entries) entries e := by
  have hsame : (rarityOrder entries).toFinset = entries.toFinset := by
    ext x
    rw [List.mem_toFinset, List.mem_toFinset, mem_rarityOrder]
  unfold ahead
  rw [hsame]

/-- The selected entries are those that fewer different ones come before than are wanted. -/
theorem mem_kept : e ∈ kept entries maximumEntries ↔
    e ∈ entries ∧ ahead (Foremost entries) entries e < maximumEntries := by
  rw [kept_picked.mem_iff foremost_asymm, mem_rarityOrder, ahead_ordered]

theorem roundDiv_le {a b bound : Nat} (hb : 0 < b) (h : a ≤ b * bound) : roundDiv a b ≤ bound := by
  have hdiv : a / b ≤ bound := Nat.div_le_of_le_mul h
  have hsplit := Nat.div_add_mod a b
  have hmod := Nat.mod_lt a hb
  unfold roundDiv
  split
  · exact hdiv
  · rename_i hup
    by_contra hover
    have hbound : a / b = bound := by omega
    rw [hbound] at hsplit
    have hexact : a % b = 0 := by omega
    exact hup (.inl (by omega))

/-- The spread over time finds every entry selected already: slots remain only where no entry is left. -/
theorem spread_kept {items : List NormalizedLogEntry} (hitems : items ≠ []) (hall : ∀ e ∈ items, e ∈ selected)
    {offsets : List Nat} (hoffsets : ∀ offset ∈ offsets, offset < remaining) :
    spread items maximumEntries remaining offsets selected = .ok selected := by
  induction offsets with
  | nil => rfl
  | cons offset offsets ih =>
    obtain ⟨hoffset, hrest⟩ := List.forall_mem_cons.mp hoffsets
    have hpos : 0 < items.length := List.length_pos_iff.mpr hitems
    have hindex : roundDiv (offset * (items.length - 1)) (max (remaining - 1) 1) < items.length := by
      have hle := @roundDiv_le (offset * (items.length - 1)) (max (remaining - 1) 1) (items.length - 1) (by omega)
        (Nat.mul_le_mul_right _ (by omega))
      omega
    unfold spread
    rw [List.getElem?_eq_getElem hindex]
    dsimp only
    rw [show pick maximumEntries selected items[roundDiv (offset * (items.length - 1)) (max (remaining - 1) 1)] =
      selected from if_neg (fun hnew => hnew.1 (hall _ (List.getElem_mem _)))]
    exact ih hrest

/-- The sample that is returned -/
def sampleOf (evidence : LogEvidence) (maximumEntries : Nat) : LogSample where
  entries := (kept evidence.entries maximumEntries).insertionSort
    (fun a b => toLex (a.observedAt, a.signatureKey) ≤ toLex (b.observedAt, b.signatureKey))
  sourceEntryCount := (ordered evidence.entries).length
  provenance :=
    ⟨"RARE_SIGNATURE_THEN_TIME_SPREAD", [evidence.evidenceRef], [("maximum_entries", maximumEntries)]⟩

theorem logSampleBounded_eq (hlow : 1 ≤ maximumEntries) (hhigh : maximumEntries ≤ 100) :
    logSampleBounded evidence maximumEntries = .ok (sampleOf evidence maximumEntries) := by
  unfold logSampleBounded
  rw [if_pos ⟨hlow, hhigh⟩]
  dsimp only
  change (do
    let selected ← if 0 < maximumEntries - (kept evidence.entries maximumEntries).length ∧
        ordered evidence.entries ≠ [] then
      spread (ordered evidence.entries) maximumEntries (maximumEntries - (kept evidence.entries maximumEntries).length)
        (List.range (maximumEntries - (kept evidence.entries maximumEntries).length)) (kept evidence.entries maximumEntries)
      else .ok (kept evidence.entries maximumEntries)
    _) = _
  split
  · rename_i hroom
    rw [spread_kept hroom.2 (fun e he => ?_) (fun offset hoffset => List.mem_range.mp hoffset)]
    · rfl
    · refine kept_picked.all (by omega) (mem_rarityOrder.mpr (mem_ordered.mp he))
  · rfl

theorem mem_sampleOf : e ∈ (sampleOf evidence maximumEntries).entries ↔
    e ∈ evidence.entries ∧ ahead (Foremost evidence.entries) evidence.entries e < maximumEntries :=
  (List.mem_insertionSort _).trans mem_kept

theorem sampleOf_perm (href : evidence.evidenceRef = evidence'.evidenceRef)
    (h : evidence.entries.Perm evidence'.entries) :
    sampleOf evidence maximumEntries = sampleOf evidence' maximumEntries := by
  unfold sampleOf kept rarityOrder
  rw [ordered_perm h, href]

/-- The signatures of some entries, the rarest first -/
def rarest (entries : List NormalizedLogEntry) : List String :=
  (entries.map NormalizedLogEntry.signatureKey).dedup.insertionSort (fun s s' => rarity entries s ≤ rarity entries s')

theorem mem_rarest {s : String} : s ∈ rarest entries ↔ ∃ e ∈ entries, e.signatureKey = s := by
  unfold rarest
  rw [List.mem_insertionSort, List.mem_dedup, List.mem_map]

/-- How many different entries have a rarer signature. -/
def crowd (entries : List NormalizedLogEntry) (s : String) : Nat :=
  (entries.toFinset.filter (fun e => rarity entries e.signatureKey < rarity entries s)).card

/-- A signature is in the sample if and only if fewer different entries than are wanted have a rarer one. -/
theorem sampled_iff {s : String} (hs : s ∈ rarest entries) :
    (∃ e, (e ∈ entries ∧ ahead (Foremost entries) entries e < maximumEntries) ∧ e.signatureKey = s) ↔
      crowd entries s < maximumEntries := by
  constructor
  · rintro ⟨e, ⟨he, hfew⟩, rfl⟩
    refine Nat.lt_of_le_of_lt (Finset.card_le_card (fun x hx => ?_)) hfew
    obtain ⟨hmem, hrarer⟩ := Finset.mem_filter.mp hx
    exact Finset.mem_filter.mpr ⟨hmem, .inl hrarer⟩
  · intro hfew
    -- The first entry of the signature has only entries of rarer ones before it.
    obtain ⟨e, he, hfirst⟩ := Finset.exists_min_image
      (entries.toFinset.filter (fun e => e.signatureKey = s)) entryKey (by
        obtain ⟨e, he, hkey⟩ := mem_rarest.mp hs
        exact ⟨e, Finset.mem_filter.mpr ⟨List.mem_toFinset.mpr he, hkey⟩⟩)
    obtain ⟨hmem, hkey⟩ := Finset.mem_filter.mp he
    refine ⟨e, ⟨List.mem_toFinset.mp hmem, Nat.lt_of_le_of_lt (Finset.card_le_card (fun x hx => ?_)) hfew⟩, hkey⟩
    obtain ⟨hx, hrarer | ⟨hsame, hearlier⟩⟩ := Finset.mem_filter.mp hx
    · exact Finset.mem_filter.mpr ⟨hx, hkey ▸ hrarer⟩
    · have hle := hfirst x (Finset.mem_filter.mpr ⟨hx, hsame.trans hkey⟩)
      exact absurd hearlier (not_lt_of_ge hle)

/-- The rarest signatures that there is room for are all in a sample. -/
def Keeps (evidence : LogEvidence) (maximumEntries : Nat) (sample : LogSample) : Prop :=
  ∀ s ∈ (rarest evidence.entries).take maximumEntries, ∃ e ∈ sample.entries, e.signatureKey = s

/-- Where there is more room than signatures, the earliest and the latest entry are in a sample. -/
def Spreads (evidence : LogEvidence) (maximumEntries : Nat) (sample : LogSample) : Prop :=
  (rarest evidence.entries).length < maximumEntries → ∀ e,
    (ordered evidence.entries).head? = some e ∨ (ordered evidence.entries).getLast? = some e → e ∈ sample.entries

/-- A sample is bounded, taken from the evidence and one whatever the order of the entries. It keeps the rarest
signatures and the ends if and only if there is room for them behind the entries that come before. -/
theorem logSampleBounded_iff (evidence : LogEvidence) (maximumEntries : Nat) :
    (¬(1 ≤ maximumEntries ∧ maximumEntries ≤ 100) →
      logSampleBounded evidence maximumEntries = .error (.value "maximum_entries must be between 1 and 100")) ∧
    (1 ≤ maximumEntries ∧ maximumEntries ≤ 100 →
      ∃ sample, logSampleBounded evidence maximumEntries = .ok sample ∧
        sample.entries.length ≤ maximumEntries ∧ (∀ e ∈ sample.entries, e ∈ evidence.entries) ∧
        sample.entries.Nodup ∧
        (∀ evidence' : LogEvidence, evidence'.evidenceRef = evidence.evidenceRef →
          evidence'.entries.Perm evidence.entries → logSampleBounded evidence' maximumEntries = .ok sample) ∧
        (sample.entries.length < maximumEntries → ∀ e ∈ evidence.entries, e ∈ sample.entries) ∧
        (Keeps evidence maximumEntries sample ∧ Spreads evidence maximumEntries sample ↔
          (∀ s ∈ (rarest evidence.entries).take maximumEntries, crowd evidence.entries s < maximumEntries) ∧
          ((rarest evidence.entries).length < maximumEntries → ∀ e,
            (ordered evidence.entries).head? = some e ∨ (ordered evidence.entries).getLast? = some e →
              ahead (Foremost evidence.entries) evidence.entries e < maximumEntries))) := by
  constructor
  · intro hrange
    unfold logSampleBounded
    rw [if_neg hrange]
  rintro ⟨hlow, hhigh⟩
  have hperm : (sampleOf evidence maximumEntries).entries.Perm (kept evidence.entries maximumEntries) :=
    List.perm_insertionSort _ _
  have hkept : Picked (Foremost evidence.entries) maximumEntries (rarityOrder evidence.entries)
      (kept evidence.entries maximumEntries) := kept_picked
  refine ⟨_, logSampleBounded_eq hlow hhigh, ?_, fun e he => (mem_sampleOf.mp he).1, ?_, fun evidence' href h => ?_,
    fun hroom e he => ?_, ?_⟩
  · rw [hperm.length_eq]
    exact hkept.length_le
  · exact hperm.nodup_iff.mpr hkept.nodup
  · rw [logSampleBounded_eq hlow hhigh, sampleOf_perm href h]
  · rw [hperm.length_eq] at hroom
    exact hperm.mem_iff.mpr (hkept.all hroom (mem_rarityOrder.mpr he))
  · refine and_congr ?_ ?_
    · refine forall₂_congr (fun s hs => ?_)
      rw [← sampled_iff (List.mem_of_mem_take hs)]
      simp only [mem_sampleOf]
    · refine imp_congr_right (fun _ => forall₂_congr (fun e he => ?_))
      have hmem : e ∈ evidence.entries := by
        rw [← mem_ordered]
        obtain hhead | hlast := he
        · exact List.mem_of_mem_head? hhead
        · exact List.mem_of_getLast? hlast
      rw [mem_sampleOf, and_iff_right hmem]

/-- Two signatures, of which the rarer has two entries -/
def twoSignatures : LogEvidence where
  evidenceRef := "evd_00000000000000000000000001"
  entries := [⟨0, "retry", "a"⟩, ⟨1, "retry", "b"⟩, ⟨2, "served", "c"⟩, ⟨3, "served", "d"⟩, ⟨4, "served", "e"⟩]
  atMost := by decide

theorem two_signatures_kept :
    ∃ sample, logSampleBounded twoSignatures 5 = .ok sample ∧ Keeps twoSignatures 5 sample ∧
      Spreads twoSignatures 5 sample := by
  obtain ⟨sample, hok, -, -, -, -, -, hiff⟩ := (logSampleBounded_iff twoSignatures 5).2 (by decide)
  refine ⟨sample, hok, hiff.mpr ⟨by decide +kernel, fun _ e he => ?_⟩⟩
  have hhead : (ordered twoSignatures.entries).head? = some ⟨0, "retry", "a"⟩ := by decide +kernel
  have hlast : (ordered twoSignatures.entries).getLast? = some ⟨4, "served", "e"⟩ := by decide +kernel
  rw [hhead, hlast] at he
  obtain rfl | rfl := he.imp Option.some.inj Option.some.inj
  · decide +kernel
  · decide +kernel

/-- The two entries of the rarer signature leave no room for the other. -/
theorem signature_crowded_out :
    ∃ sample, logSampleBounded twoSignatures 2 = .ok sample ∧ rarest twoSignatures.entries = ["retry", "served"] ∧
      ¬∃ e ∈ sample.entries, e.signatureKey = "served" :=
  ⟨sampleOf twoSignatures 2, logSampleBounded_eq (by decide) (by decide), by decide +kernel, by decide +kernel⟩

end Sample

end Solvan.Compute
