import Solvan.Base.Json.Rigid
import Solvan.Liaison.Parked

/-! What a decision that `is_narrowing` lets through keeps of what was shown. -/
namespace Solvan.Liaison

open Json

/-- A list that comes of another by deleting elements. -/
def Deleted (values originals : List Json) : Prop :=
  ∃ kept, kept.Sublist originals ∧ List.Forall₂ Same values kept

/-- A value that was decided for one that was shown: some of its elements, or the same value. -/
def Kept : Json → Json → Prop
  | .arr values, .arr originals => Deleted values originals
  | value, original => Same value original

/-- A decision that holds nothing that was not shown. -/
structure Narrowed (displayed decided : Payload) : Prop where
  keys : ∀ k, (decided.lookup k).isSome = (displayed.lookup k).isSome
  kept : ∀ k value original, decided.lookup k = some value → displayed.lookup k = some original →
    Kept value original

/-- What was shown leaves no room for another decision: its lists are empty, and its other values equal nothing
but themselves. -/
def Unambiguous (doubles : Decimal → Prop) (displayed : Payload) : Prop :=
  ∀ k value, displayed.lookup k = some value → value = .arr [] ∨ (∀ items, value ≠ .arr items) ∧ Rigid doubles value

section Narrowing

variable {env : Rendering} {doubles : Decimal → Prop} {displayed decided further : Payload} {value original : Json}

theorem lookup_isSome {payload : Payload} {k : String} :
    (payload.lookup k).isSome = true ↔ ∃ f ∈ payload, f.1 = k := by
  constructor
  · intro h
    obtain ⟨value, hvalue⟩ := Option.isSome_iff_exists.mp h
    exact ⟨_, lookup_mem hvalue, rfl⟩
  · rintro ⟨f, hf, rfl⟩
    rw [Option.isSome_iff_ne_none, ne_eq, List.lookup_eq_none_iff]
    intro hnone
    simpa using hnone f hf

/-- A decision narrows if and only if it has the keys that were shown, and each value narrows its own. -/
theorem isNarrowing_iff (hdistinct : (decided.map Prod.fst).Nodup) :
    isNarrowing env displayed decided = true ↔
      (∀ k, (decided.lookup k).isSome = (displayed.lookup k).isSome) ∧
        ∀ k value original, decided.lookup k = some value → displayed.lookup k = some original →
          narrows env value original = true := by
  simp only [isNarrowing, Bool.and_eq_true, List.all_eq_true]
  constructor
  · rintro ⟨⟨hdisplayed, hdecided⟩, hvalues⟩
    refine ⟨fun k => Bool.eq_iff_iff.mpr ⟨fun h => ?_, fun h => ?_⟩, fun k value original hvalue horiginal => ?_⟩
    · obtain ⟨f, hf, rfl⟩ := lookup_isSome.mp h
      exact hdecided f hf
    · obtain ⟨f, hf, rfl⟩ := lookup_isSome.mp h
      exact hdisplayed f hf
    · have hnarrows := hvalues (k, value) (lookup_mem hvalue)
      rw [horiginal] at hnarrows
      exact hnarrows
  · rintro ⟨hkeys, hvalues⟩
    have hall : ∀ f ∈ decided, (displayed.lookup f.1).isSome = true := fun f hf => by
      rw [← hkeys]
      exact lookup_isSome.mpr ⟨f, hf, rfl⟩
    refine ⟨⟨fun f hf => ?_, hall⟩, fun f hf => ?_⟩
    · rw [hkeys]
      exact lookup_isSome.mpr ⟨f, hf, rfl⟩
    · obtain ⟨original, horiginal⟩ := Option.isSome_iff_exists.mp (hall f hf)
      rw [horiginal]
      exact hvalues f.1 f.2 original (lookup_of_mem hdistinct hf) horiginal

theorem narrows_arr {values originals : List Json} : narrows env (.arr values) (.arr originals) = true ↔
    ∀ v ∈ values, ∃ original ∈ originals, pyStr env original = pyStr env v := by
  simp [narrows, List.all_eq_true]

theorem narrows_single (h : ∀ items, original ≠ .arr items) : narrows env value original = value.equal original := by
  unfold narrows
  split
  · exact absurd rfl (h _)
  · rfl

theorem equal_single (hequal : value.equal original = true) (h : ∀ items, original ≠ .arr items) :
    ∀ items, value ≠ .arr items := by
  rintro items rfl
  cases original <;> simp only [equal, Bool.false_eq_true] at hequal
  exact h _ rfl

theorem narrows_listed {originals : List Json} (hnarrows : narrows env value (.arr originals) = true) :
    ∃ values, value = .arr values := by
  cases value with
  | arr values => exact ⟨values, rfl⟩
  | _ => simp [narrows, equal, sameNumbers, number] at hnarrows

theorem narrows_refl (h : Loaded doubles value) : narrows env value value = true := by
  cases value with
  | arr values => exact narrows_arr.mpr (fun v hv => ⟨v, hv, rfl⟩)
  | _ => exact (narrows_single (by rintro _ ⟨⟩)).trans (equal_refl h)

theorem narrows_trans {value' : Json} (h : narrows env value original = true)
    (h' : narrows env value' value = true) : narrows env value' original = true := by
  by_cases hlist : ∃ originals, original = .arr originals
  · obtain ⟨originals, rfl⟩ := hlist
    obtain ⟨values, rfl⟩ := narrows_listed h
    obtain ⟨values', rfl⟩ := narrows_listed h'
    rw [narrows_arr] at h h' ⊢
    intro v' hv'
    obtain ⟨v, hv, heq⟩ := h' v' hv'
    obtain ⟨original, horiginal, heq'⟩ := h v hv
    exact ⟨original, horiginal, heq'.trans heq⟩
  · push Not at hlist
    rw [narrows_single hlist] at h ⊢
    rw [narrows_single (equal_single h hlist)] at h'
    exact equal_trans h' h

theorem isNarrowing_refl (h : Loaded doubles (.obj displayed)) : isNarrowing env displayed displayed = true := by
  cases h with
  | obj hdistinct hvalues =>
    refine (isNarrowing_iff hdistinct).mpr ⟨fun _ => rfl, fun k value original hvalue horiginal => ?_⟩
    obtain rfl := Option.some.inj (hvalue.symm.trans horiginal)
    exact narrows_refl (hvalues _ (lookup_mem hvalue))

theorem isNarrowing_trans (hdecided : (decided.map Prod.fst).Nodup) (hfurther : (further.map Prod.fst).Nodup)
    (h : isNarrowing env displayed decided = true) (h' : isNarrowing env decided further = true) :
    isNarrowing env displayed further = true := by
  obtain ⟨hkeys, hvalues⟩ := (isNarrowing_iff hdecided).mp h
  obtain ⟨hkeys', hvalues'⟩ := (isNarrowing_iff hfurther).mp h'
  refine (isNarrowing_iff hfurther).mpr ⟨fun k => (hkeys' k).trans (hkeys k), fun k value original hvalue horiginal => ?_⟩
  obtain ⟨between, hbetween⟩ : ∃ between, decided.lookup k = some between :=
    Option.isSome_iff_exists.mp ((hkeys' k).symm.trans (by rw [hvalue]; rfl))
  exact narrows_trans (hvalues k between original hbetween horiginal) (hvalues' k value between hvalue hbetween)

/-- The payload with another value for one key. -/
def amended (payload : Payload) (k : String) (value : Json) : Payload :=
  payload.map (fun f => if f.1 = k then (k, value) else f)

theorem amended_keys (payload : Payload) (k : String) (value : Json) :
    (amended payload k value).map Prod.fst = payload.map Prod.fst := by
  unfold amended
  rw [List.map_map]
  refine List.map_congr_left (fun f _ => ?_)
  simp only [Function.comp_apply]
  split
  · rename_i hkey
    exact hkey.symm
  · rfl

theorem amended_cons (f : String × Json) (rest : Payload) (k : String) (value : Json) :
    amended (f :: rest) k value = (if f.1 = k then (k, value) else f) :: amended rest k value := rfl

theorem amended_other {k key : String} (hkey : key ≠ k) :
    (amended displayed k value).lookup key = displayed.lookup key := by
  induction displayed with
  | nil => rfl
  | cons f rest ih =>
    have hne : (key == k) = false := by simpa using hkey
    rw [amended_cons, List.lookup_cons, List.lookup_cons, ih]
    by_cases hfirst : f.1 = k
    · rw [if_pos hfirst, hfirst, hne]
    · rw [if_neg hfirst]

theorem amended_same {k : String} (hthere : (displayed.lookup k).isSome = true) :
    (amended displayed k value).lookup k = some value := by
  induction displayed with
  | nil => cases hthere
  | cons f rest ih =>
    rw [amended_cons]
    by_cases hfirst : f.1 = k
    · rw [if_pos hfirst]
      exact List.lookup_cons_self
    · have hne : (k == f.1) = false := by simpa using Ne.symm hfirst
      rw [List.lookup_cons, hne] at hthere
      rw [if_neg hfirst, List.lookup_cons, hne]
      exact ih hthere

/-- A decision that changes one value narrows if that value does. -/
theorem amended_narrows (h : Loaded doubles (.obj displayed)) {k : String}
    (horiginal : displayed.lookup k = some original) (hnarrows : narrows env value original = true) :
    isNarrowing env displayed (amended displayed k value) = true := by
  have hthere : (displayed.lookup k).isSome = true := by rw [horiginal]; rfl
  cases h with
  | obj hdistinct hvalues =>
    refine (isNarrowing_iff (amended_keys displayed k value ▸ hdistinct)).mpr
      ⟨fun key => ?_, fun key value' original' hvalue' horiginal' => ?_⟩
    · by_cases hkey : key = k
      · rw [hkey, amended_same hthere, horiginal]
        rfl
      · rw [amended_other hkey]
    · by_cases hkey : key = k
      · rw [hkey, amended_same hthere] at hvalue'
        rw [hkey, horiginal] at horiginal'
        obtain rfl := Option.some.inj hvalue'
        obtain rfl := Option.some.inj horiginal'
        exact hnarrows
      · rw [amended_other hkey] at hvalue'
        obtain rfl := Option.some.inj (hvalue'.symm.trans horiginal')
        exact narrows_refl (hvalues _ (lookup_mem hvalue'))

theorem amended_loaded (h : Loaded doubles (.obj displayed)) (hvalue : Loaded doubles value) (k : String) :
    Loaded doubles (.obj (amended displayed k value)) := by
  cases h with
  | obj hdistinct hvalues =>
    refine .obj (amended_keys displayed k value ▸ hdistinct) (fun f hf => ?_)
    obtain ⟨g, hg, rfl⟩ := List.mem_map.mp hf
    split
    · exact hvalue
    · exact hvalues g hg

theorem deleted_length {values originals : List Json} (h : Deleted values originals) :
    values.length ≤ originals.length := by
  obtain ⟨kept, hsublist, hsame⟩ := h
  rw [hsame.length_eq]
  exact hsublist.length_le

/-- Of what is unambiguous, each decision that narrows keeps what was shown. -/
theorem narrowed_of_unambiguous (hwritten : Written doubles) (hdisplayed : Loaded doubles (.obj displayed))
    (hdecided : Loaded doubles (.obj decided)) (h : Unambiguous doubles displayed)
    (hnarrowing : isNarrowing env displayed decided = true) : Narrowed displayed decided := by
  cases hdecided with
  | obj hdistinct hvalues =>
    cases hdisplayed with
    | obj _ horiginals =>
      obtain ⟨hkeys, hnarrows⟩ := (isNarrowing_iff hdistinct).mp hnarrowing
      refine ⟨hkeys, fun k value original hvalue horiginal => ?_⟩
      have hnarrow := hnarrows k value original hvalue horiginal
      obtain rfl | ⟨hsingle, hrigid⟩ := h k original horiginal
      · obtain ⟨values, rfl⟩ := narrows_listed hnarrow
        rw [narrows_arr] at hnarrow
        have hnone : values = [] := List.eq_nil_iff_forall_not_mem.mpr (fun v hv => by
          obtain ⟨original, hmem, -⟩ := hnarrow v hv
          cases hmem)
        rw [hnone]
        exact ⟨[], List.Sublist.refl _, .nil⟩
      · rw [narrows_single hsingle] at hnarrow
        have hsame : Same value original := same_of_rigid hwritten hrigid (hvalues _ (lookup_mem hvalue))
          (horiginals _ (lookup_mem horiginal)) hnarrow
        unfold Kept
        split
        · exact absurd rfl (hsingle _)
        · exact hsame

/-- Where it is not, some decision that narrows does not. -/
theorem unambiguous_of_narrowed (hdisplayed : Loaded doubles (.obj displayed))
    (h : ∀ decided, Loaded doubles (.obj decided) → isNarrowing env displayed decided = true →
      Narrowed displayed decided) : Unambiguous doubles displayed := by
  intro k original horiginal
  have hthere : (displayed.lookup k).isSome = true := by rw [horiginal]; rfl
  have hloaded : Loaded doubles original := by
    cases hdisplayed with
    | obj _ horiginals => exact horiginals _ (lookup_mem horiginal)
  have hkept : ∀ value, Loaded doubles value → narrows env value original = true → Kept value original := by
    intro value hvalue hnarrows
    exact (h _ (amended_loaded hdisplayed hvalue k) (amended_narrows hdisplayed horiginal hnarrows)).kept k
      value original (amended_same hthere) horiginal
  by_cases hlist : ∃ originals, original = .arr originals
  · obtain ⟨originals, rfl⟩ := hlist
    cases originals with
    | nil => exact .inl rfl
    | cons item items =>
      -- An element that is repeated has the text of one that was shown.
      cases hloaded with
      | arr hitems =>
        have hrepeated : Deleted (item :: item :: items) (item :: items) :=
          hkept (.arr (item :: item :: items))
            (.arr (fun j hj => hitems j (by simpa using hj)))
            (narrows_arr.mpr (fun v hv => ⟨v, by simpa using hv, rfl⟩))
        have hlength := deleted_length hrepeated
        simp at hlength
  · push Not at hlist
    refine .inr ⟨hlist, ?_⟩
    by_contra hnot
    obtain ⟨value, hvalue, hequal, hdiffers⟩ := retyped hloaded hnot
    have hsame := hkept value hvalue ((narrows_single hlist).trans hequal)
    unfold Kept at hsame
    split at hsame
    · exact hlist _ rfl
    · exact hdiffers hsame

end Narrowing

/-- No floats but one half, which is written in one way. -/
def half (x : Decimal) : Prop := x.text = ['0', '.', '5']

theorem half_written : Written half := by
  rintro ⟨_, _⟩ ⟨_, _⟩ rfl rfl -
  exact .inl rfl

def plainRendering : Rendering where
  repr := fun j => String.ofList j.text
  payloadDigest := fun payload => (Json.obj payload).dumps

end Solvan.Liaison
