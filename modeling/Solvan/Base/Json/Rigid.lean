import Mathlib.Algebra.Order.Field.Rat
import Mathlib.Tactic.FieldSimp
import Mathlib.Tactic.Ring
import Mathlib.Data.List.Forall2
import Mathlib.Data.List.Infix
import Solvan.Base.Json.Equal

/-! The JSON values that equality tells from all others. Floats are decimals of which only some are written for
a double. -/
namespace Json

variable {doubles : Decimal → Prop} {a b c : Json}

/-- Induction over a value by what its lists and objects hold. -/
theorem byMembers {P : Json → Prop} (null : P .null) (bool : ∀ b, P (.bool b)) (int : ∀ n, P (.int n))
    (float : ∀ x, P (.float x)) (str : ∀ s, P (.str s)) (arr : ∀ items, (∀ j ∈ items, P j) → P (.arr items))
    (obj : ∀ fields : List (String × Json), (∀ f ∈ fields, P f.2) → P (.obj fields)) : ∀ j, P j
  | .null => null
  | .bool b => bool b
  | .int n => int n
  | .float x => float x
  | .str s => str s
  | .arr items => arr items (fun j _ => byMembers null bool int float str arr obj j)
  | .obj fields => obj fields (fun f _ => byMembers null bool int float str arr obj f.2)
termination_by j => sizeOf j
decreasing_by
  · have hsmall := List.sizeOf_lt_of_mem ‹j ∈ items›
    simp only [Json.arr.sizeOf_spec]
    omega
  · have hsmall := List.sizeOf_lt_of_mem ‹f ∈ fields›
    have hvalue : sizeOf f.2 < sizeOf f := by
      cases f
      simp
    simp only [Json.obj.sizeOf_spec]
    omega

/-- The value of a number. -/
def quantity (x : Int × Int) : ℚ := x.1 * 10 ^ x.2

theorem sameNumber_iff {x y : Int × Int} : sameNumber x y = true ↔ quantity x = quantity y := by
  have hpositive : (0 : ℚ) < 10 ^ min x.2 y.2 := zpow_pos (by norm_num) _
  have hscaled : ∀ z : Int × Int, min x.2 y.2 ≤ z.2 →
      ((z.1 * 10 ^ (z.2 - min x.2 y.2).toNat : Int) : ℚ) * 10 ^ min x.2 y.2 = quantity z := by
    intro z hz
    have hexponent : ((z.2 - min x.2 y.2).toNat : Int) = z.2 - min x.2 y.2 := Int.toNat_of_nonneg (by omega)
    rw [Int.cast_mul, Int.cast_pow, Int.cast_ofNat, ← zpow_natCast, hexponent, mul_assoc, ← zpow_add₀ (by norm_num),
      Int.sub_add_cancel]
    rfl
  unfold sameNumber
  rw [beq_iff_eq, ← hscaled x (min_le_left _ _), ← hscaled y (min_le_right _ _),
    mul_left_inj' (ne_of_gt hpositive), Int.cast_inj]

theorem sameNumbers_iff : sameNumbers a b = true ↔
    ∃ x y, a.number = some x ∧ b.number = some y ∧ quantity x = quantity y := by
  unfold sameNumbers
  cases a.number <;> cases b.number <;> simp [sameNumber_iff]

theorem equalItems_iff : ∀ {js ks : List Json}, equalItems js ks = true ↔
    List.Forall₂ (fun j k => equal j k = true) js ks
  | [], [] => by simp [equalItems]
  | [], k :: ks => by simp [equalItems]
  | j :: js, [] => by simp [equalItems]
  | j :: js, k :: ks => by
    simp only [equalItems, Bool.and_eq_true, List.forall₂_cons]
    rw [equalItems_iff]

theorem equalFields_iff {gs : List (String × Json)} : ∀ {fs : List (String × Json)}, equalFields fs gs = true ↔
    ∀ f ∈ fs, ∃ j, gs.lookup f.1 = some j ∧ equal f.2 j = true
  | [] => by simp [equalFields]
  | (k, j) :: fs => by
    have hfield : equalField (k, j) gs = true ↔ ∃ other, gs.lookup k = some other ∧ equal j other = true := by
      rw [equalField]
      cases hlookup : gs.lookup k <;> simp [hlookup]
    simp only [equalFields, Bool.and_eq_true, List.forall_mem_cons, hfield]
    rw [equalFields_iff]

/-- Equal numbers are equal as numbers; any other values have the same shape. -/
theorem equal_number (h : a.number ≠ none) : equal a b = sameNumbers a b := by
  cases a <;> first | rfl | exact absurd rfl h

theorem equal_iff {x : Int × Int} (h : a.number = some x) : equal a b = true ↔
    ∃ y, b.number = some y ∧ quantity x = quantity y := by
  rw [equal_number (by rw [h]; exact Option.some_ne_none x), sameNumbers_iff, h]
  simp

theorem lookup_mem {fields : List (String × Json)} {k : String} {j : Json} (h : fields.lookup k = some j) :
    (k, j) ∈ fields := by
  obtain ⟨front, back, rfl, -⟩ := List.lookup_eq_some_iff.mp h
  exact List.mem_append_right _ List.mem_cons_self

theorem lookup_of_mem {fields : List (String × Json)} (distinct : (fields.map Prod.fst).Nodup)
    {f : String × Json} (h : f ∈ fields) : fields.lookup f.1 = some f.2 := by
  induction fields with
  | nil => cases h
  | cons g fields ih =>
    obtain ⟨hnot, hrest⟩ := List.nodup_cons.mp distinct
    obtain rfl | hmem := List.mem_cons.mp h
    · exact List.lookup_cons_self
    · have hne : ¬f.1 = g.1 := fun heq => hnot (heq ▸ List.mem_map_of_mem hmem)
      rw [List.lookup_cons, show (f.1 == g.1) = false by simpa using hne]
      exact ih hrest hmem

theorem numbers_trans {x : Int × Int} (ha : a.number = some x) (hab : equal a b = true)
    (hbc : equal b c = true) : equal a c = true := by
  obtain ⟨y, hy, hxy⟩ := (equal_iff ha).mp hab
  obtain ⟨z, hz, hyz⟩ := (equal_iff hy).mp hbc
  exact (equal_iff ha).mpr ⟨z, hz, hxy.trans hyz⟩

theorem equal_trans (hab : equal a b = true) (hbc : equal b c = true) : equal a c = true := by
  induction a using byMembers generalizing b c with
  | null =>
    cases b <;> simp only [equal, Bool.false_eq_true] at hab
    exact hbc
  | str s =>
    cases b <;> simp only [equal, Bool.false_eq_true, beq_iff_eq] at hab
    rw [hab]
    exact hbc
  | bool v => exact numbers_trans rfl hab hbc
  | int n => exact numbers_trans rfl hab hbc
  | float x => exact numbers_trans rfl hab hbc
  | arr js ih =>
    cases b <;> simp only [equal, Bool.false_eq_true] at hab
    cases c <;> simp only [equal, Bool.false_eq_true] at hbc
    rename_i ks ls
    simp only [equal]
    rw [equalItems_iff] at hab hbc ⊢
    induction hab generalizing ls with
    | nil => exact hbc
    | @cons j k js ks hjk _ hrest =>
      obtain ⟨l, ls, hkl, hls, rfl⟩ := List.forall₂_cons_left_iff.mp hbc
      obtain ⟨hj, hjs⟩ := List.forall_mem_cons.mp ih
      exact .cons (hj hjk hkl) (hrest hjs ls hls)
  | obj fs ih =>
    cases b <;> simp only [equal, Bool.false_eq_true] at hab
    cases c <;> simp only [equal, Bool.false_eq_true] at hbc
    simp only [equal, Bool.and_eq_true, beq_iff_eq] at hab hbc ⊢
    refine ⟨hab.1.trans hbc.1, equalFields_iff.mpr (fun f hf => ?_)⟩
    obtain ⟨j, hj, hfj⟩ := equalFields_iff.mp hab.2 f hf
    obtain ⟨k, hk, hjk⟩ := equalFields_iff.mp hbc.2 (f.1, j) (lookup_mem hj)
    exact ⟨k, hk, ih f hf hfj hjk⟩

/-- A value as a parser gives it: the keys of an object are distinct, and floats are written for doubles. -/
inductive Loaded (doubles : Decimal → Prop) : Json → Prop
  | null : Loaded doubles .null
  | bool (b : Bool) : Loaded doubles (.bool b)
  | int (n : Int) : Loaded doubles (.int n)
  | float {x : Decimal} (h : doubles x) : Loaded doubles (.float x)
  | str (s : String) : Loaded doubles (.str s)
  | arr {items : List Json} (h : ∀ j ∈ items, Loaded doubles j) : Loaded doubles (.arr items)
  | obj {fields : List (String × Json)} (distinct : (fields.map Prod.fst).Nodup)
      (h : ∀ f ∈ fields, Loaded doubles f.2) : Loaded doubles (.obj fields)

/-- A value without booleans, without integers that a boolean or a float equals, and without floats that an
integer equals. -/
inductive Rigid (doubles : Decimal → Prop) : Json → Prop
  | null : Rigid doubles .null
  | int {n : Int} (hzero : n ≠ 0) (hone : n ≠ 1)
      (h : ∀ x, doubles x → ¬equal (.float x) (.int n) = true) : Rigid doubles (.int n)
  | float {x : Decimal} (h : ∀ n, ¬equal (.int n) (.float x) = true) : Rigid doubles (.float x)
  | str (s : String) : Rigid doubles (.str s)
  | arr {items : List Json} (h : ∀ j ∈ items, Rigid doubles j) : Rigid doubles (.arr items)
  | obj {fields : List (String × Json)} (h : ∀ f ∈ fields, Rigid doubles f.2) : Rigid doubles (.obj fields)

theorem equal_refl (h : Loaded doubles a) : equal a a = true := by
  induction h with
  | null => rfl
  | bool b => exact (equal_iff rfl).mpr ⟨_, rfl, rfl⟩
  | int n => exact (equal_iff rfl).mpr ⟨_, rfl, rfl⟩
  | float h => exact (equal_iff rfl).mpr ⟨_, rfl, rfl⟩
  | str s => exact beq_self_eq_true s
  | arr _ ih =>
    rw [equal, equalItems_iff]
    exact List.forall₂_same.mpr ih
  | obj distinct _ ih =>
    simp only [equal, beq_self_eq_true, Bool.true_and]
    exact equalFields_iff.mpr (fun f hf => ⟨f.2, lookup_of_mem distinct hf, ih f hf⟩)

theorem same_arr {js ks : List Json} : Same (.arr js) (.arr ks) ↔ List.Forall₂ Same js ks := by
  unfold Same
  simp only [sorted, sortedItems_eq_map, Json.arr.injEq]
  rw [← List.forall₂_eq_eq_eq, List.forall₂_map_left_iff, List.forall₂_map_right_iff]

/-- Objects of as many distinct keys, each of which has the same value in the other, are the same. -/
theorem same_obj {fs gs : List (String × Json)} (hfs : (fs.map Prod.fst).Nodup)
    (hlength : fs.length = gs.length) (h : ∀ f ∈ fs, ∃ j, gs.lookup f.1 = some j ∧ Same f.2 j) :
    Same (.obj fs) (.obj gs) := by
  have hkeys : ((fs.map sortedField).map Prod.fst).Nodup := by
    simpa only [List.map_map, Function.comp_def, fst_sortedField] using hfs
  have hsubset : fs.map sortedField ⊆ gs.map sortedField := by
    intro field hfield
    obtain ⟨f, hf, rfl⟩ := List.mem_map.mp hfield
    obtain ⟨j, hj, hsame⟩ := h f hf
    refine List.mem_map.mpr ⟨(f.1, j), lookup_mem hj, ?_⟩
    rw [sortedField_eq, sortedField_eq, hsame]
  have hperm : (fs.map sortedField).Perm (gs.map sortedField) :=
    (List.subperm_of_subset (List.Nodup.of_map _ hkeys) hsubset).perm_of_length_le (by simp [hlength])
  unfold Same
  simp only [sorted, sortedFields_eq_map, Json.obj.injEq]
  refine List.Perm.eq_of_pairwise ?_ (sort_keys _) (sort_keys _) ?_
  · intro f g hf hg hle hge
    have hf := (List.mem_insertionSort _).mp hf
    have hg := hperm.mem_iff.mpr ((List.mem_insertionSort _).mp hg)
    exact List.inj_on_of_nodup_map hkeys hf hg (String.le_antisymm hle hge)
  · exact (List.perm_insertionSort _ _).trans (hperm.trans (List.perm_insertionSort _ _).symm)

theorem Same.perm {fs gs : List (String × Json)} (h : Same (.obj fs) (.obj gs)) :
    (fs.map sortedField).Perm (gs.map sortedField) := by
  simp only [Same, sorted, sortedFields_eq_map, Json.obj.injEq] at h
  have hsort := (List.perm_insertionSort (fun f g => f.1 ≤ g.1) (fs.map sortedField)).symm
  rw [h] at hsort
  exact hsort.trans (List.perm_insertionSort _ _)

/-- The same objects have the same value under a key. -/
theorem Same.lookup {fs gs : List (String × Json)} (h : Same (.obj fs) (.obj gs)) (hgs : (gs.map Prod.fst).Nodup)
    {k : String} (hfs : fs.lookup k = some a) : ∃ b, gs.lookup k = some b ∧ Same a b := by
  have hmem : sortedField (k, a) ∈ gs.map sortedField :=
    h.perm.mem_iff.mp (List.mem_map_of_mem (lookup_mem hfs))
  obtain ⟨g, hg, hfield⟩ := List.mem_map.mp hmem
  rw [sortedField_eq, sortedField_eq] at hfield
  obtain ⟨hkey, hvalue⟩ := Prod.mk.inj hfield
  refine ⟨g.2, ?_, hvalue.symm⟩
  rw [← show g.1 = k from hkey]
  exact lookup_of_mem hgs hg

theorem same_int {n : Int} (h : Same (.int n) b) : b = .int n := by
  cases b with
  | int m =>
    obtain rfl := Json.int.inj h
    rfl
  | _ => cases h

/-- What two texts of one number are: the same, or those of a zero. -/
def Written (doubles : Decimal → Prop) : Prop :=
  ∀ x y, doubles x → doubles y → equal (.float x) (.float y) = true →
    x = y ∨ equal (.int 0) (.float y) = true

/-- What equals a rigid value is the same. -/
theorem same_of_rigid (hwritten : Written doubles) (hrigid : Rigid doubles b) (ha : Loaded doubles a)
    (hb : Loaded doubles b) (h : equal a b = true) : Same a b := by
  induction hrigid generalizing a with
  | null =>
    cases ha with
    | null => rfl
    | _ => simp [equal, sameNumbers, number] at h
  | str s =>
    cases ha with
    | str t =>
      simp only [equal, beq_iff_eq] at h
      rw [h]
      rfl
    | _ => simp [equal, sameNumbers, number] at h
  | @int n hzero hone hfloat =>
    cases ha with
    | bool v =>
      obtain ⟨y, hy, hxy⟩ := (equal_iff rfl).mp h
      obtain rfl := Option.some.inj hy
      have hvalue : (v.toNat : Int) = n := by
        simp only [quantity, zpow_zero, mul_one] at hxy
        exact_mod_cast hxy
      cases v
      · exact absurd hvalue.symm hzero
      · exact absurd hvalue.symm hone
    | int m =>
      obtain ⟨y, hy, hxy⟩ := (equal_iff rfl).mp h
      obtain rfl := Option.some.inj hy
      have hvalue : m = n := by simpa [quantity] using hxy
      rw [hvalue]
      rfl
    | float hx => exact absurd h (hfloat _ hx)
    | _ => simp [equal] at h
  | @float x hint =>
    cases ha with
    | bool v => exact absurd h (hint v.toNat)
    | int m => exact absurd h (hint m)
    | @float y hy =>
      cases hb with
      | float hx =>
        obtain rfl | hzero := hwritten y x hy hx h
        · rfl
        · exact absurd hzero (hint 0)
    | _ => simp [equal] at h
  | @arr items _ ih =>
    cases ha with
    | @arr others hothers =>
      cases hb with
      | arr hitems =>
        rw [equal, equalItems_iff] at h
        refine same_arr.mpr ?_
        clear * - h ih hothers hitems
        induction h with
        | nil => exact .nil
        | cons hjk _ hrest =>
          obtain ⟨hk, hks⟩ := List.forall_mem_cons.mp ih
          obtain ⟨hj, hjs⟩ := List.forall_mem_cons.mp hothers
          obtain ⟨hk', hks'⟩ := List.forall_mem_cons.mp hitems
          exact .cons (hk hj hk' hjk) (hrest hks hjs hks')
    | _ => simp [equal, sameNumbers, number] at h
  | @obj fields _ ih =>
    cases ha with
    | @obj others hdistinct hothers =>
      cases hb with
      | obj _ hfields =>
        simp only [equal, Bool.and_eq_true, beq_iff_eq] at h
        refine same_obj hdistinct h.1 (fun f hf => ?_)
        obtain ⟨j, hj, heq⟩ := equalFields_iff.mp h.2 f hf
        have hmem := lookup_mem hj
        exact ⟨j, hj, ih _ hmem (hothers f hf) (hfields _ hmem) heq⟩
    | _ => simp [equal, sameNumbers, number] at h

/-- A number that another equals of another type. -/
theorem retyped_number (h : Loaded doubles a) (hnumber : a.number ≠ none) (hnot : ¬Rigid doubles a) :
    ∃ b, Loaded doubles b ∧ equal b a = true ∧ ¬Same b a := by
  cases h with
  | bool v =>
    refine ⟨.int v.toNat, .int _, (equal_iff rfl).mpr ⟨_, rfl, rfl⟩, nofun⟩
  | int n =>
    by_cases hzero : n = 0
    · exact ⟨.bool false, .bool _, (equal_iff rfl).mpr ⟨_, rfl, by rw [hzero]; rfl⟩, nofun⟩
    by_cases hone : n = 1
    · exact ⟨.bool true, .bool _, (equal_iff rfl).mpr ⟨_, rfl, by rw [hone]; rfl⟩, nofun⟩
    by_contra hnone
    refine hnot (.int hzero hone (fun x hx hequal => hnone ?_))
    exact ⟨.float x, .float hx, hequal, nofun⟩
  | @float x hx =>
    by_contra hnone
    refine hnot (.float (fun n hequal => hnone ?_))
    exact ⟨.int n, .int n, hequal, nofun⟩
  | _ => exact absurd rfl hnumber

/-- What is not rigid is equal to a value that is not the same. -/
theorem retyped (h : Loaded doubles a) (hnot : ¬Rigid doubles a) :
    ∃ b, Loaded doubles b ∧ equal b a = true ∧ ¬Same b a := by
  induction h with
  | null => exact absurd .null hnot
  | bool b => exact retyped_number (.bool b) nofun hnot
  | int n => exact retyped_number (.int n) nofun hnot
  | float hx => exact retyped_number (.float hx) nofun hnot
  | str s => exact absurd (.str s) hnot
  | @arr items hitems ih =>
    obtain ⟨j, hj, hjnot⟩ : ∃ j ∈ items, ¬Rigid doubles j := by
      by_contra hall
      push Not at hall
      exact hnot (.arr hall)
    obtain ⟨k, hk, hequal, hsame⟩ := ih j hj hjnot
    obtain ⟨front, back, rfl⟩ := List.append_of_mem hj
    refine ⟨.arr (front ++ k :: back), .arr (fun l hl => ?_), ?_, fun hsame' => hsame ?_⟩
    · obtain hl | rfl | hl : l ∈ front ∨ l = k ∨ l ∈ back := by simpa using hl
      · exact hitems l (by simp [hl])
      · exact hk
      · exact hitems l (by simp [hl])
    · rw [equal, equalItems_iff]
      have hrefl : ∀ part : List Json, (∀ l ∈ part, l ∈ front ++ j :: back) →
          List.Forall₂ (fun l l' => equal l l' = true) part part := fun part hpart =>
        List.forall₂_same.mpr (fun l hl => equal_refl (hitems l (hpart l hl)))
      exact List.rel_append (hrefl front (by simp_all)) (.cons hequal (hrefl back (by simp_all)))
    · rw [same_arr] at hsame'
      have hrest := List.forall₂_drop front.length hsame'
      simp only [List.drop_left] at hrest
      exact (List.forall₂_cons.mp hrest).1
  | @obj fields distinct hfields ih =>
    obtain ⟨f, hf, hfnot⟩ : ∃ f ∈ fields, ¬Rigid doubles f.2 := by
      by_contra hall
      push Not at hall
      exact hnot (.obj hall)
    obtain ⟨k, hk, hequal, hsame⟩ := ih f hf hfnot
    obtain ⟨front, back, rfl⟩ := List.append_of_mem hf
    have hkeys : (front ++ (f.1, k) :: back).map Prod.fst = (front ++ f :: back).map Prod.fst := by simp
    refine ⟨.obj (front ++ (f.1, k) :: back), .obj (hkeys ▸ distinct) (fun g hg => ?_), ?_, fun hsame' => hsame ?_⟩
    · obtain hg | rfl | hg : g ∈ front ∨ g = (f.1, k) ∨ g ∈ back := by simpa using hg
      · exact hfields g (by simp [hg])
      · exact hk
      · exact hfields g (by simp [hg])
    · simp only [equal, Bool.and_eq_true, beq_iff_eq]
      refine ⟨by simp, equalFields_iff.mpr (fun g hg => ?_)⟩
      obtain hg | rfl | hg : g ∈ front ∨ g = (f.1, k) ∨ g ∈ back := by simpa using hg
      · exact ⟨g.2, lookup_of_mem distinct (by simp [hg]), equal_refl (hfields g (by simp [hg]))⟩
      · exact ⟨f.2, lookup_of_mem distinct hf, hequal⟩
      · exact ⟨g.2, lookup_of_mem distinct (by simp [hg]), equal_refl (hfields g (by simp [hg]))⟩
    · have hvalues := hsame'.values hkeys (hkeys ▸ distinct)
      simp only [List.map_append, List.map_cons, sortedField_eq] at hvalues
      have hheads := (List.append_inj hvalues rfl).2
      exact (Prod.mk.inj (List.cons.inj hheads).1).2

end Json
