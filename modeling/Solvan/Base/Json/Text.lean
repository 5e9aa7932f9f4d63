import Mathlib.Data.List.Sort

/-! JSON values and the one text that stands for each. -/

def isExponent : List Char → Bool
  | 'e' :: sign :: digits =>
    (sign == '+' || sign == '-') && decide (2 ≤ digits.length) && digits.all Char.isDigit
  | _ => false

/-- What may follow the whole part of a double: a fraction, an exponent, or both. -/
def isFraction : List Char → Bool
  | '.' :: cs =>
    let after := cs.dropWhile Char.isDigit
    !(cs.takeWhile Char.isDigit).isEmpty && (after.isEmpty || isExponent after)
  | cs => isExponent cs

def isUnsigned (cs : List Char) : Bool :=
  !(cs.takeWhile Char.isDigit).isEmpty && isFraction (cs.dropWhile Char.isDigit)

def isDecimal : List Char → Bool
  | '-' :: cs => isUnsigned cs
  | cs => isUnsigned cs

/-- A finite double, under its `repr`: the shortest decimal that rounds to it. -/
structure Decimal where
  text : List Char
  ok : isDecimal text = true
deriving DecidableEq

inductive Json where
  | null
  | bool (b : Bool)
  | int (n : Int)
  | float (x : Decimal)
  | str (s : String)
  | arr (items : List Json)
  | obj (fields : List (String × Json))

namespace Json

def escape (c : Char) : List Char :=
  if c = '\x22' then ['\\', '\x22']
  else if c = '\\' then ['\\', '\\']
  else if c = '\n' then ['\\', 'n']
  else if c = '\r' then ['\\', 'r']
  else if c = '\t' then ['\\', 't']
  else if c = '\x0c' then ['\\', 'f']
  else if c = '\x08' then ['\\', 'b']
  else if c.toNat < 32 then
    ['\\', 'u', '0', '0', Nat.digitChar (c.toNat / 16), Nat.digitChar (c.toNat % 16)]
  else [c]

def quote (s : String) : List Char := '\x22' :: (s.toList.flatMap escape ++ ['\x22'])

def intText : Int → List Char
  | .ofNat n => Nat.toDigits 10 n
  | .negSucc n => '-' :: Nat.toDigits 10 (n + 1)

mutual

/-- The text of a value, keys in the order they stand. -/
def text : Json → List Char
  | .null => ['n', 'u', 'l', 'l']
  | .bool true => ['t', 'r', 'u', 'e']
  | .bool false => ['f', 'a', 'l', 's', 'e']
  | .int n => intText n
  | .float x => x.text
  | .str s => quote s
  | .arr items => '[' :: itemsText items
  | .obj fields => '\x7b' :: fieldsText fields

def itemsText : List Json → List Char
  | [] => [']']
  | j :: js => text j ++ itemsTail js

def itemsTail : List Json → List Char
  | [] => [']']
  | j :: js => ',' :: (text j ++ itemsTail js)

def fieldsText : List (String × Json) → List Char
  | [] => ['\x7d']
  | f :: fs => fieldText f ++ fieldsTail fs

def fieldsTail : List (String × Json) → List Char
  | [] => ['\x7d']
  | f :: fs => ',' :: (fieldText f ++ fieldsTail fs)

def fieldText : String × Json → List Char
  | (k, j) => quote k ++ ':' :: text j

end

mutual

/-- A value with the keys of every object in code point order. -/
def sorted : Json → Json
  | .arr items => .arr (sortedItems items)
  | .obj fields => .obj ((sortedFields fields).insertionSort (fun f g => f.1 ≤ g.1))
  | .null => .null
  | .bool b => .bool b
  | .int n => .int n
  | .float x => .float x
  | .str s => .str s

def sortedItems : List Json → List Json
  | [] => []
  | j :: js => j.sorted :: sortedItems js

def sortedFields : List (String × Json) → List (String × Json)
  | [] => []
  | f :: fs => sortedField f :: sortedFields fs

def sortedField : String × Json → String × Json
  | (k, j) => (k, j.sorted)

end

/-- `json.dumps` with sorted keys, no spaces and nothing escaped that need not be. -/
def dumps (j : Json) : String := String.ofList j.sorted.text

/-- Equality of the values two dictionaries hold, whatever order their keys
came in. -/
def Same (a b : Json) : Prop := a.sorted = b.sorted

theorem sortedFields_eq_map (fields : List (String × Json)) :
    sortedFields fields = fields.map sortedField := by
  induction fields with
  | nil => rfl
  | cons f fs ih => simp only [sortedFields, ih, List.map_cons]

theorem sortedItems_eq_map (items : List Json) : sortedItems items = items.map sorted := by
  induction items with
  | nil => rfl
  | cons j js ih => simp only [sortedItems, ih, List.map_cons]

theorem sortedField_eq (f : String × Json) : sortedField f = (f.1, f.2.sorted) := by
  cases f
  rfl

theorem fst_sortedField (f : String × Json) : (sortedField f).1 = f.1 := by
  cases f; rfl

theorem sort_keys (fields : List (String × Json)) :
    (fields.insertionSort (fun f g => f.1 ≤ g.1)).Pairwise (fun f g => f.1 ≤ g.1) := by
  have : Std.Total (fun f g : String × Json => f.1 ≤ g.1) := ⟨fun f g => String.le_total f.1 g.1⟩
  have : IsTrans (String × Json) (fun f g => f.1 ≤ g.1) := ⟨fun _ _ _ => String.le_trans⟩
  exact List.pairwise_insertionSort _ _

/-- Two orders of the same keys are the same object. -/
theorem same_of_perm {fields fields' : List (String × Json)} (h : fields.Perm fields')
    (distinct : (fields.map Prod.fst).Nodup) : Same (.obj fields) (.obj fields') := by
  have hkeys : ((fields.map sortedField).map Prod.fst).Nodup := by
    simpa only [List.map_map, Function.comp_def, fst_sortedField] using distinct
  simp only [Same, sorted, sortedFields_eq_map, Json.obj.injEq]
  refine List.Perm.eq_of_pairwise ?_ (sort_keys _) (sort_keys _) ?_
  · intro f g hf hg hle hge
    have hf := (List.mem_insertionSort _).mp hf
    have hg := (h.map sortedField).mem_iff.mpr ((List.mem_insertionSort _).mp hg)
    exact List.inj_on_of_nodup_map hkeys hf hg (String.le_antisymm hle hge)
  · exact (List.perm_insertionSort _ _).trans
      ((h.map sortedField).trans (List.perm_insertionSort _ _).symm)

theorem Same.length_eq {fields fields' : List (String × Json)}
    (h : Same (.obj fields) (.obj fields')) : fields.length = fields'.length := by
  simp only [Same, sorted, sortedFields_eq_map, Json.obj.injEq] at h
  simpa using congrArg List.length h

theorem eq_of_perm_of_keys : {fields fields' : List (String × Json)} → fields.Perm fields' →
    fields.map Prod.fst = fields'.map Prod.fst → (fields.map Prod.fst).Nodup → fields = fields'
  | [], _, h, _, _ => h.nil_eq
  | _ :: _, [], h, _, _ => absurd h.symm.nil_eq (by simp)
  | f :: fs, g :: gs, h, keys, distinct => by
    obtain ⟨hkey, hkeys⟩ := List.cons.inj keys
    have hg : g ∈ f :: fs := h.mem_iff.mpr List.mem_cons_self
    have he : g = f := List.inj_on_of_nodup_map distinct hg List.mem_cons_self hkey.symm
    subst he
    rw [eq_of_perm_of_keys (List.Perm.cons_inv h) hkeys (List.nodup_cons.mp distinct).2]

/-- Objects with the same keys in the same places are the same only if their
values are. -/
theorem Same.values {fields fields' : List (String × Json)}
    (h : Same (.obj fields) (.obj fields')) (keys : fields.map Prod.fst = fields'.map Prod.fst)
    (distinct : (fields.map Prod.fst).Nodup) :
    fields.map sortedField = fields'.map sortedField := by
  have hfst : ∀ fs : List (String × Json), (fs.map sortedField).map Prod.fst = fs.map Prod.fst := by
    intro fs
    simp only [List.map_map, Function.comp_def, fst_sortedField]
  simp only [Same, sorted, sortedFields_eq_map, Json.obj.injEq] at h
  have hperm : (fields.map sortedField).Perm (fields'.map sortedField) := by
    have hsort := (List.perm_insertionSort (fun f g => f.1 ≤ g.1) (fields.map sortedField)).symm
    rw [h] at hsort
    exact hsort.trans (List.perm_insertionSort _ _)
  refine eq_of_perm_of_keys hperm ?_ ?_
  · rw [hfst, hfst, keys]
  · rw [hfst]
    exact distinct

end Json
