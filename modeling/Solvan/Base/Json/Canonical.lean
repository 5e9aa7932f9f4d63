import Mathlib.Algebra.Order.Ring.Int
import Mathlib.Data.List.Forall2
import Solvan.Base.Json.Read

/-! The canonical bytes of JSON values, and the values that have some. -/
namespace Json

/-- The bytes of a text. -/
def utf8 (s : String) : List UInt8 := s.toList.flatMap String.utf8EncodeChar

/-- The text of some bytes. -/
def ofUtf8 (bytes : List UInt8) : Option String := String.fromUTF8? bytes.toByteArray

theorem ofUtf8_utf8 (s : String) : ofUtf8 (utf8 s) = some s := by
  have hbytes : (utf8 s).toByteArray = s.toByteArray := by
    rw [← String.ofList_toList (s := s), String.toByteArray_ofList, String.ofList_toList]
    rfl
  unfold ofUtf8 String.fromUTF8?
  rw [hbytes, dif_pos s.isValidUTF8]
  rfl

mutual

/-- A value without floats, whose keys have one order in every encoding. -/
def plain : Json → Bool
  | .float _ => false
  | .arr items => plainItems items
  | .obj fields => plainFields fields
  | .null | .bool _ | .int _ | .str _ => true

def plainItems : List Json → Bool
  | [] => true
  | j :: js => plain j && plainItems js

def plainFields : List (String × Json) → Bool
  | [] => true
  | f :: fs => plainField f && plainFields fs

def plainField : String × Json → Bool
  | (k, j) => k.toList.all (fun c => decide (c.toNat < 128)) && plain j

end

mutual

/-- A value whose integers a double holds exactly. -/
def interoperable : Json → Bool
  | .int n => decide (n.natAbs < 2 ^ 53)
  | .arr items => interoperableItems items
  | .obj fields => interoperableFields fields
  | .null | .bool _ | .float _ | .str _ => true

def interoperableItems : List Json → Bool
  | [] => true
  | j :: js => interoperable j && interoperableItems js

def interoperableFields : List (String × Json) → Bool
  | [] => true
  | f :: fs => interoperableField f && interoperableFields fs

def interoperableField : String × Json → Bool
  | (_, j) => interoperable j

end

/-- How many bytes a text has. -/
def weight (cs : List Char) : Nat := (cs.map Char.utf8Size).sum

theorem length_utf8 (s : String) : (utf8 s).length = weight s.toList := by
  simp only [utf8, weight, List.length_flatMap, String.length_utf8EncodeChar]

@[simp] theorem weight_nil : weight [] = 0 := rfl

@[simp] theorem weight_cons (c : Char) (cs : List Char) : weight (c :: cs) = c.utf8Size + weight cs := by
  simp only [weight, List.map_cons, List.sum_cons]

@[simp] theorem weight_append (cs ds : List Char) : weight (cs ++ ds) = weight cs + weight ds := by
  simp only [weight, List.map_append, List.sum_append]

theorem weight_le (cs : List Char) : weight cs ≤ 4 * cs.length := by
  induction cs with
  | nil => exact Nat.le_refl _
  | cons c cs ih =>
    have hc := c.utf8Size_le_four
    rw [weight_cons, List.length_cons]
    omega

theorem weight_escape (c : Char) : weight (escape c) ≤ 6 := by
  have hhex : ∀ n, n < 16 → (Nat.digitChar n).utf8Size = 1 := by decide
  unfold escape
  split_ifs with h₁ h₂ h₃ h₄ h₅ h₆ h₇ h₈
  all_goals try decide
  · simp only [weight_cons, weight_nil, hhex _ (show c.toNat / 16 < 16 by omega),
      hhex _ (show c.toNat % 16 < 16 by omega)]
    decide
  · have hc := c.utf8Size_le_four
    rw [weight_cons, weight_nil]
    omega

theorem weight_quote (s : String) : weight (quote s) ≤ 6 * s.toList.length + 2 := by
  have hall : ∀ cs : List Char, weight (cs.flatMap escape) ≤ 6 * cs.length := by
    intro cs
    induction cs with
    | nil => exact Nat.le_refl _
    | cons c cs ih =>
      have hc := weight_escape c
      rw [List.flatMap_cons, weight_append, List.length_cons]
      omega
  have hquote : ('\x22').utf8Size = 1 := by decide
  have hs := hall s.toList
  rw [quote, weight_cons, weight_append, weight_cons, weight_nil, hquote]
  omega

theorem length_intText {n : Int} (h : n.natAbs < 2 ^ 53) : (intText n).length ≤ 17 := by
  have hdigits : ∀ m : Nat, m < 10 ^ 16 → (Nat.toDigits 10 m).length ≤ 16 := fun m hm =>
    (Nat.length_toDigits_le_iff (by decide) (by decide)).mpr hm
  have hbound : (2 : Nat) ^ 53 ≤ 10 ^ 16 := by decide
  cases n with
  | ofNat m =>
    have hm : m < 2 ^ 53 := h
    exact (hdigits m (by omega)).trans (by decide)
  | negSucc m =>
    have hm : m + 1 < 2 ^ 53 := h
    have hlength := hdigits (m + 1) (by omega)
    rw [intText, List.length_cons]
    omega

theorem weight_field {k : String} {j : Json} {a b : Nat} (hk : weight (quote k) ≤ a) (hj : weight j.text ≤ b) :
    weight (fieldText (k, j)) ≤ a + b + 1 := by
  have hcolon : (':').utf8Size = 1 := by decide
  rw [fieldText, weight_append, weight_cons, hcolon]
  omega

theorem weight_fieldsTail {fields : List (String × Json)} {bounds : List Nat}
    (h : List.Forall₂ (fun f b => weight (fieldText f) ≤ b) fields bounds) :
    weight (fieldsTail fields) ≤ bounds.sum + bounds.length + 1 := by
  induction h with
  | nil => decide
  | cons hfield _ ih =>
    have hcomma : (',').utf8Size = 1 := by decide
    rw [fieldsTail, weight_cons, weight_append, List.sum_cons, List.length_cons, hcomma]
    omega

/-- The size of an object, from the sizes of its fields. -/
theorem weight_obj {f : String × Json} {fields : List (String × Json)} {b : Nat} {bounds : List Nat}
    (hf : weight (fieldText f) ≤ b) (h : List.Forall₂ (fun f b => weight (fieldText f) ≤ b) fields bounds) :
    weight (text (.obj (f :: fields))) ≤ b + bounds.sum + bounds.length + 2 := by
  have htail := weight_fieldsTail h
  have hopen : ('\x7b').utf8Size = 1 := by decide
  rw [text, fieldsText, weight_cons, weight_append, hopen]
  omega

theorem weight_quote_plain {s : String} (h : ∀ c ∈ s.toList, escape c = [c]) :
    weight (quote s) = weight s.toList + 2 := by
  have hescaped : s.toList.flatMap escape = s.toList := by
    rw [List.flatMap_congr h]
    exact List.flatMap_singleton' _
  have hquote : ('\x22').utf8Size = 1 := by decide
  rw [quote, hescaped, weight_cons, weight_append, weight_cons, weight_nil, hquote]
  omega

theorem weight_fieldsTail_eq (fields : List (String × Json)) :
    weight (fieldsTail fields) = (fields.map (fun f => weight (fieldText f) + 1)).sum + 1 := by
  induction fields with
  | nil => rfl
  | cons f fields ih =>
    have hcomma : (',').utf8Size = 1 := by decide
    rw [fieldsTail, weight_cons, weight_append, List.map_cons, List.sum_cons, ih, hcomma]
    omega

/-- The exact size of an object that has fields. -/
theorem weight_obj_eq {fields : List (String × Json)} (hne : fields ≠ []) :
    weight (text (.obj fields)) = (fields.map (fun f => weight (fieldText f) + 1)).sum + 1 := by
  cases fields with
  | nil => exact absurd rfl hne
  | cons f fields =>
    have hopen : ('\x7b').utf8Size = 1 := by decide
    rw [text, fieldsText, weight_cons, weight_append, weight_fieldsTail_eq, List.map_cons, List.sum_cons, hopen]
    omega

theorem weight_itemsTail_eq (items : List Json) :
    weight (itemsTail items) = (items.map (fun j => weight j.text + 1)).sum + 1 := by
  induction items with
  | nil => rfl
  | cons j items ih =>
    have hcomma : (',').utf8Size = 1 := by decide
    rw [itemsTail, weight_cons, weight_append, List.map_cons, List.sum_cons, ih, hcomma]
    omega

/-- The exact size of a list that has items. -/
theorem weight_arr_eq {items : List Json} (hne : items ≠ []) :
    weight (text (.arr items)) = (items.map (fun j => weight j.text + 1)).sum + 1 := by
  cases items with
  | nil => exact absurd rfl hne
  | cons j items =>
    have hopen : ('[').utf8Size = 1 := by decide
    rw [text, itemsText, weight_cons, weight_append, weight_itemsTail_eq, List.map_cons, List.sum_cons, hopen]
    omega

end Json
