import Solvan.Alerts.Requests

/-! The documents of filters: what the standard library makes of them, and what `from_encoded` does. -/
namespace Solvan.Alerts.Requests
open Base
open Ingress (Text text Value)

theorem asString_text (s : String) : asString (text s) = s := by
  have hchars : (text s).map Char.ofNat = s.toList := by
    rw [text, List.map_map]
    exact (List.map_congr_left fun c _ => Char.ofNat_toNat c).trans (List.map_id _)
  rw [asString, hchars, String.ofList_toList]

theorem text_inj {s t : String} (h : text s = text t) : s = t := by
  rw [← asString_text s, h, asString_text]

theorem stringOf_text (s : String) : stringOf (text s) = some s := by
  have hvalid : (text s).all (fun c => decide (c.isValidChar)) = true := by
    refine List.all_eq_true.mpr fun c hc => ?_
    obtain ⟨d, -, rfl⟩ := List.mem_map.mp hc
    exact decide_eq_true d.valid
  rw [stringOf, if_pos hvalid, asString_text]

theorem text_asString {t : Text} (h : ∀ c ∈ t, c.isValidChar) : text (asString t) = t := by
  rw [text, asString, String.toList_ofList, List.map_map]
  refine (List.map_congr_left fun c hc => ?_).trans (List.map_id _)
  rw [Function.comp_apply, Char.ofNat, dif_pos (h c hc)]
  rfl

/-- A value of a filter's document. -/
inductive Entry : Json → Prop
  | null : Entry .null
  | int {n : Int} (h : n.natAbs < 2 ^ 53) : Entry (.int n)
  | str (s : String) : Entry (.str s)
  | strings (values : List String) : Entry (strings values)

/-- The fields of a filter's document, in some order. -/
structure Document (fields : List (String × Json)) : Prop where
  distinct : (fields.map Prod.fst).Nodup
  known : ∀ field ∈ fields, field.1 ∈ filterKeys
  entries : ∀ field ∈ fields, Entry field.2

/-- Fields with their keys in order. -/
def inOrder (fields : List (String × Json)) : List (String × Json) := fields.insertionSort (fun f g => f.1 ≤ g.1)

/-- What is known of the standard library and of canonical JSON. -/
structure Lawful (lib : Library) : Prop where
  canonical_document : ∀ fields, Document fields →
    lib.canonical (.obj (ofFields lib.double fields)) = .ok (Json.utf8 (Json.dumps (.obj fields)))
  loads_document : ∀ fields, Document fields →
    lib.loads closedObject (Json.utf8 (Json.dumps (.obj fields))) = .ok (.obj (ofFields lib.double (inOrder fields)))
  /-- It reads what `isoformat` wrote. -/
  reads : ∀ d : Datetime, d.utcoffset = some 0 → lib.fromisoformat (text (String.ofList (timeText d))) = some d
  space_blank : lib.space 32 = true
  fold_blank : lib.fold 32 = [32]
  fold_ne : ∀ c, lib.fold c ≠ []
  fold_fold : ∀ c, (lib.fold c).flatMap lib.fold = lib.fold c
  fold_solid : ∀ c, lib.space c = false → ∀ d ∈ lib.fold c, lib.space d = false
  /-- No lone surrogate is a word's. -/
  word_valid : ∀ c, lib.word c = true → c.isValidChar
  word_ascii : ∀ c < 128, lib.word c = true → 48 ≤ c ∧ c ≤ 57 ∨ 65 ≤ c ∧ c ≤ 90 ∨ 97 ≤ c ∧ c ≤ 122 ∨ c = 95

section Documents

variable {fields fields' : List (String × Json)} {j : Json}

theorem Document.perm (h : Document fields) (hperm : fields.Perm fields') : Document fields' where
  distinct := (hperm.map Prod.fst).nodup_iff.mp h.distinct
  known field hfield := h.known field (hperm.mem_iff.mpr hfield)
  entries field hfield := h.entries field (hperm.mem_iff.mpr hfield)

theorem inOrder_perm : (inOrder fields).Perm fields := List.perm_insertionSort _ _

theorem Entry.sorted (h : Entry j) : j.sorted = j := by
  cases h with
  | null | int | str => rfl
  | strings values =>
    have hitems : (values.map Json.str).map Json.sorted = values.map Json.str := by
      rw [List.map_map]
      rfl
    rw [Alerts.strings, Json.sorted, Json.sortedItems_eq_map, hitems]

theorem Document.sorted (h : Document fields) : (Json.obj fields).sorted = .obj (inOrder fields) := by
  have hfields : fields.map Json.sortedField = fields :=
    (List.map_congr_left fun field hfield => by
      rw [Json.sortedField_eq, (h.entries field hfield).sorted, id_eq]).trans (List.map_id _)
  rw [Json.sorted, Json.sortedFields_eq_map, hfields]
  rfl

/-- The size of a document does not depend on the order of its fields. -/
theorem Document.length_utf8 (h : Document fields) (hne : fields ≠ []) :
    (Json.utf8 (Json.dumps (.obj fields))).length =
      (fields.map (fun f => Json.weight (Json.fieldText f) + 1)).sum + 1 := by
  have hsorted : inOrder fields ≠ [] := fun hnil => hne (hnil ▸ inOrder_perm).symm.eq_nil
  rw [Json.length_utf8, Json.dumps, String.toList_ofList, h.sorted, Json.weight_obj_eq hsorted]
  exact congrArg (· + 1) (inOrder_perm.map _).sum_eq

end Documents

/-- `_b64_encode` -/
def b64EncodeText (bytes : List UInt8) : Text := (Base64Url.encode bytes).map Char.toNat

theorem b64DecodeText_encode {bytes : List UInt8} (hne : bytes ≠ []) (hlength : bytes.length ≤ 6144) :
    b64DecodeText (b64EncodeText bytes) = .ok bytes := by
  have halphabet : Base64Url.alphabet.all (fun c => decide (c.toNat < 128)) = true := by decide +kernel
  have hascii : (b64EncodeText bytes).all (fun c => decide (c < 128)) = true := by
    refine List.all_eq_true.mpr fun c hc => ?_
    obtain ⟨d, hd, rfl⟩ := List.mem_map.mp hc
    exact List.all_eq_true.mp halphabet d (Base64Url.encode_alphabet bytes d hd)
  have hchars : (b64EncodeText bytes).map Char.ofNat = Base64Url.encode bytes := by
    rw [b64EncodeText, List.map_map]
    exact (List.map_congr_left fun c _ => Char.ofNat_toNat c).trans (List.map_id _)
  rw [b64DecodeText, if_pos hascii, hchars, b64Decode_encode hne hlength]

theorem b64DecodeText_long {bytes : List UInt8} (hlength : 6144 < bytes.length) :
    b64DecodeText (b64EncodeText bytes) = refuse := by
  have hsize := Base64Url.length_encode bytes
  have hlong : decide (8192 < ((b64EncodeText bytes).map Char.ofNat).length) = true := by
    rw [b64EncodeText, List.length_map, List.length_map]
    exact decide_eq_true (by omega)
  unfold b64DecodeText
  rw [b64Decode, hlong, Bool.or_true, Bool.true_or, if_pos rfl]
  exact ite_self _

section Reading

variable {lib : Library} {fields : List (String × Json)} {key : String} {j : Json}

theorem ofFields_eq_map {Double : Type} (double : Decimal → Double) (fields : List (String × Json)) :
    ofFields double fields = fields.map (fun f => (text f.1, ofJson double f.2)) := by
  induction fields with
  | nil => rfl
  | cons f fields ih => rw [ofFields, ih, List.map_cons, ofField]

theorem get_document (distinct : (fields.map Prod.fst).Nodup) (h : (key, j) ∈ fields) (default : Item lib) :
    get lib (ofFields lib.double fields) key default = ofJson lib.double j := by
  induction fields with
  | nil => cases h
  | cons f fields ih =>
    obtain ⟨hfirst, hrest⟩ := List.nodup_cons.mp distinct
    rw [ofFields, ofField, get, List.lookup_cons]
    obtain rfl | h := List.mem_cons.mp h
    · rw [beq_self_eq_true]
      rfl
    · have hne : (text key == text f.1) = false :=
        beq_eq_false_iff_ne.mpr fun heq => hfirst (text_inj heq ▸ List.mem_map_of_mem h)
      rw [hne]
      exact ih hrest h

theorem get_absent (h : key ∉ fields.map Prod.fst) (default : Item lib) :
    get lib (ofFields lib.double fields) key default = default := by
  induction fields with
  | nil => rfl
  | cons f fields ih =>
    rw [List.map_cons, List.mem_cons, not_or] at h
    have hne : (text key == text f.1) = false := beq_eq_false_iff_ne.mpr fun heq => h.1 (text_inj heq)
    rw [ofFields, ofField, get, List.lookup_cons, hne]
    exact ih h.2

theorem dumps_inOrder (h : Document fields) :
    Json.dumps (.obj (inOrder fields)) = Json.dumps (.obj fields) :=
  Json.dumps_eq_iff.mpr (Json.same_of_perm inOrder_perm (h.perm inOrder_perm.symm).distinct)

/-- A short document is read as the filter that its fields give. -/
theorem fromEncoded_document (hlib : Lawful lib) (h : Document fields) (hne : fields ≠ [])
    (hlength : (Json.utf8 (Json.dumps (.obj fields))).length ≤ 6144) :
    fromEncoded lib (some (b64EncodeText (Json.utf8 (Json.dumps (.obj fields))))) =
      readFilter lib (ofFields lib.double (inOrder fields)) := by
  have hbytes : Json.utf8 (Json.dumps (.obj fields)) ≠ [] := fun hnil => by
    have hsize := h.length_utf8 hne
    rw [hnil] at hsize
    cases hsize
  have hordered := h.perm inOrder_perm.symm
  have hkeys : (ofFields lib.double (inOrder fields)).all
      (fun field => (filterKeys.map text).contains field.1) = true := by
    rw [ofFields_eq_map, List.all_map]
    refine List.all_eq_true.mpr fun field hfield => List.contains_iff_mem.mpr ?_
    exact List.mem_map_of_mem (hordered.known field hfield)
  have hcanonical := hlib.canonical_document _ hordered
  rw [dumps_inOrder h] at hcanonical
  have hload : load lib closedObject (Json.utf8 (Json.dumps (.obj fields))) = _ :=
    load_ok.mpr (hlib.loads_document fields h)
  have hdumps := dumps_ok.mpr hcanonical
  unfold fromEncoded
  dsimp only
  rw [b64DecodeText_encode hbytes hlength]
  show (load lib closedObject (Json.utf8 (Json.dumps (.obj fields))) >>= readDocument lib _) = _
  rw [hload]
  show (require _ >>= _) = _
  rw [hkeys]
  show (dumps lib _ >>= _) = _
  rw [hdumps]
  show (require (_ == _) >>= _) = _
  rw [beq_self_eq_true]
  rfl

theorem fromEncoded_long {bytes : List UInt8} (h : 6144 < bytes.length) :
    fromEncoded lib (some (b64EncodeText bytes)) = refuse := by
  unfold fromEncoded
  dsimp only
  rw [b64DecodeText_long h]
  rfl

end Reading

end Solvan.Alerts.Requests
