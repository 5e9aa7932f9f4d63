import Mathlib.Data.List.Basic

/-! Texts of bytes in base 16, which may have blanks between the bytes. -/
namespace Hex

/-- The blanks of ASCII. -/
def isSpace (c : Char) : Bool := c == ' ' || (9 ≤ c.toNat && c.toNat ≤ 13)

def lowerDigits : List Char := "0123456789abcdef".toList

/-- The value of a digit, whatever its case. -/
def digitValue (c : Char) : Option Nat := lowerDigits.idxOf? c.toLower

/-- `bytes.fromhex` -/
def fromhex : List Char → Option (List UInt8)
  | [] => some []
  | [c] => if isSpace c then some [] else none
  | c :: d :: rest =>
    if isSpace c then fromhex (d :: rest)
    else do
      let high ← digitValue c
      let low ← digitValue d
      let bytes ← fromhex rest
      return UInt8.ofNat (16 * high + low) :: bytes

/-- `hexdigest` of some bytes -/
def hexdigest (bytes : List UInt8) : List Char :=
  bytes.flatMap (fun b => [lowerDigits.getD (b.toNat / 16) '0', lowerDigits.getD (b.toNat % 16) '0'])

/-- Bytes in lower case, with blanks before, between and after them. -/
inductive Bytes : List Char → Prop
  | nil : Bytes []
  | blank {c : Char} {cs : List Char} (hc : isSpace c = true) (h : Bytes cs) : Bytes (c :: cs)
  | byte {c d : Char} {cs : List Char} (hc : c ∈ lowerDigits) (hd : d ∈ lowerDigits) (h : Bytes cs) :
      Bytes (c :: d :: cs)

variable {c d : Char} {cs ds : List Char} {bytes : List UInt8}

theorem lowerDigit_facts : ∀ c ∈ lowerDigits, isSpace c = false ∧ c.toLower = c ∧ c.toNat < 128 ∧
    digitValue c = some (lowerDigits.idxOf c) := by
  have hall : lowerDigits.all (fun c => decide (isSpace c = false ∧ c.toLower = c ∧ c.toNat < 128 ∧
      digitValue c = some (lowerDigits.idxOf c))) = true := by decide +kernel
  exact fun c hc => of_decide_eq_true (List.all_eq_true.mp hall c hc)

theorem not_space (hc : c ∈ lowerDigits) : isSpace c = false := (lowerDigit_facts c hc).1

theorem digitValue_lower (hc : c ∈ lowerDigits) : digitValue c = some (lowerDigits.idxOf c) :=
  (lowerDigit_facts c hc).2.2.2

theorem toLower_space (hc : isSpace c = true) : c.toLower = c := by
  have hsmall : c.toNat ≤ 32 := by
    unfold isSpace at hc
    rw [Bool.or_eq_true, beq_iff_eq, Bool.and_eq_true, decide_eq_true_eq, decide_eq_true_eq] at hc
    obtain rfl | hc := hc
    · decide
    · omega
  unfold Char.toLower
  refine dif_neg (fun hupper => ?_)
  have hle : 65 ≤ c.toNat := UInt32.le_iff_toNat_le.mp hupper.1
  omega

/-- A digit that is its own lower case is one of the lower-case ones. -/
theorem lower_of_digitValue {n : Nat} (h : digitValue c = some n) (hlower : c.toLower = c) : c ∈ lowerDigits := by
  unfold digitValue at h
  rw [hlower] at h
  by_contra hnot
  rw [List.idxOf?_eq_none_iff.mpr hnot] at h
  cases h

theorem Bytes.lower (h : Bytes cs) : cs.map Char.toLower = cs := by
  induction h with
  | nil => rfl
  | blank hc _ ih => rw [List.map_cons, ih, toLower_space hc]
  | byte hc hd _ ih =>
    rw [List.map_cons, List.map_cons, ih, (lowerDigit_facts _ hc).2.1, (lowerDigit_facts _ hd).2.1]

theorem fromhex_blank (hc : isSpace c = true) : fromhex (c :: cs) = fromhex cs := by
  cases cs with
  | nil => exact if_pos hc
  | cons d rest => exact if_pos hc

theorem fromhex_byte (hc : c ∈ lowerDigits) (hd : d ∈ lowerDigits) : fromhex (c :: d :: cs) =
    (fromhex cs).map (UInt8.ofNat (16 * lowerDigits.idxOf c + lowerDigits.idxOf d) :: ·) := by
  rw [fromhex, if_neg (by rw [not_space hc]; exact Bool.false_ne_true), digitValue_lower hc, digitValue_lower hd]
  cases fromhex cs <;> rfl

/-- The texts in lower case that are read as bytes. -/
theorem bytes_iff : Bytes cs ↔ (fromhex cs).isSome = true ∧ cs.map Char.toLower = cs := by
  constructor
  · intro h
    refine ⟨?_, h.lower⟩
    induction h with
    | nil => rfl
    | blank hc _ ih => rwa [fromhex_blank hc]
    | byte hc hd _ ih => rwa [fromhex_byte hc hd, Option.isSome_map]
  · rintro ⟨hread, hlower⟩
    fun_induction fromhex cs with
    | case1 => exact .nil
    | case2 c hc => exact .blank hc .nil
    | case3 c hc => cases hread
    | case4 c d rest hc ih => exact .blank hc (ih hread (List.cons.inj hlower).2)
    | case5 c d rest hc ih =>
      obtain ⟨hlow, hrest⟩ := List.cons.inj hlower
      obtain ⟨hlow', hrest⟩ := List.cons.inj hrest
      cases hhigh : digitValue c with
      | none => simp [hhigh] at hread
      | some high =>
        cases hdigit : digitValue d with
        | none => simp [hhigh, hdigit] at hread
        | some low =>
          cases hbytes : fromhex rest with
          | none => simp [hhigh, hdigit, hbytes] at hread
          | some bytes =>
            exact .byte (lower_of_digitValue hhigh hlow) (lower_of_digitValue hdigit hlow')
              (ih (by rw [hbytes]; rfl) hrest)

/-- Two characters a byte, the blanks apart. -/
theorem Bytes.length (h : Bytes cs) (hread : fromhex cs = some bytes) :
    cs.length = 2 * bytes.length + cs.countP isSpace := by
  induction h generalizing bytes with
  | nil =>
    obtain rfl := Option.some.inj hread
    rfl
  | blank hc _ ih =>
    rw [fromhex_blank hc] at hread
    rw [List.length_cons, List.countP_cons_of_pos hc, ih hread]
    omega
  | byte hc hd _ ih =>
    rw [fromhex_byte hc hd] at hread
    obtain ⟨rest, hrest, rfl⟩ := Option.map_eq_some_iff.mp hread
    rw [List.countP_cons_of_neg (by rw [not_space hc]; exact Bool.false_ne_true),
      List.countP_cons_of_neg (by rw [not_space hd]; exact Bool.false_ne_true), List.length_cons, List.length_cons,
      ih hrest, List.length_cons]
    omega

/-- Digits in pairs are bytes. -/
theorem bytes_of_digits {n : Nat} (hlength : cs.length = 2 * n) (hdigits : ∀ c ∈ cs, c ∈ lowerDigits) : Bytes cs := by
  induction n generalizing cs with
  | zero =>
    obtain rfl := List.length_eq_zero_iff.mp hlength
    exact .nil
  | succ n ih =>
    match cs, hlength with
    | c :: d :: rest, hlength =>
      obtain ⟨hc, hrest⟩ := List.forall_mem_cons.mp hdigits
      obtain ⟨hd, hrest⟩ := List.forall_mem_cons.mp hrest
      refine .byte hc hd (ih ?_ hrest)
      simp only [List.length_cons] at hlength
      omega

theorem Bytes.digits (h : Bytes cs) (hblank : ∀ c ∈ cs, isSpace c = false) : ∀ c ∈ cs, c ∈ lowerDigits := by
  induction h with
  | nil => exact fun c hc => nomatch hc
  | blank hc _ _ =>
    rw [hblank _ List.mem_cons_self] at hc
    cases hc
  | byte hc hd _ ih =>
    refine List.forall_mem_cons.mpr ⟨hc, List.forall_mem_cons.mpr ⟨hd, ih (fun c hmem => ?_)⟩⟩
    exact hblank c (List.mem_cons_of_mem _ (List.mem_cons_of_mem _ hmem))

/-- Without blanks, bytes have one text. -/
theorem digits_unique (hcs : ∀ c ∈ cs, c ∈ lowerDigits) (hds : ∀ c ∈ ds, c ∈ lowerDigits)
    (hlength : cs.length = ds.length) (heven : cs.length % 2 = 0) (hread : fromhex cs = fromhex ds) : cs = ds := by
  obtain ⟨n, hn⟩ : ∃ n, cs.length = 2 * n := ⟨cs.length / 2, by omega⟩
  induction n generalizing cs ds with
  | zero =>
    rw [List.length_eq_zero_iff.mp hn, List.length_eq_zero_iff.mp (hlength.symm.trans hn)]
  | succ n ih =>
    match cs, ds, hn, hlength with
    | c :: d :: rest, c' :: d' :: rest', hn, hlength =>
      obtain ⟨hc, hcs⟩ := List.forall_mem_cons.mp hcs
      obtain ⟨hd, hcs⟩ := List.forall_mem_cons.mp hcs
      obtain ⟨hc', hds⟩ := List.forall_mem_cons.mp hds
      obtain ⟨hd', hds⟩ := List.forall_mem_cons.mp hds
      simp only [List.length_cons] at hn hlength heven
      rw [fromhex_byte hc hd, fromhex_byte hc' hd'] at hread
      obtain ⟨bytes, hbytes⟩ := Option.isSome_iff_exists.mp
        (bytes_iff.mp (bytes_of_digits (show rest.length = 2 * n by omega) hcs)).1
      obtain ⟨bytes', hbytes'⟩ := Option.isSome_iff_exists.mp
        (bytes_iff.mp (bytes_of_digits (show rest'.length = 2 * n by omega) hds)).1
      rw [hbytes, hbytes'] at hread
      obtain ⟨hfirst, hrest⟩ := List.cons.inj (Option.some.inj hread)
      have hsmall : ∀ c ∈ lowerDigits, lowerDigits.idxOf c < 16 := fun c hc => List.idxOf_lt_length_of_mem hc
      have hvalue := congrArg UInt8.toNat hfirst
      have hhigh := hsmall c hc
      have hlow := hsmall d hd
      have hhigh' := hsmall c' hc'
      have hlow' := hsmall d' hd'
      rw [UInt8.toNat_ofNat_of_lt' (by change _ < 256; omega), UInt8.toNat_ofNat_of_lt' (by change _ < 256; omega)] at hvalue
      have hcc : c = c' := (List.idxOf_inj hc).mp (by omega)
      have hdd : d = d' := (List.idxOf_inj hd).mp (by omega)
      rw [hcc, hdd, ih hcs hds (by omega) (by omega) (by rw [hbytes, hbytes', hrest]) (by omega)]

theorem hexdigest_digits : ∀ c ∈ hexdigest bytes, c ∈ lowerDigits := by
  have hdigit : ∀ n < 16, lowerDigits.getD n '0' ∈ lowerDigits := by decide
  intro c hc
  obtain ⟨b, -, hc⟩ := List.mem_flatMap.mp hc
  have hb := b.toNat_lt
  obtain rfl | hc := List.mem_cons.mp hc
  · exact hdigit _ (by omega)
  · rw [List.mem_singleton.mp hc]
    exact hdigit _ (by omega)

theorem length_hexdigest : (hexdigest bytes).length = 2 * bytes.length := by
  induction bytes with
  | nil => rfl
  | cons b bytes ih =>
    rw [hexdigest, List.flatMap_cons, List.length_append, List.length_cons, List.length_cons, List.length_nil]
    rw [hexdigest] at ih
    rw [ih, List.length_cons]
    omega

end Hex
