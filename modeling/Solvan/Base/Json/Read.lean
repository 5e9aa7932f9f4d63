import Solvan.Base.Json.Text

/-! A reader of the text of JSON values, and that it gives back what was written. -/
namespace Json

def hexValue (c : Char) : Option Nat :=
  if c.isDigit then some (c.toNat - 48)
  else if 'a' ≤ c ∧ c ≤ 'f' then some (c.toNat - 87)
  else none

/-- The inverse of `escape` for the one-letter escapes. -/
def unescape : Char → Option Char
  | '\x22' => some '\x22'
  | '\\' => some '\\'
  | '/' => some '/'
  | 'n' => some '\n'
  | 'r' => some '\r'
  | 't' => some '\t'
  | 'f' => some '\x0c'
  | 'b' => some '\x08'
  | _ => none

/-- The characters up to the closing quote, and what follows it. -/
def readString : List Char → Option (List Char × List Char)
  | [] => none
  | c :: cs =>
    if c = '\x22' then some ([], cs)
    else if c = '\\' then
      match cs with
      | 'u' :: d₃ :: d₂ :: d₁ :: d₀ :: rest => do
        let code := 4096 * (← hexValue d₃) + 256 * (← hexValue d₂) + 16 * (← hexValue d₁) +
          (← hexValue d₀)
        let (s, rest) ← readString rest
        return (Char.ofNat code :: s, rest)
      | e :: rest => do
        let c ← unescape e
        let (s, rest) ← readString rest
        return (c :: s, rest)
      | [] => none
    else do
      let (s, rest) ← readString cs
      return (c :: s, rest)

def isNumberChar (c : Char) : Bool :=
  c.isDigit || c == '-' || c == '+' || c == '.' || c == 'e'

def readInt : List Char → Option Int
  | '-' :: cs => if !cs.isEmpty && cs.all Char.isDigit then some (-(Nat.ofDigitChars 10 cs 0)) else none
  | cs => if !cs.isEmpty && cs.all Char.isDigit then some (Nat.ofDigitChars 10 cs 0) else none

def readNumber (cs : List Char) : Option (Json × List Char) :=
  let token := cs.takeWhile isNumberChar
  let rest := cs.dropWhile isNumberChar
  if token.any (fun c => c == '.' || c == 'e') then
    if h : isDecimal token = true then some (.float ⟨token, h⟩, rest) else none
  else (readInt token).map (fun n => (.int n, rest))

mutual

def readValue : Nat → List Char → Option (Json × List Char)
  | 0, _ => none
  | fuel + 1, cs =>
    match cs with
    | 'n' :: 'u' :: 'l' :: 'l' :: rest => some (.null, rest)
    | 't' :: 'r' :: 'u' :: 'e' :: rest => some (.bool true, rest)
    | 'f' :: 'a' :: 'l' :: 's' :: 'e' :: rest => some (.bool false, rest)
    | '\x22' :: rest => (readString rest).map (fun (s, rest) => (.str (String.ofList s), rest))
    | '[' :: ']' :: rest => some (.arr [], rest)
    | '[' :: rest => (readItems fuel rest).map (fun (items, rest) => (.arr items, rest))
    | '\x7b' :: '\x7d' :: rest => some (.obj [], rest)
    | '\x7b' :: rest => (readFields fuel rest).map (fun (fields, rest) => (.obj fields, rest))
    | cs => readNumber cs

/-- One item or more, up to the closing bracket. -/
def readItems : Nat → List Char → Option (List Json × List Char)
  | 0, _ => none
  | fuel + 1, cs => do
    let (j, rest) ← readValue fuel cs
    match rest with
    | ']' :: rest => return ([j], rest)
    | ',' :: rest => do
      let (js, rest) ← readItems fuel rest
      return (j :: js, rest)
    | _ => none

def readFields : Nat → List Char → Option (List (String × Json) × List Char)
  | 0, _ => none
  | fuel + 1, cs =>
    match cs with
    | '\x22' :: rest => do
      let (k, rest) ← readString rest
      match rest with
      | ':' :: rest => do
        let (j, rest) ← readValue fuel rest
        match rest with
        | '\x7d' :: rest => return ([(String.ofList k, j)], rest)
        | ',' :: rest => do
          let (fs, rest) ← readFields fuel rest
          return ((String.ofList k, j) :: fs, rest)
        | _ => none
      | _ => none
    | _ => none

end

/-- `json.loads` on text that `dumps` may have written. -/
def loads (s : String) : Option Json :=
  match readValue (s.toList.length + 1) s.toList with
  | some (j, []) => some j
  | _ => none

theorem hexValue_digitChar {n : Nat} (h : n < 16) : hexValue (Nat.digitChar n) = some n := by
  decide +revert

theorem readString_close (cs : List Char) : readString ('\x22' :: cs) = some ([], cs) := by
  unfold readString
  simp

theorem readString_plain {c : Char} (hq : c ≠ '\x22') (hb : c ≠ '\\') (cs : List Char) :
    readString (c :: cs) = (readString cs).map (fun (s, rest) => (c :: s, rest)) := by
  rw [readString.eq_def]
  simp only [hq, hb, ↓reduceIte]
  cases readString cs <;> rfl

theorem readString_escape (c : Char) (cs : List Char) :
    readString (escape c ++ cs) = (readString cs).map (fun (s, rest) => (c :: s, rest)) := by
  unfold escape
  split
  · next h => subst h; cases h : readString cs <;> simp [readString, unescape, h]
  split
  · next h => subst h; cases h : readString cs <;> simp [readString, unescape, h]
  split
  · next h => subst h; cases h : readString cs <;> simp [readString, unescape, h]
  split
  · next h => subst h; cases h : readString cs <;> simp [readString, unescape, h]
  split
  · next h => subst h; cases h : readString cs <;> simp [readString, unescape, h]
  split
  · next h => subst h; cases h : readString cs <;> simp [readString, unescape, h]
  split
  · next h => subst h; cases h : readString cs <;> simp [readString, unescape, h]
  split
  · next h =>
    have hcode : 16 * (c.toNat / 16) + c.toNat % 16 = c.toNat := by omega
    cases hr : readString cs <;>
      simp [readString, hexValue_digitChar (n := c.toNat / 16) (by omega),
        hexValue_digitChar (n := c.toNat % 16) (by omega), hr, hcode, show hexValue '0' = some 0 from by decide]
  · next hq hb _ _ _ _ _ _ => exact readString_plain hq hb cs

theorem readString_quote (s : String) (rest : List Char) :
    readString (s.toList.flatMap escape ++ '\x22' :: rest) = some (s.toList, rest) := by
  generalize s.toList = cs
  induction cs with
  | nil => exact readString_close rest
  | cons c cs ih => rw [List.flatMap_cons, List.append_assoc, readString_escape, ih]; rfl

/-- Nothing that a number would go on into. -/
def Stops (rest : List Char) : Prop := ∀ c ∈ rest.head?, isNumberChar c = false

theorem span_token {token rest : List Char} (h : ∀ c ∈ token, isNumberChar c = true)
    (stops : Stops rest) :
    (token ++ rest).takeWhile isNumberChar = token ∧
      (token ++ rest).dropWhile isNumberChar = rest := by
  rw [List.takeWhile_append_of_pos h, List.dropWhile_append_of_pos h]
  cases rest with
  | nil => simp
  | cons c rest => simp [stops c rfl]

theorem readNumber_float (x : Decimal) {rest : List Char}
    (number : ∀ c ∈ x.text, isNumberChar c = true)
    (point : x.text.any (fun c => c == '.' || c == 'e') = true) (stops : Stops rest) :
    readNumber (x.text ++ rest) = some (.float x, rest) := by
  obtain ⟨ht, hd⟩ := span_token number stops
  simp only [readNumber, ht, hd, point, ↓reduceIte, x.ok, ↓reduceDIte]

theorem isNumberChar_of_isDigit {c : Char} (h : c.isDigit = true) : isNumberChar c = true := by
  simp [isNumberChar, h]

theorem number_of_digits {cs : List Char} (h : cs.all Char.isDigit = true) :
    ∀ c ∈ cs, isNumberChar c = true :=
  fun c hc => isNumberChar_of_isDigit (List.all_eq_true.mp h c hc)

theorem number_of_whole (cs : List Char) :
    ∀ c ∈ cs.takeWhile Char.isDigit, isNumberChar c = true :=
  number_of_digits List.all_takeWhile

theorem isExponent_number {cs : List Char} (h : isExponent cs = true) :
    (∀ c ∈ cs, isNumberChar c = true) ∧ (cs.any (fun c => c == '.' || c == 'e')) = true := by
  unfold isExponent at h
  split at h
  · rename_i sign digits
    simp only [Bool.and_eq_true, Bool.or_eq_true, beq_iff_eq] at h
    obtain ⟨⟨hsign, -⟩, hdigits⟩ := h
    refine ⟨?_, by simp⟩
    intro c hc
    rcases List.mem_cons.mp hc with rfl | hc
    · rfl
    rcases List.mem_cons.mp hc with rfl | hc
    · rcases hsign with rfl | rfl <;> rfl
    · exact number_of_digits hdigits c hc
  · cases h

theorem isFraction_number {cs : List Char} (h : isFraction cs = true) :
    (∀ c ∈ cs, isNumberChar c = true) ∧ (cs.any (fun c => c == '.' || c == 'e')) = true := by
  unfold isFraction at h
  split at h
  · rename_i cs
    simp only [Bool.and_eq_true, Bool.or_eq_true, List.isEmpty_iff] at h
    refine ⟨?_, by simp⟩
    intro c hc
    rcases List.mem_cons.mp hc with rfl | hc
    · rfl
    rw [← List.takeWhile_append_dropWhile (p := Char.isDigit) (l := cs)] at hc
    rcases List.mem_append.mp hc with hc | hc
    · exact number_of_whole cs c hc
    rcases h.2 with hnil | hexp
    · rw [hnil] at hc; cases hc
    · exact (isExponent_number hexp).1 c hc
  · exact isExponent_number h

theorem isUnsigned_number {cs : List Char} (h : isUnsigned cs = true) :
    (∃ c tail, cs = c :: tail ∧ c.isDigit = true) ∧
      (∀ c ∈ cs, isNumberChar c = true) ∧
      (cs.any (fun c => c == '.' || c == 'e')) = true := by
  simp only [isUnsigned, Bool.and_eq_true] at h
  obtain ⟨hwhole, hfraction⟩ := h
  have hsplit := List.takeWhile_append_dropWhile (p := Char.isDigit) (l := cs)
  obtain ⟨hnumber, hpoint⟩ := isFraction_number hfraction
  have hall := List.all_takeWhile (p := Char.isDigit) (l := cs)
  refine ⟨?_, ?_, ?_⟩
  · cases hw : cs.takeWhile Char.isDigit with
    | nil => simp [hw] at hwhole
    | cons c tail =>
      rw [hw] at hsplit hall
      exact ⟨c, _, hsplit.symm, List.all_eq_true.mp hall c (by simp)⟩
  · intro c hc
    rw [← hsplit] at hc
    rcases List.mem_append.mp hc with hc | hc
    · exact number_of_whole cs c hc
    · exact hnumber c hc
  · rw [← hsplit, List.any_append, hpoint, Bool.or_true]

/-- A decimal starts with a digit or a sign, has number characters only, and a
point or an exponent somewhere. -/
theorem isDecimal_parts {cs : List Char} (h : isDecimal cs = true) :
    (∃ c tail, cs = c :: tail ∧ (c.isDigit = true ∨ c = '-')) ∧
      (∀ c ∈ cs, isNumberChar c = true) ∧
      (cs.any (fun c => c == '.' || c == 'e')) = true := by
  unfold isDecimal at h
  split at h
  · rename_i cs
    obtain ⟨-, hnumber, hpoint⟩ := isUnsigned_number h
    refine ⟨⟨'-', cs, rfl, .inr rfl⟩, ?_, by simpa using hpoint⟩
    intro c hc
    rcases List.mem_cons.mp hc with rfl | hc
    · rfl
    · exact hnumber c hc
  · obtain ⟨⟨c, tail, he, hd⟩, hnumber, hpoint⟩ := isUnsigned_number h
    exact ⟨⟨c, tail, he, .inl hd⟩, hnumber, hpoint⟩

theorem readInt_digits {n : Nat} : readInt (Nat.toDigits 10 n) = some (n : Int) := by
  have hdigits : ∀ c ∈ Nat.toDigits 10 n, c.isDigit = true :=
    fun c hc => Nat.isDigit_of_mem_toDigits (by decide) (by decide) hc
  have hne : Nat.toDigits 10 n ≠ [] := Nat.toDigits_ne_nil
  have hall : (Nat.toDigits 10 n).all Char.isDigit = true := List.all_eq_true.mpr hdigits
  have hvalue := Nat.ofDigitChars_ten_toDigits (n := n)
  generalize Nat.toDigits 10 n = cs at *
  unfold readInt
  split
  · exact absurd (hdigits '-' (by simp)) (by decide)
  · simp [hne, hall, hvalue]

theorem readInt_text (n : Int) : readInt (intText n) = some n := by
  cases n with
  | ofNat n => exact readInt_digits
  | negSucc n =>
    have hdigits : ∀ c ∈ Nat.toDigits 10 (n + 1), c.isDigit = true :=
      fun c hc => Nat.isDigit_of_mem_toDigits (by decide) (by decide) hc
    have hall : (Nat.toDigits 10 (n + 1)).all Char.isDigit = true := List.all_eq_true.mpr hdigits
    simp [intText, readInt, hall, Nat.toDigits_ne_nil, Nat.ofDigitChars_ten_toDigits,
      Int.negSucc_eq]

theorem intText_chars (n : Int) :
    (∃ c tail, intText n = c :: tail ∧ (c.isDigit = true ∨ c = '-')) ∧
      ∀ c ∈ intText n, c.isDigit = true ∨ c = '-' := by
  have hdigits : ∀ m, ∀ c ∈ Nat.toDigits 10 m, c.isDigit = true :=
    fun m c hc => Nat.isDigit_of_mem_toDigits (by decide) (by decide) hc
  cases n with
  | ofNat n =>
    refine ⟨?_, fun c hc => .inl (hdigits n c hc)⟩
    obtain ⟨c, tail, he⟩ := List.exists_cons_of_ne_nil (Nat.toDigits_ne_nil (n := n) (b := 10))
    exact ⟨c, tail, he, .inl (hdigits n c (by rw [he]; simp))⟩
  | negSucc n =>
    refine ⟨⟨'-', _, rfl, .inr rfl⟩, ?_⟩
    intro c hc
    rcases List.mem_cons.mp hc with rfl | hc
    · exact .inr rfl
    · exact .inl (hdigits _ c hc)

theorem readNumber_int (n : Int) {rest : List Char} (stops : Stops rest) :
    readNumber (intText n ++ rest) = some (.int n, rest) := by
  have hchars := (intText_chars n).2
  have hnumber : ∀ c ∈ intText n, isNumberChar c = true := by
    intro c hc
    rcases hchars c hc with hd | rfl
    · exact isNumberChar_of_isDigit hd
    · rfl
  have hpoint : (intText n).any (fun c => c == '.' || c == 'e') = false := by
    apply List.any_eq_false.mpr
    intro c hc
    rcases hchars c hc with hd | rfl
    · intro he
      simp only [Bool.or_eq_true, beq_iff_eq] at he
      rcases he with rfl | rfl <;> cases hd
    · decide
  obtain ⟨ht, hd⟩ := span_token hnumber stops
  simp only [readNumber, ht, hd, hpoint, Bool.false_eq_true, ↓reduceIte, readInt_text,
    Option.map_some]

/-- What starts like a number is read as one. -/
theorem readValue_number {c : Char} (h : c.isDigit = true ∨ c = '-') (fuel : Nat)
    (cs : List Char) : readValue (fuel + 1) (c :: cs) = readNumber (c :: cs) := by
  have hne : ∀ d : Char, d.isDigit = false → d ≠ '-' → c ≠ d := by
    rintro d hd hm rfl
    rcases h with h | h
    · rw [hd] at h; cases h
    · exact hm h
  rw [readValue.eq_def]
  split
  · rename_i heq
    cases heq
  · split
    case h_9 => rfl
    all_goals
      rename_i heq
      exact absurd (List.cons.inj heq).1 (hne _ (by decide) (by decide))

/-- The text of a value never starts with a closing bracket. -/
theorem text_head (j : Json) : ∃ c tail, text j = c :: tail ∧ c ≠ ']' := by
  have hnumber : ∀ c : Char, c.isDigit = true ∨ c = '-' → c ≠ ']' := by
    rintro c h rfl
    rcases h with h | h
    · cases h
    · cases h
  cases j with
  | null => exact ⟨_, _, by rw [text], by decide⟩
  | bool b => cases b <;> exact ⟨_, _, by rw [text], by decide⟩
  | int n =>
    obtain ⟨c, tail, he, hc⟩ := (intText_chars n).1
    exact ⟨c, tail, by rw [text, he], hnumber c hc⟩
  | float x =>
    obtain ⟨c, tail, he, hc⟩ := (isDecimal_parts x.ok).1
    exact ⟨c, tail, by rw [text, he], hnumber c hc⟩
  | str s => exact ⟨_, _, by rw [text, quote], by decide⟩
  | arr items => exact ⟨_, _, by rw [text], by decide⟩
  | obj fields => exact ⟨_, _, by rw [text], by decide⟩

theorem stops_itemsTail (js : List Json) (rest : List Char) : Stops (itemsTail js ++ rest) := by
  cases js <;> simp [itemsTail, Stops, isNumberChar]

theorem stops_fieldsTail (fs : List (String × Json)) (rest : List Char) :
    Stops (fieldsTail fs ++ rest) := by
  cases fs <;> simp [fieldsTail, Stops, isNumberChar]

mutual

/-- Reading a value's text gives the value back and leaves what follows. -/
theorem readValue_text : (j : Json) → (fuel : Nat) → (rest : List Char) →
    (text j).length < fuel → Stops rest → readValue fuel (text j ++ rest) = some (j, rest)
  | _, 0, _, enough, _ => absurd enough (Nat.not_lt_zero _)
  | .null, _ + 1, _, _, _ => by simp [text, readValue]
  | .bool true, _ + 1, _, _, _ => by simp [text, readValue]
  | .bool false, _ + 1, _, _, _ => by simp [text, readValue]
  | .int n, fuel + 1, rest, _, stops => by
    obtain ⟨c, tail, he, hc⟩ := (intText_chars n).1
    have hread := readNumber_int n stops
    rw [he] at hread
    rw [text, he]
    exact (readValue_number hc fuel _).trans hread
  | .float x, fuel + 1, rest, _, stops => by
    obtain ⟨⟨c, tail, he, hc⟩, hnumber, hpoint⟩ := isDecimal_parts x.ok
    have hread := readNumber_float x hnumber hpoint stops
    rw [he] at hread
    rw [text, he]
    exact (readValue_number hc fuel _).trans hread
  | .str s, _ + 1, rest, _, _ => by
    have hread := readString_quote s rest
    simp [text, quote, readValue, hread]
  | .arr [], _ + 1, _, _, _ => by simp [text, itemsText, readValue]
  | .arr (j :: js), fuel + 1, rest, enough, _ => by
    have hread := readItems_text j js fuel rest (by simpa [text, itemsText] using enough)
    obtain ⟨c, tail, he, hc⟩ := text_head j
    rw [he] at hread
    simp only [text, itemsText, he, List.cons_append] at hread ⊢
    rw [readValue]
    · rw [hread]; rfl
    · intro rest' he'
      exact hc (List.cons.inj he').1
  | .obj [], _ + 1, _, _, _ => by simp [text, fieldsText, readValue]
  | .obj (f :: fs), fuel + 1, rest, enough, _ => by
    have hread := readFields_text f fs fuel rest (by simpa [text, fieldsText] using enough)
    obtain ⟨k, j⟩ := f
    simp only [text, fieldsText, fieldText, quote, List.cons_append] at hread ⊢
    rw [readValue]
    · rw [hread]; rfl
    · intro rest' he'
      exact absurd (List.cons.inj he').1 (by decide)

theorem readItems_text : (j : Json) → (js : List Json) → (fuel : Nat) → (rest : List Char) →
    (text j ++ itemsTail js).length < fuel →
    readItems fuel (text j ++ itemsTail js ++ rest) = some (j :: js, rest)
  | _, _, 0, _, enough => absurd enough (Nat.not_lt_zero _)
  | j, [], fuel + 1, rest, enough => by
    have hread := readValue_text j fuel (']' :: rest) (by simp [itemsTail] at enough; omega)
      (stops_itemsTail [] rest)
    simp [itemsTail, readItems, hread]
  | j, j' :: js, fuel + 1, rest, enough => by
    have hread := readValue_text j fuel (itemsTail (j' :: js) ++ rest)
      (by simp [itemsTail] at enough; omega) (stops_itemsTail _ rest)
    have htail := readItems_text j' js fuel rest (by simp [itemsTail] at enough ⊢; omega)
    simp only [itemsTail, List.cons_append, List.append_assoc] at hread htail ⊢
    simp [readItems, hread, htail]

theorem readFields_text : (f : String × Json) → (fs : List (String × Json)) → (fuel : Nat) →
    (rest : List Char) → (fieldText f ++ fieldsTail fs).length < fuel →
    readFields fuel (fieldText f ++ fieldsTail fs ++ rest) = some (f :: fs, rest)
  | _, _, 0, _, enough => absurd enough (Nat.not_lt_zero _)
  | (k, j), [], fuel + 1, rest, enough => by
    have hread := readValue_text j fuel ('\x7d' :: rest)
      (by simp [fieldText, fieldsTail] at enough; omega) (stops_fieldsTail [] rest)
    have hkey := readString_quote k (':' :: (text j ++ '\x7d' :: rest))
    simp [fieldText, fieldsTail, quote, readFields, hread, hkey]
  | (k, j), f :: fs, fuel + 1, rest, enough => by
    have hread := readValue_text j fuel (fieldsTail (f :: fs) ++ rest)
      (by simp [fieldText, fieldsTail] at enough; omega) (stops_fieldsTail _ rest)
    have htail := readFields_text f fs fuel rest
      (by simp [fieldText, fieldsTail] at enough ⊢; omega)
    have hkey := readString_quote k (':' :: (text j ++ (fieldsTail (f :: fs) ++ rest)))
    simp only [fieldsTail, List.cons_append, List.append_assoc] at hread htail hkey ⊢
    simp [fieldText, quote, readFields, hread, htail, hkey]

end

/-- What was written is what is read. -/
theorem loads_text (j : Json) : loads (String.ofList (text j)) = some j := by
  have hread := readValue_text j ((text j).length + 1) [] (Nat.lt_succ_self _) (by simp [Stops])
  rw [List.append_nil] at hread
  simp only [loads, String.toList_ofList, hread]

theorem loads_dumps (j : Json) : loads (dumps j) = some j.sorted := loads_text j.sorted

/-- Two values have one text exactly when they are the same value. -/
theorem dumps_eq_iff {a b : Json} : dumps a = dumps b ↔ Same a b := by
  constructor
  · intro h
    have hloads := congrArg loads h
    rw [loads_dumps, loads_dumps] at hloads
    exact Option.some.inj hloads
  · intro h
    exact congrArg (fun j => String.ofList (text j)) h

end Json
