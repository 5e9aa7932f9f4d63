import Mathlib.Data.List.Infix
import Solvan.Domain.Values

/-! The texts of times in filters and cursors. -/
namespace Solvan.Alerts

open Calendar

/-- The offset of a clock, as `isoformat` writes it. -/
def offsetText (offset : Int) : List Char :=
  let seconds := offset.natAbs / 1000000
  let micros := offset.natAbs % 1000000
  let fraction := if micros = 0 then [] else '.' :: pad 6 micros
  let second := if seconds % 60 = 0 ∧ micros = 0 then [] else ':' :: (pad 2 (seconds % 60) ++ fraction)
  (if offset < 0 then '-' else '+') ::
    (pad 2 (seconds / 3600) ++ ':' :: (pad 2 (seconds % 3600 / 60) ++ second))

/-- `isoformat()` of a naive time: a fraction only where there is one. -/
def naiveText (micros : Nat) : List Char :=
  if micros % 1000000 = 0 then (isoformat micros).take 19 else isoformat micros

/-- `isoformat()` -/
def timeText (d : Datetime) : List Char := naiveText d.wall ++ (d.utcoffset.map offsetText).getD []

/-- `replace("+00:00", "Z")` -/
def replaceUtc : List Char → List Char
  | '+' :: '0' :: '0' :: ':' :: '0' :: '0' :: rest => 'Z' :: replaceUtc rest
  | c :: rest => c :: replaceUtc rest
  | [] => []

/-- `isoformat().replace("+00:00", "Z")` -/
def zuluText (d : Datetime) : String := String.ofList (replaceUtc (timeText d))

/-- How the interpreter reads a time. -/
structure Clock where
  fromisoformat : String → Option Datetime
  /-- It reads what `isoformat` wrote. -/
  reads : ∀ d : Datetime, d.utcoffset = some 0 → fromisoformat (String.ofList (timeText d)) = some d

/-- `_utc`, of a text. -/
def utc (clock : Clock) (value : String) : Option Datetime :=
  if value.toList.getLast? ≠ some 'Z' then none
  else
    match clock.fromisoformat (String.ofList (value.toList.dropLast ++ "+00:00".toList)) with
    | none => none
    | some parsed => if parsed.utcoffset ≠ some 0 then none else some parsed

theorem pad_digits {width n : Nat} : ∀ c ∈ pad width n, c.isDigit = true := by
  intro c hc
  rcases List.mem_append.mp hc with hzero | hdigit
  · rw [(List.mem_replicate.mp hzero).2]
    rfl
  · exact Nat.isDigit_of_mem_toDigits (by decide) (by decide) hdigit

/-- A character of a text of digits and separators that is no separator is a digit. -/
def Plain (c : Char) : Prop := c.isDigit = true ∨ c = '-' ∨ c = ':' ∨ c = 'T' ∨ c = '.'

theorem Plain.ne_plus {c : Char} (h : Plain c) : c ≠ '+' := by
  rintro rfl
  unfold Plain at h
  revert h
  decide

theorem Plain.ne_zulu {c : Char} (h : Plain c) : c ≠ 'Z' := by
  rintro rfl
  unfold Plain at h
  revert h
  decide

theorem pad_plain {width n : Nat} : ∀ c ∈ pad width n, Plain c := fun c hc => .inl (pad_digits c hc)

theorem naive_plain (micros : Nat) : ∀ c ∈ naiveText micros, Plain c := by
  have hiso : ∀ c ∈ isoformat micros, Plain c := by
    intro c hc
    simp only [isoformat, List.mem_append, List.mem_cons] at hc
    unfold Plain
    grind [pad_digits]
  intro c hc
  unfold naiveText at hc
  split at hc
  · exact hiso c (List.mem_of_mem_take hc)
  · exact hiso c hc

/-- An offset is a sign and what holds none. -/
theorem offsetText_parts (offset : Int) : ∃ tail, (∀ c ∈ tail, Plain c) ∧
    offsetText offset = (if offset < 0 then '-' else '+') :: tail := by
  refine ⟨_, ?_, rfl⟩
  have hfraction : ∀ c ∈ (if offset.natAbs % 1000000 = 0 then [] else
      '.' :: pad 6 (offset.natAbs % 1000000)), Plain c := by
    split
    · exact fun c hc => nomatch hc
    · exact List.forall_mem_cons.mpr ⟨by simp [Plain], pad_plain⟩
  have hcolon : Plain ':' := by simp [Plain]
  refine List.forall_mem_append.mpr ⟨pad_plain, List.forall_mem_cons.mpr ⟨hcolon, ?_⟩⟩
  refine List.forall_mem_append.mpr ⟨pad_plain, ?_⟩
  split
  · exact fun c hc => nomatch hc
  · exact List.forall_mem_cons.mpr ⟨hcolon, List.forall_mem_append.mpr ⟨pad_plain, hfraction⟩⟩

/-- The one offset written as zero is zero. -/
theorem offset_zero {offset : Int} (h : offsetText offset = "+00:00".toList) : offset = 0 := by
  have hpad : "+00:00".toList = '+' :: (pad 2 0 ++ ':' :: (pad 2 0 ++ [])) := by rfl
  rw [hpad] at h
  have htail := (List.cons.inj h).2
  have hlong : ∀ n, 2 ≤ (pad 2 n).length := fun n => by
    rw [pad, List.length_append, List.length_replicate]
    omega
  have hshort : (pad 2 0).length = 2 := by rfl
  have hsizes := congrArg List.length htail
  simp only [List.length_append, List.length_cons, hshort, List.length_nil] at hsizes
  have hhours := hlong (offset.natAbs / 1000000 / 3600)
  have hminutes := hlong (offset.natAbs / 1000000 % 3600 / 60)
  obtain ⟨hhour, hrest⟩ := List.append_inj htail (by omega)
  obtain ⟨hminute, hsecond⟩ := List.append_inj (List.cons.inj hrest).2 (by omega)
  have hhour' := pad_inj hhour
  have hminute' := pad_inj hminute
  split at hsecond
  · omega
  · cases hsecond

theorem replaceUtc_append {front : List Char} (h : ∀ c ∈ front, Plain c) (back : List Char) :
    replaceUtc (front ++ back) = front ++ replaceUtc back := by
  induction front with
  | nil => rfl
  | cons c front ih =>
    obtain ⟨hc, hfront⟩ := List.forall_mem_cons.mp h
    rw [List.cons_append, List.cons_append, ← ih hfront]
    exact replaceUtc.eq_2 _ _ (fun rest heq => absurd heq hc.ne_plus)

theorem replaceUtc_nil {text : List Char} (h : replaceUtc text = []) : text = [] := by
  fun_cases replaceUtc text with
  | case1 => cases h
  | case2 c rest hc =>
    rw [replaceUtc.eq_2 c rest hc] at h
    cases h
  | case3 => rfl

theorem getLast?_cons_of_ne {c : Char} {rest : List Char} (h : rest ≠ []) :
    (c :: rest).getLast? = rest.getLast? := by
  rw [List.getLast?_cons, List.getLast?_eq_some_getLast h]
  rfl

/-- A text ends in `Z` only where it ended in the offset zero, or so itself. -/
theorem replaceUtc_last {text : List Char} (h : (replaceUtc text).getLast? = some 'Z') :
    text.getLast? = some 'Z' ∨ "+00:00".toList <:+ text := by
  fun_induction replaceUtc text with
  | case1 rest ih =>
    by_cases hend : rest = []
    · exact .inr (hend ▸ List.suffix_refl _)
    · rw [getLast?_cons_of_ne (fun hnil => hend (replaceUtc_nil hnil))] at h
      refine (ih h).imp (fun hlast => ?_) (fun hsuffix => ?_)
      · rw [← hlast]
        simp only [List.getLast?_cons, List.getLast?_eq_some_getLast hend, Option.getD_some]
      · exact hsuffix.trans (List.suffix_append ['+', '0', '0', ':', '0', '0'] rest)
  | case2 c rest hc ih =>
    by_cases hend : rest = []
    · subst hend
      exact .inl h
    · rw [getLast?_cons_of_ne (fun hnil => hend (replaceUtc_nil hnil))] at h
      refine (ih h).imp (fun hlast => ?_) (fun hsuffix => hsuffix.trans (List.suffix_cons c rest))
      rwa [getLast?_cons_of_ne hend]
  | case3 => cases h

/-- A time at offset zero is written with a `Z`. -/
theorem zulu_text {d : Datetime} (hoffset : d.utcoffset = some 0) :
    (zuluText d).toList = naiveText d.wall ++ ['Z'] := by
  have htext : timeText d = naiveText d.wall ++ "+00:00".toList := by
    rw [timeText, hoffset]
    rfl
  rw [zuluText, String.toList_ofList, htext, replaceUtc_append (naive_plain _)]
  rfl

theorem utc_zuluText (clock : Clock) {d : Datetime} (hoffset : d.utcoffset = some 0) :
    utc clock (zuluText d) = some d := by
  have htext : timeText d = naiveText d.wall ++ "+00:00".toList := by
    rw [timeText, hoffset]
    rfl
  have hread := clock.reads d hoffset
  unfold utc
  rw [zulu_text hoffset, List.getLast?_concat, if_neg (fun hne => hne rfl), List.dropLast_concat, ← htext,
    hread]
  simp only [hoffset, ne_eq, not_true_eq_false, if_false]

/-- A time at any other offset is not. -/
theorem utc_refused (clock : Clock) {d : Datetime} {offset : Int} (hoffset : d.utcoffset = some offset)
    (hne : offset ≠ 0) : utc clock (zuluText d) = none := by
  refine if_pos (fun hlast => ?_)
  rw [zuluText, String.toList_ofList] at hlast
  obtain ⟨tail, htail, hparts⟩ := offsetText_parts offset
  have htext : timeText d = naiveText d.wall ++ (if offset < 0 then '-' else '+') :: tail := by
    rw [timeText, hoffset, ← hparts]
    rfl
  rw [htext] at hlast
  obtain hzulu | ⟨front, hsuffix⟩ := replaceUtc_last hlast
  · have hmem := List.mem_of_getLast? hzulu
    rcases List.mem_append.mp hmem with hnaive | hmem
    · exact (naive_plain _ _ hnaive).ne_zulu rfl
    · rcases List.mem_cons.mp hmem with hsign | hmem
      · split at hsign <;> cases hsign
      · exact (htail _ hmem).ne_zulu rfl
  · -- The sign is the one place a plus can stand in.
    have hnaive : '+' ∉ naiveText d.wall := fun hmem => (naive_plain _ _ hmem).ne_plus rfl
    have hrest : '+' ∉ tail := fun hmem => (htail _ hmem).ne_plus rfl
    have hplus : "+00:00".toList = '+' :: ['0', '0', ':', '0', '0'] := by rfl
    rw [hplus] at hsuffix
    obtain ⟨-, hsign, heq⟩ := (List.append_cons_inj_of_notMem hnaive hrest).mp hsuffix.symm
    exact hne (offset_zero (by rw [hparts, hsign, heq]; rfl))

theorem length_replaceUtc (text : List Char) : (replaceUtc text).length ≤ text.length := by
  fun_induction replaceUtc text with
  | case1 rest ih =>
    simp only [List.length_cons]
    omega
  | case2 c rest hc ih =>
    simp only [List.length_cons]
    omega
  | case3 => exact Nat.le_refl _

theorem length_naiveText {micros : Nat} (h : micros < maxMicros) : (naiveText micros).length ≤ 26 := by
  have hiso : (isoformat micros).length = 26 := by
    unfold maxMicros at h
    have hyear := ord2ymd_year (show micros / 1000000 / 86400 + 1 ≤ 3652059 by omega)
    obtain ⟨-, hmonth, hday⟩ := ord2ymd_spec (show 1 ≤ micros / 1000000 / 86400 + 1 by omega)
    simp only [isoformat, List.length_append, List.length_cons]
    generalize ord2ymd (micros / 1000000 / 86400 + 1) = date at hyear hmonth hday ⊢
    obtain ⟨year, month, day⟩ := date
    simp only at hyear hmonth hday ⊢
    rw [length_pad (by decide) (by omega), length_pad (by decide) (by omega),
      length_pad (by decide) (by omega), length_pad (by decide) (by omega),
      length_pad (by decide) (by omega), length_pad (by decide) (by omega),
      length_pad (by decide) (by omega)]
  unfold naiveText
  split
  · rw [List.length_take]
    omega
  · exact hiso.le

/-- A number of some digits, and what follows the separator after them. -/
def readDigits (width : Nat) (text : List Char) : Nat × List Char :=
  (Nat.ofDigitChars 10 (text.take width) 0, text.drop (width + 1))

/-- The microseconds of a text that `isoformat` wrote of a naive time. -/
def readNaive (text : List Char) : Nat :=
  let (year, text) := readDigits 4 text
  let (month, text) := readDigits 2 text
  let (day, text) := readDigits 2 text
  let (hour, text) := readDigits 2 text
  let (minute, text) := readDigits 2 text
  let (second, text) := readDigits 2 text
  let seconds := (ymd2ord year month day - 1) * 86400 + hour * 3600 + minute * 60 + second
  seconds * 1000000 + (readDigits 6 text).1

theorem readDigits_pad {width n : Nat} (hwidth : 0 < width) (h : n < 10 ^ width) (c : Char) (rest : List Char) :
    readDigits width (pad width n ++ c :: rest) = (n, rest) := by
  have hlength := length_pad hwidth h
  have hvalue : Nat.ofDigitChars 10 (pad width n) 0 = n := by
    rw [pad, Nat.ofDigitChars_append, Nat.ofDigitChars_replicate_zero, Nat.mul_zero,
      Nat.ofDigitChars_ten_toDigits]
  unfold readDigits
  rw [List.take_left' hlength, hvalue, ← List.drop_drop, List.drop_left' hlength]
  rfl

theorem readDigits_last {width n : Nat} (hwidth : 0 < width) (h : n < 10 ^ width) :
    readDigits width (pad width n) = (n, []) := by
  have hlength := length_pad hwidth h
  have hvalue : Nat.ofDigitChars 10 (pad width n) 0 = n := by
    rw [pad, Nat.ofDigitChars_append, Nat.ofDigitChars_replicate_zero, Nat.mul_zero,
      Nat.ofDigitChars_ten_toDigits]
  unfold readDigits
  rw [List.take_of_length_le hlength.le, hvalue, List.drop_of_length_le (by omega)]

theorem readNaive_naiveText {micros : Nat} (h : micros < maxMicros) : readNaive (naiveText micros) = micros := by
  unfold maxMicros at h
  have hyear := ord2ymd_year (show micros / 1000000 / 86400 + 1 ≤ 3652059 by omega)
  obtain ⟨hord, hmonth, hday⟩ := ord2ymd_spec (show 1 ≤ micros / 1000000 / 86400 + 1 by omega)
  unfold naiveText
  simp only [isoformat]
  generalize ord2ymd (micros / 1000000 / 86400 + 1) = date at hyear hord hmonth hday ⊢
  obtain ⟨year, month, day⟩ := date
  simp only at hyear hord hmonth hday ⊢
  have hcut : ∀ tail : List Char, (pad 4 year ++ '-' :: pad 2 month ++ '-' :: pad 2 day ++
      'T' :: pad 2 (micros / 1000000 % 86400 / 3600) ++ ':' :: pad 2 (micros / 1000000 % 86400 % 3600 / 60) ++
      ':' :: pad 2 (micros / 1000000 % 86400 % 60) ++ tail).take 19 =
      pad 4 year ++ '-' :: pad 2 month ++ '-' :: pad 2 day ++
      'T' :: pad 2 (micros / 1000000 % 86400 / 3600) ++ ':' :: pad 2 (micros / 1000000 % 86400 % 3600 / 60) ++
      ':' :: pad 2 (micros / 1000000 % 86400 % 60) := by
    intro tail
    refine List.take_left' ?_
    simp only [List.length_append, List.length_cons]
    rw [length_pad (by decide) (by omega), length_pad (by decide) (by omega),
      length_pad (by decide) (by omega), length_pad (by decide) (by omega),
      length_pad (by decide) (by omega), length_pad (by decide) (by omega)]
  have hfour := @readDigits_pad 4 year (by decide) (by omega)
  have htwo : ∀ n, n < 100 → ∀ c rest, readDigits 2 (pad 2 n ++ c :: rest) = (n, rest) := fun n hn =>
    readDigits_pad (by decide) hn
  split
  · rename_i hwhole
    have hnothing : (readDigits 6 []).1 = 0 := by rfl
    rw [hcut]
    simp only [List.append_assoc, List.cons_append, readNaive, hfour, htwo month (by omega), htwo day (by omega),
      htwo (micros / 1000000 % 86400 / 3600) (by omega), htwo (micros / 1000000 % 86400 % 3600 / 60) (by omega),
      readDigits_last (show 0 < 2 by decide) (show micros / 1000000 % 86400 % 60 < 10 ^ 2 by omega), hnothing, hord]
    omega
  · simp only [List.append_assoc, List.cons_append, readNaive, hfour, htwo month (by omega), htwo day (by omega),
      htwo (micros / 1000000 % 86400 / 3600) (by omega), htwo (micros / 1000000 % 86400 % 3600 / 60) (by omega),
      htwo (micros / 1000000 % 86400 % 60) (by omega),
      readDigits_last (show 0 < 6 by decide) (show micros % 1000000 < 10 ^ 6 by omega), hord]
    omega

/-- A clock that reads times at offset zero and no others. -/
def utcClock : Clock where
  fromisoformat text :=
    let naive := text.toList.take (text.toList.length - 6)
    if hrange : readNaive naive < maxMicros then
      if text.toList.drop (text.toList.length - 6) = "+00:00".toList then some ⟨readNaive naive, some 0, hrange⟩
      else none
    else none
  reads d hoffset := by
    obtain ⟨wall, offset, hrange⟩ := d
    obtain rfl : offset = some 0 := hoffset
    have hlength : (naiveText wall ++ "+00:00".toList).length - 6 = (naiveText wall).length := by
      rw [List.length_append]
      exact Nat.add_sub_cancel _ 6
    have htext : timeText ⟨wall, some 0, hrange⟩ = naiveText wall ++ "+00:00".toList := by rfl
    simp only [String.toList_ofList, htext, hlength, List.take_left, List.drop_left,
      readNaive_naiveText hrange, hrange, dif_pos, if_pos]

/-- One day, in microseconds. -/
def day : Nat := 86400000000

theorem length_offsetText {offset : Int} (h : offset.natAbs < day) : (offsetText offset).length ≤ 16 := by
  unfold day at h
  have hfraction : (if offset.natAbs % 1000000 = 0 then [] else
      '.' :: pad 6 (offset.natAbs % 1000000)).length ≤ 7 := by
    split
    · exact Nat.zero_le _
    · rw [List.length_cons, length_pad (by decide) (by omega)]
  simp only [offsetText, List.length_cons, List.length_append]
  rw [length_pad (by decide) (by omega), length_pad (by decide) (by omega)]
  split
  · simp
  · rw [List.length_cons, List.length_append, length_pad (by decide) (by omega)]
    omega

theorem length_zuluText {d : Datetime} {offset : Int} (hoffset : d.utcoffset = some offset)
    (hbounded : offset.natAbs < day) : (zuluText d).toList.length ≤ 42 := by
  have hnaive := length_naiveText d.inRange
  have htail := length_offsetText hbounded
  have hreplaced := length_replaceUtc (timeText d)
  have htext : (timeText d).length = (naiveText d.wall).length + (offsetText offset).length := by
    rw [timeText, hoffset, List.length_append]
    rfl
  rw [zuluText, String.toList_ofList]
  omega

end Solvan.Alerts
