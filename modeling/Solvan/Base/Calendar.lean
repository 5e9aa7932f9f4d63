import Mathlib.Algebra.Order.Ring.Int
import Mathlib.Data.List.Basic

/-! The proleptic Gregorian calendar, as `datetime` counts it: days from the
first of January of year 1, and microseconds from its midnight. -/
namespace Calendar

def isLeap (year : Nat) : Bool := year % 4 == 0 && (year % 100 != 0 || year % 400 == 0)

def daysBeforeYear (year : Nat) : Nat :=
  let y := year - 1
  y * 365 + y / 4 - y / 100 + y / 400

def daysInMonth (leap : Bool) (month : Nat) : Nat :=
  [0, 31, if leap then 29 else 28, 31, 30, 31, 30, 31, 31, 30, 31, 30, 31].getD month 0

def daysBeforeMonth (leap : Bool) (month : Nat) : Nat :=
  [0, 0, 31, 59, 90, 120, 151, 181, 212, 243, 273, 304, 334].getD month 0 +
    if month > 2 && leap then 1 else 0

def ymd2ord (year month day : Nat) : Nat :=
  daysBeforeYear year + daysBeforeMonth (isLeap year) month + day

/-- Month and day of the `n`th day of a year, counted from 0: an estimate that
is exact or one too large. -/
def monthDay (leap : Bool) (n : Nat) : Nat × Nat :=
  let month := (n + 50) / 32
  let preceding := daysBeforeMonth leap month
  if preceding > n then
    (month - 1, n - (preceding - daysInMonth leap (month - 1)) + 1)
  else (month, n - preceding + 1)

def ord2ymd (ordinal : Nat) : Nat × Nat × Nat :=
  let n := ordinal - 1
  let n400 := n / 146097
  let n := n % 146097
  let n100 := n / 36524
  let n := n % 36524
  let n4 := n / 1461
  let n := n % 1461
  let n1 := n / 365
  let n := n % 365
  let year := n400 * 400 + 1 + n100 * 100 + n4 * 4 + n1
  if n1 = 4 ∨ n100 = 4 then (year - 1, 12, 31)
  else (year, monthDay (n1 == 3 && (n4 != 24 || n100 == 3)) n)

theorem monthDay_spec (leap : Bool) {n : Nat} (h : n < 365) :
    daysBeforeMonth leap (monthDay leap n).1 + (monthDay leap n).2 = n + 1 ∧
      (monthDay leap n).1 ≤ 12 ∧ (monthDay leap n).2 ≤ 31 := by
  have hall : ∀ leap, ∀ n : Fin 365,
      daysBeforeMonth leap (monthDay leap n).1 + (monthDay leap n).2 = n.val + 1 ∧
        (monthDay leap n).1 ≤ 12 ∧ (monthDay leap n).2 ≤ 31 := by decide +kernel
  exact hall leap ⟨n, h⟩

theorem isLeap_iff (year : Nat) :
    isLeap year = true ↔ year % 4 = 0 ∧ (year % 100 ≠ 0 ∨ year % 400 = 0) := by
  simp [isLeap]

/-- The year of a day, from whole cycles of 400, 100, 4 and 1 years. -/
theorem daysBeforeYear_cycles {a b c d : Nat} (hb : b ≤ 3) (hc : c ≤ 24) (hd : d ≤ 3) :
    daysBeforeYear (a * 400 + 1 + b * 100 + c * 4 + d) =
      a * 146097 + b * 36524 + c * 1461 + d * 365 := by
  unfold daysBeforeYear
  simp only
  omega

theorem isLeap_cycles {a b c d : Nat} (hb : b ≤ 3) (hc : c ≤ 24) (hd : d ≤ 3) :
    isLeap (a * 400 + 1 + b * 100 + c * 4 + d) = (d == 3 && (c != 24 || b == 3)) := by
  rw [Bool.eq_iff_iff, isLeap_iff]
  simp only [Bool.and_eq_true, beq_iff_eq, Bool.or_eq_true, bne_iff_ne]
  omega

/-- The day a year, month and day stand for is the one they were found for. -/
theorem ord2ymd_spec {ordinal : Nat} (h : 1 ≤ ordinal) :
    ymd2ord (ord2ymd ordinal).1 (ord2ymd ordinal).2.1 (ord2ymd ordinal).2.2 = ordinal ∧
      (ord2ymd ordinal).2.1 ≤ 12 ∧ (ord2ymd ordinal).2.2 ≤ 31 := by
  unfold ord2ymd
  simp only
  generalize ha : (ordinal - 1) / 146097 = a
  generalize hr : (ordinal - 1) % 146097 = r
  generalize hb : r / 36524 = b
  generalize hs : r % 36524 = s
  generalize hc : s / 1461 = c
  generalize ht : s % 1461 = t
  generalize hd : t / 365 = d
  generalize hn : t % 365 = n
  by_cases hlast : d = 4 ∨ b = 4
  · -- the last day of a leap year, which no cycle counts
    simp only [hlast, ↓reduceIte]
    refine ⟨?_, by decide, by decide⟩
    obtain ⟨b', c', hb', hc', hyear, hdays, hfour⟩ : ∃ b' c', b' ≤ 3 ∧ c' ≤ 24 ∧
        a * 400 + 1 + b * 100 + c * 4 + d - 1 = a * 400 + 1 + b' * 100 + c' * 4 + 3 ∧
        a * 146097 + b' * 36524 + c' * 1461 + 3 * 365 + 366 = ordinal ∧ (c' ≠ 24 ∨ b' = 3) := by
      rcases hlast with hlast | hlast
      · exact ⟨b, c, by omega, by omega, by omega, by omega, by omega⟩
      · exact ⟨3, 24, by omega, by omega, by omega, by omega, by omega⟩
    have hleap : isLeap (a * 400 + 1 + b' * 100 + c' * 4 + 3) = true := by
      rw [isLeap_cycles hb' hc' (Nat.le_refl 3)]
      simpa using hfour
    have hdecember : daysBeforeMonth true 12 = 335 := rfl
    rw [ymd2ord, hyear, hleap, hdecember, daysBeforeYear_cycles hb' hc' (Nat.le_refl 3)]
    omega
  · simp only [hlast, ↓reduceIte]
    have hb3 : b ≤ 3 := by omega
    have hc24 : c ≤ 24 := by omega
    have hd3 : d ≤ 3 := by omega
    obtain ⟨hday, hmonth, hle⟩ := monthDay_spec (d == 3 && (c != 24 || b == 3)) (n := n) (by omega)
    refine ⟨?_, hmonth, hle⟩
    rw [ymd2ord, daysBeforeYear_cycles hb3 hc24 hd3, isLeap_cycles hb3 hc24 hd3]
    omega

theorem ord2ymd_year {ordinal : Nat} (h : ordinal ≤ 3652059) : (ord2ymd ordinal).1 ≤ 9999 := by
  unfold ord2ymd
  simp only
  split
  · simp only
    omega
  · simp only
    omega

/-- `%0{width}d` -/
def pad (width n : Nat) : List Char :=
  List.replicate (width - (Nat.toDigits 10 n).length) '0' ++ Nat.toDigits 10 n

theorem pad_inj {width m n : Nat} (h : pad width m = pad width n) : m = n := by
  have hvalue : ∀ k, Nat.ofDigitChars 10 (pad width k) 0 = k := by
    intro k
    rw [pad, Nat.ofDigitChars_append, Nat.ofDigitChars_replicate_zero, Nat.mul_zero,
      Nat.ofDigitChars_ten_toDigits]
  rw [← hvalue m, h, hvalue n]

theorem length_pad {width n : Nat} (hw : 0 < width) (h : n < 10 ^ width) :
    (pad width n).length = width := by
  have hle := (Nat.length_toDigits_le_iff (b := 10) (by decide) hw).mpr h
  simp only [pad, List.length_append, List.length_replicate]
  omega

/-- One past the last microsecond of year 9999. -/
def maxMicros : Nat := 3652059 * 86400000000

theorem maxMicros_pos : 0 < maxMicros := by decide

/-- `isoformat(timespec="microseconds")` of a naive time. -/
def isoformat (micros : Nat) : List Char :=
  let seconds := micros / 1000000
  let (year, month, day) := ord2ymd (seconds / 86400 + 1)
  let second := seconds % 86400
  pad 4 year ++ '-' :: pad 2 month ++ '-' :: pad 2 day ++
    'T' :: pad 2 (second / 3600) ++ ':' :: pad 2 (second % 3600 / 60) ++ ':' :: pad 2 (second % 60) ++
    '.' :: pad 6 (micros % 1000000)

theorem pad_append_inj {width m n : Nat} {cs ds : List Char} (hw : 0 < width)
    (hm : m < 10 ^ width) (hn : n < 10 ^ width) (h : pad width m ++ cs = pad width n ++ ds) :
    m = n ∧ cs = ds := by
  have hlen : (pad width m).length = (pad width n).length := by
    rw [length_pad hw hm, length_pad hw hn]
  obtain ⟨hpad, hrest⟩ := List.append_inj h hlen
  exact ⟨pad_inj hpad, hrest⟩

/-- No two moments are written alike. -/
theorem isoformat_inj {m n : Nat} (hm : m < maxMicros) (hn : n < maxMicros)
    (h : isoformat m = isoformat n) : m = n := by
  unfold maxMicros at hm hn
  have hdate : ∀ k, k < 3652059 * 86400000000 →
      (ord2ymd (k / 1000000 / 86400 + 1)).1 ≤ 9999 ∧
      ymd2ord (ord2ymd (k / 1000000 / 86400 + 1)).1 (ord2ymd (k / 1000000 / 86400 + 1)).2.1
        (ord2ymd (k / 1000000 / 86400 + 1)).2.2 = k / 1000000 / 86400 + 1 ∧
      (ord2ymd (k / 1000000 / 86400 + 1)).2.1 ≤ 12 ∧
      (ord2ymd (k / 1000000 / 86400 + 1)).2.2 ≤ 31 :=
    fun k hk => ⟨ord2ymd_year (by omega), ord2ymd_spec (by omega)⟩
  have hmdate := hdate m hm
  have hndate := hdate n hn
  simp only [isoformat, List.append_assoc, List.cons_append] at h
  generalize ord2ymd (m / 1000000 / 86400 + 1) = mdate at hmdate h
  generalize ord2ymd (n / 1000000 / 86400 + 1) = ndate at hndate h
  obtain ⟨my, mm, md⟩ := mdate
  obtain ⟨ny, nm, nd⟩ := ndate
  obtain ⟨hmy, hmo, hmm, hmd⟩ := hmdate
  obtain ⟨hny, hno, hnm, hnd⟩ := hndate
  simp only at h hmy hmo hmm hmd hny hno hnm hnd
  obtain ⟨hyear, h⟩ := pad_append_inj (by decide) (by omega) (by omega) h
  obtain ⟨hmonth, h⟩ := pad_append_inj (by decide) (by omega) (by omega) (List.cons.inj h).2
  obtain ⟨hday, h⟩ := pad_append_inj (by decide) (by omega) (by omega) (List.cons.inj h).2
  obtain ⟨hhour, h⟩ := pad_append_inj (by decide) (by omega) (by omega) (List.cons.inj h).2
  obtain ⟨hminute, h⟩ := pad_append_inj (by decide) (by omega) (by omega) (List.cons.inj h).2
  obtain ⟨hsecond, h⟩ := pad_append_inj (by decide) (by omega) (by omega) (List.cons.inj h).2
  have hmicro := pad_inj (List.cons.inj h).2
  have hdays : m / 1000000 / 86400 + 1 = n / 1000000 / 86400 + 1 := by
    rw [← hmo, ← hno, hyear, hmonth, hday]
  omega

end Calendar
