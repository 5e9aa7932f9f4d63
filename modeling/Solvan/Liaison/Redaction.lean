import Mathlib.Data.List.Dedup
import Mathlib.Data.List.Sort
import Mathlib.Data.String.Basic
import Solvan.Base.Regex

/-! The classification of inbound text, and which payment card numbers it finds. -/
namespace Solvan.Liaison.Redaction
open Base Base.Regex

inductive Classification where
  | confidential | restricted
deriving DecidableEq, Repr

structure Verdict where
  classification : Classification
  findings : List String
  digest : String
  text : String
  verdictRef : String
deriving DecidableEq

section Patterns

variable (t : CharTables)

def isDigit (c : Char) : Bool := (t.decimal c).isSome

def isApart (c : Char) : Bool := c == ' ' || c == '-'

/-- `_SECRET_PATTERNS` -/
def secretPatterns : List (String × Regex) :=
  [("aws_access_key", inTurn [.boundary t.word, oneOf [literal "AKIA", literal "ASIA"],
      .repeated (among "" upperLetter) 16 (some 0), .boundary t.word]),
    ("google_api_key", inTurn [.boundary t.word, literal "AIza", .repeated (among "_-" tokenLetter) 35 (some 0),
      .boundary t.word]),
    ("github_token", inTurn [.boundary t.word, literal "gh", .set "pousr".toList.contains, literal "_",
      .repeated (among "" tokenLetter) 36 none, .boundary t.word]),
    ("slack_token", inTurn [.boundary t.word, literal "xox", .set "baprs".toList.contains, literal "-",
      .repeated (among "-" tokenLetter) 10 none, .boundary t.word]),
    ("private_key", inTurn [literal "-----BEGIN ",
      perhaps (.seq (.repeated (.set (fun c => upperLetter c || c == ' ')) 1 none) (literal " ")),
      literal "PRIVATE KEY-----"]),
    ("jwt", inTurn [.boundary t.word, literal "eyJ", .repeated (among "_-" tokenLetter) 10 none, literal ".",
      .repeated (among "_-" tokenLetter) 10 none, literal ".", .repeated (among "_-" tokenLetter) 10 none,
      .boundary t.word]),
    ("bearer_token", inTurn [.boundary t.word, caseless "bearer", .repeated (.set t.space) 1 none,
      .repeated (among "._-" caselessLetter) 20 none, .boundary t.word]),
    ("gcp_service_account", inTurn [literal "\"type\"", spaces t, literal ":", spaces t,
      literal "\"service_account\""]),
    ("assigned_secret", inTurn [.boundary t.word,
      oneOf [caseless "password", caseless "passwd", caseless "secret",
        inTurn [caseless "api", perhaps (.set "_-".toList.contains), caseless "key"],
        inTurn [caseless "access", perhaps (.set "_-".toList.contains), caseless "token"],
        inTurn [caseless "client", perhaps (.set "_-".toList.contains), caseless "secret"]],
      .boundary t.word, spaces t, .set ":=".toList.contains, spaces t,
      .repeated (.set (fun c => !t.space c)) 8 none])]

/-- A digit that a space or a hyphen may follow -/
def cardDigit : Regex := .seq (.set (isDigit t)) (perhaps (.set isApart))

/-- `_DIGIT_RUN` -/
def digitRun : Regex := inTurn [.boundary t.word, .repeated (cardDigit t) 13 (some 6), .boundary t.word]

/-- The sum of digits from the last to the first, every second one doubled -/
def luhnTotal : Bool → List Nat → Nat
  | _, [] => 0
  | false, value :: values => value + luhnTotal true values
  | true, value :: values => (if 9 < 2 * value then 2 * value - 9 else 2 * value) + luhnTotal false values

/-- `_passes_luhn` -/
def passesLuhn (digits : List Char) : Bool :=
  luhnTotal false (digits.reverse.map (fun c => (t.decimal c).getD 0)) % 10 == 0

/-- `re.sub(r"[ -]", "", candidate)` -/
def digitsOf (candidate : List Char) : List Char := candidate.filter (fun c => !isApart c)

def isCard (candidate : List Char) : Bool :=
  let digits := digitsOf candidate
  decide (13 ≤ digits.length) && decide (digits.length ≤ 19) && passesLuhn t digits

/-- The names of the patterns that a text matches. -/
def secretNames (text : String) : List String :=
  ((secretPatterns t).filter (fun pattern => pattern.2.search text.toList)).map Prod.fst

/-- `classify` -/
def classify (sha256 : ByteArray → String) (text : String) : Verdict :=
  let hex := sha256 text.toUTF8
  let cards := if ((digitRun t).findall text.toList).any (isCard t) then ["payment_card"] else []
  let findings := secretNames t text ++ cards
  let verdictRef := "redaction://" ++ String.ofList (hex.toList.take 32)
  if findings.isEmpty then ⟨.confidential, [], "sha256:" ++ hex, text, verdictRef⟩
  else ⟨.restricted, findings.dedup.insertionSort (· ≤ ·), "sha256:" ++ hex, "", verdictRef⟩

end Patterns

/-- Nothing or one character that stands between digits. -/
def Gap (gap : List Char) : Prop := gap = [] ∨ ∃ c, isApart c = true ∧ gap = [c]

/-- So many digits, each but the last of which a gap may follow. -/
inductive Run (t : CharTables) : Nat → List Char → Prop
  | last {d : Char} (hd : isDigit t d = true) : Run t 1 [d]
  | next {n : Nat} {d : Char} {gap run : List Char} (hd : isDigit t d = true) (hgap : Gap gap) (h : Run t n run) :
      Run t (n + 1) (d :: gap ++ run)

/-- A run of 13 to 19 digits from a place on, with no word character on either side. -/
structure Delimited (t : CharTables) (p : Place) (run rest : List Char) : Prop where
  here : p.rest = run ++ rest
  before : p.before.any t.word = false
  after : rest.head?.any t.word = false
  digits : ∃ n, 13 ≤ n ∧ n ≤ 19 ∧ Run t n run

/-- The longest of the delimited runs from a place on. -/
structure Longest (t : CharTables) (p : Place) (run rest : List Char) : Prop extends Delimited t p run rest where
  longest : ∀ run' rest', Delimited t p run' rest' → run'.length ≤ run.length

/-- The runs cut off a text from left to right: the longest where one begins, and then those of what is left. -/
inductive Taken (t : CharTables) : Place → List Char → Prop
  | here {p : Place} {run rest : List Char} (h : Longest t p run rest) : Taken t p run
  | past {p : Place} {first rest run : List Char} (h : Longest t p first rest)
      (later : Taken t ⟨first.getLast?, rest⟩ run) : Taken t p run
  | skip {before : Option Char} {c : Char} {cs run : List Char}
      (h : ∀ run' rest', ¬Delimited t ⟨before, c :: cs⟩ run' rest') (later : Taken t ⟨some c, cs⟩ run) :
      Taken t ⟨before, c :: cs⟩ run

section Runs

variable {t : CharTables} {p finish : Place} {n : Nat} {c : Char} {gap run run' rest rest' : List Char}

theorem isApart_word (h : isApart c = true) : t.word c = false := by
  obtain rfl | rfl : c = ' ' ∨ c = '-' := by simpa [isApart] using h
  · exact t.space_apart
  · exact t.hyphen_apart

theorem isDigit_word (h : isDigit t c = true) : t.word c = true := t.decimal_word c h

theorem isDigit_apart (h : isDigit t c = true) : isApart c = false := by
  by_contra happart
  have hword := isDigit_word h
  rw [isApart_word (by simpa using happart)] at hword
  cases hword

theorem Run.head (h : Run t n run) : ∃ d ds, run = d :: ds ∧ isDigit t d = true := by
  cases h with
  | last hd => exact ⟨_, _, rfl, hd⟩
  | next hd _ _ => exact ⟨_, _, rfl, hd⟩

theorem Run.getLast (h : Run t n run) : ∃ d, run.getLast? = some d ∧ isDigit t d = true := by
  induction h with
  | last hd => exact ⟨_, rfl, hd⟩
  | next _ _ h ih =>
    obtain ⟨d, hlast, hd⟩ := ih
    refine ⟨d, ?_, hd⟩
    rw [List.getLast?_append, hlast, Option.some_or]

theorem Run.last_append (h : Run t n run) (front gap : List Char) :
    (front ++ run ++ gap).getLast? = (run ++ gap).getLast? := by
  obtain ⟨d, ds, rfl, -⟩ := h.head
  rw [List.append_assoc, List.getLast?_append_of_ne_nil _ (by simp)]

theorem Gap.filter (h : Gap gap) : digitsOf gap = [] := by
  obtain rfl | ⟨c, hc, rfl⟩ := h
  · rfl
  · simp [digitsOf, hc]

theorem Run.length (h : Run t n run) : (digitsOf run).length = n := by
  induction h with
  | last hd => simp [digitsOf, isDigit_apart hd]
  | @next n d gap run hd hgap _ ih =>
    have hgap := hgap.filter
    simp only [digitsOf, List.cons_append, List.filter_cons, List.filter_append, isDigit_apart hd,
      Bool.not_false, if_true, List.length_cons] at hgap ih ⊢
    rw [hgap, List.nil_append, ih]

theorem cardDigit_nil {before : Option Char} : (cardDigit t).ends ⟨before, []⟩ = [] := rfl

theorem cardDigit_other {before : Option Char} (h : isDigit t c = false) :
    (cardDigit t).ends ⟨before, c :: rest⟩ = [] := by
  simp [cardDigit, Regex.ends, h]

theorem cardDigit_last {before : Option Char} (h : isDigit t c = true) :
    (cardDigit t).ends ⟨before, [c]⟩ = [⟨some c, []⟩] := by
  simp [cardDigit, perhaps, Regex.ends, repeatedEnds, atMost, h]

theorem cardDigit_digit {before : Option Char} {d : Char} (h : isDigit t c = true) :
    (cardDigit t).ends ⟨before, c :: d :: rest⟩ =
      if isApart d then [⟨some d, rest⟩, ⟨some c, d :: rest⟩] else [⟨some c, d :: rest⟩] := by
  cases hd : isApart d <;> simp [cardDigit, perhaps, Regex.ends, repeatedEnds, atMost, h, hd]

/-- Where a card digit may end. -/
theorem mem_cardDigit : finish ∈ (cardDigit t).ends p ↔
    ∃ d gap, isDigit t d = true ∧ Gap gap ∧ p.rest = d :: gap ++ finish.rest ∧
      finish.before = (d :: gap).getLast? := by
  obtain ⟨before, rest⟩ := p
  obtain ⟨after, left⟩ := finish
  constructor
  · intro h
    cases rest with
    | nil => cases h
    | cons c rest =>
      cases hc : isDigit t c with
      | false =>
        rw [cardDigit_other hc] at h
        cases h
      | true =>
        cases rest with
        | nil =>
          rw [cardDigit_last hc, List.mem_singleton, Place.mk.injEq] at h
          obtain ⟨rfl, rfl⟩ := h
          exact ⟨c, [], hc, .inl rfl, rfl, rfl⟩
        | cons d rest =>
          rw [cardDigit_digit hc] at h
          cases hd : isApart d with
          | false =>
            rw [hd, if_neg Bool.false_ne_true, List.mem_singleton, Place.mk.injEq] at h
            obtain ⟨rfl, rfl⟩ := h
            exact ⟨c, [], hc, .inl rfl, rfl, rfl⟩
          | true =>
            rw [hd, if_pos rfl, List.mem_pair, Place.mk.injEq, Place.mk.injEq] at h
            obtain ⟨rfl, rfl⟩ | ⟨rfl, rfl⟩ := h
            · exact ⟨c, [d], hc, .inr ⟨d, hd, rfl⟩, rfl, rfl⟩
            · exact ⟨c, [], hc, .inl rfl, rfl, rfl⟩
  · rintro ⟨d, gap, hd, hgap, hrest, hafter⟩
    dsimp only at hrest hafter
    obtain rfl | ⟨c, hc, rfl⟩ := hgap
    · subst hrest hafter
      cases left with
      | nil =>
        rw [List.append_nil, cardDigit_last hd]
        exact List.mem_singleton_self _
      | cons c left =>
        rw [List.singleton_append, cardDigit_digit hd]
        cases isApart c <;> simp
    · subst hrest hafter
      show _ ∈ (cardDigit t).ends ⟨before, d :: c :: left⟩
      rw [cardDigit_digit hd, if_pos hc]
      exact List.mem_cons_self

theorem cardDigit_forced : Forced (cardDigit t).ends where
  past := by
    intro p e he
    obtain ⟨d, gap, -, -, hrest, -⟩ := mem_cardDigit.mp he
    unfold Place.Past
    rw [hrest]
    simp only [List.cons_append, List.length_cons, List.length_append]
    omega
  choices := by
    intro p
    obtain ⟨before, rest⟩ := p
    cases rest with
    | nil => exact List.Pairwise.nil
    | cons c rest =>
      cases hc : isDigit t c with
      | false =>
        rw [cardDigit_other hc]
        exact List.Pairwise.nil
      | true =>
        cases rest with
        | nil =>
          rw [cardDigit_last hc]
          exact List.pairwise_singleton _ _
        | cons d rest =>
          rw [cardDigit_digit hc]
          cases hd : isApart d with
          | false => exact List.pairwise_singleton _ _
          | true =>
            -- What stands between digits is no digit.
            have hnot : isDigit t d = false := by
              by_contra hdigit
              rw [isDigit_apart (by simpa using hdigit)] at hd
              cases hd
            simp [Place.Past, cardDigit_other hnot]

/-- Where some card digits may end. -/
def EndsAfter (t : CharTables) (p finish : Place) (n : Nat) : Prop :=
  ∃ run gap, Run t n run ∧ Gap gap ∧ p.rest = run ++ gap ++ finish.rest ∧ finish.before = (run ++ gap).getLast?

theorem endsAfter_one : EndsAfter t p finish 1 ↔ finish ∈ (cardDigit t).ends p := by
  rw [mem_cardDigit]
  constructor
  · rintro ⟨run, gap, hrun, hgap, hrest, hbefore⟩
    cases hrun with
    | @last d hd => exact ⟨d, gap, hd, hgap, hrest, hbefore⟩
    | next _ _ h => cases h
  · rintro ⟨d, gap, hd, hgap, hrest, hbefore⟩
    exact ⟨[d], gap, .last hd, hgap, hrest, hbefore⟩

theorem endsAfter_succ (hn : n ≠ 0) : EndsAfter t p finish (n + 1) ↔
    ∃ q ∈ (cardDigit t).ends p, EndsAfter t q finish n := by
  constructor
  · rintro ⟨run, gap, hrun, hgap, hrest, hbefore⟩
    cases hrun with
    | last => exact absurd rfl hn
    | @next _ d inner run hd hinner hrun =>
      refine ⟨⟨(d :: inner).getLast?, run ++ gap ++ finish.rest⟩, mem_cardDigit.mpr ⟨d, inner, hd, hinner, ?_, rfl⟩,
        run, gap, hrun, hgap, rfl, ?_⟩
      · simpa only [List.append_assoc] using hrest
      · rw [hbefore, hrun.last_append]
  · rintro ⟨q, hq, run, gap, hrun, hgap, hrest, hbefore⟩
    obtain ⟨d, inner, hd, hinner, hp, -⟩ := mem_cardDigit.mp hq
    refine ⟨d :: inner ++ run, gap, .next hd hinner hrun, hgap, ?_, ?_⟩
    · rw [hp, hrest]
      simp only [List.append_assoc]
    · rw [hbefore, hrun.last_append]

theorem mem_atMost {more : Nat} : finish ∈ atMost (cardDigit t).ends more p ↔
    finish = p ∨ ∃ n, 0 < n ∧ n ≤ more ∧ EndsAfter t p finish n := by
  induction more generalizing p with
  | zero =>
    simp only [atMost, List.mem_singleton, Nat.le_zero]
    refine ⟨.inl, fun h => ?_⟩
    obtain h | ⟨n, hpos, rfl, -⟩ := h
    · exact h
    · exact absurd hpos (Nat.lt_irrefl 0)
  | succ more ih =>
    simp only [atMost, List.mem_append, List.mem_flatMap, List.mem_singleton, ih]
    constructor
    · rintro (⟨q, hq, rfl | ⟨n, hpos, hn, hends⟩⟩ | rfl)
      · exact .inr ⟨1, Nat.one_pos, Nat.succ_le_succ (Nat.zero_le _), endsAfter_one.mpr hq⟩
      · exact .inr ⟨n + 1, Nat.succ_pos n, Nat.succ_le_succ hn, (endsAfter_succ (Nat.ne_of_gt hpos)).mpr ⟨q, hq, hends⟩⟩
      · exact .inl rfl
    · rintro (rfl | ⟨n, hpos, hn, hends⟩)
      · exact .inr rfl
      obtain ⟨n, rfl⟩ := Nat.exists_eq_succ_of_ne_zero (Nat.ne_of_gt hpos)
      rcases Nat.eq_zero_or_pos n with rfl | hn'
      · exact .inl ⟨finish, endsAfter_one.mp hends, .inl rfl⟩
      · obtain ⟨q, hq, hends⟩ := (endsAfter_succ (Nat.ne_of_gt hn')).mp hends
        exact .inl ⟨q, hq, .inr ⟨n, hn', Nat.le_of_succ_le_succ hn, hends⟩⟩

theorem mem_repeated {least more : Nat} (hleast : 0 < least) :
    finish ∈ repeatedEnds (cardDigit t).ends least more p ↔
      ∃ n, least ≤ n ∧ n ≤ least + more ∧ EndsAfter t p finish n := by
  induction least generalizing p with
  | zero => cases hleast
  | succ least ih =>
    simp only [repeatedEnds, List.mem_flatMap]
    rcases Nat.eq_zero_or_pos least with rfl | hpos
    · simp only [repeatedEnds, mem_atMost]
      constructor
      · rintro ⟨q, hq, rfl | ⟨n, hpos, hn, hends⟩⟩
        · exact ⟨1, Nat.le_refl 1, by omega, endsAfter_one.mpr hq⟩
        · exact ⟨n + 1, by omega, by omega, (endsAfter_succ (Nat.ne_of_gt hpos)).mpr ⟨q, hq, hends⟩⟩
      · rintro ⟨n, hlow, hhigh, hends⟩
        obtain ⟨n, rfl⟩ := Nat.exists_eq_succ_of_ne_zero (Nat.ne_of_gt hlow)
        rcases Nat.eq_zero_or_pos n with rfl | hn
        · exact ⟨finish, endsAfter_one.mp hends, .inl rfl⟩
        · obtain ⟨q, hq, hends⟩ := (endsAfter_succ (Nat.ne_of_gt hn)).mp hends
          exact ⟨q, hq, .inr ⟨n, hn, by omega, hends⟩⟩
    · constructor
      · rintro ⟨q, hq, hmem⟩
        obtain ⟨n, hlow, hhigh, hends⟩ := (ih hpos).mp hmem
        exact ⟨n + 1, by omega, by omega, (endsAfter_succ (by omega)).mpr ⟨q, hq, hends⟩⟩
      · rintro ⟨n, hlow, hhigh, hends⟩
        obtain ⟨n, rfl⟩ := Nat.exists_eq_succ_of_ne_zero (show n ≠ 0 by omega)
        obtain ⟨q, hq, hends⟩ := (endsAfter_succ (by omega)).mp hends
        exact ⟨q, hq, (ih hpos).mpr ⟨n, by omega, by omega, hends⟩⟩

theorem mem_digitRun : finish ∈ (digitRun t).ends p ↔ p.before.any t.word ≠ p.rest.head?.any t.word ∧
    (∃ n, 13 ≤ n ∧ n ≤ 19 ∧ EndsAfter t p finish n) ∧ finish.before.any t.word ≠ finish.rest.head?.any t.word := by
  unfold digitRun inTurn inTurn inTurn
  simp only [Regex.ends.eq_3, List.mem_flatMap, mem_boundary]
  constructor
  · rintro ⟨q, ⟨rfl, hbefore⟩, r, hr, rfl, hafter⟩
    exact ⟨hbefore, (mem_repeated (by decide)).mp hr, hafter⟩
  · rintro ⟨hbefore, hrun, hafter⟩
    exact ⟨p, ⟨rfl, hbefore⟩, finish, (mem_repeated (by decide)).mpr hrun, rfl, hafter⟩

theorem digitRun_longest : ((digitRun t).ends p).Pairwise Place.Past := by
  unfold digitRun inTurn inTurn inTurn
  simp only [Regex.ends.eq_3]
  refine List.pairwise_flatMap.mpr ⟨fun q _ => boundary_longest cardDigit_forced.repeated_longest, ?_⟩
  simp only [Regex.ends]
  split
  · exact List.pairwise_singleton _ _
  · exact List.Pairwise.nil

theorem Run.head_word (h : Run t n run) (rest : List Char) : (run ++ rest).head?.any t.word = true := by
  obtain ⟨d, ds, rfl, hd⟩ := h.head
  exact isDigit_word hd

theorem Run.last_word (h : Run t n run) : run.getLast?.any t.word = true := by
  obtain ⟨d, hlast, hd⟩ := h.getLast
  rw [hlast]
  exact isDigit_word hd

/-- What the expression matches is a delimited run and perhaps a character that stands apart. -/
theorem delimited_of_end (h : finish ∈ (digitRun t).ends p) :
    ∃ run gap, Gap gap ∧ Delimited t p run (gap ++ finish.rest) ∧ finish.before = (run ++ gap).getLast? := by
  obtain ⟨hbefore, ⟨n, hlow, hhigh, run, gap, hrun, hgap, hrest, hfinish⟩, hafter⟩ := mem_digitRun.mp h
  refine ⟨run, gap, hgap, ⟨by rw [hrest, List.append_assoc], ?_, ?_, n, hlow, hhigh, hrun⟩, hfinish⟩
  · rw [hrest, List.append_assoc, hrun.head_word] at hbefore
    simpa using hbefore
  · obtain rfl | ⟨c, hc, rfl⟩ := hgap
    · rw [hfinish, List.append_nil, hrun.last_word] at hafter
      simpa using hafter.symm
    · exact isApart_word hc

theorem end_of_delimited (h : Delimited t p run rest) : ⟨run.getLast?, rest⟩ ∈ (digitRun t).ends p := by
  obtain ⟨n, hlow, hhigh, hrun⟩ := h.digits
  refine mem_digitRun.mpr ⟨?_, ⟨n, hlow, hhigh, run, [], hrun, .inl rfl, ?_, ?_⟩, ?_⟩
  · rw [h.before, h.here, hrun.head_word]
    exact Bool.false_ne_true
  · rw [h.here, List.append_nil]
  · rw [List.append_nil]
  · rw [hrun.last_word, h.after]
    exact Bool.false_ne_true.symm

/-- The match from a place is the longest run there. -/
theorem longest_of_first {others : List Place} (h : (digitRun t).ends p = finish :: others) :
    ∃ run gap, Gap gap ∧ Longest t p run (gap ++ finish.rest) ∧ finish.before = (run ++ gap).getLast? := by
  have hsorted := h ▸ digitRun_longest (t := t) (p := p)
  obtain ⟨run, gap, hgap, hrun, hbefore⟩ := delimited_of_end (h ▸ List.mem_cons_self : finish ∈ (digitRun t).ends p)
  refine ⟨run, gap, hgap, { hrun with longest := fun run' rest' hrun' => ?_ }, hbefore⟩
  have hmem := h ▸ end_of_delimited hrun'
  have hfirst : finish.rest.length ≤ rest'.length := by
    obtain heq | hmem := List.mem_cons.mp hmem
    · exact Nat.le_of_eq (congrArg (fun q : Place => q.rest.length) heq.symm)
    · exact Nat.le_of_lt ((List.pairwise_cons.mp hsorted).1 _ hmem)
  have hsame : run ++ (gap ++ finish.rest) = run' ++ rest' := hrun.here.symm.trans hrun'.here
  by_contra hlonger
  -- A longer run would end with the character that stands apart.
  obtain ⟨n, _, _, hdigits⟩ := hrun'.digits
  obtain ⟨d, hlast, hd⟩ := hdigits.getLast
  have hlength := congrArg List.length hsame
  simp only [List.length_append] at hlength
  obtain rfl | ⟨c, hc, rfl⟩ := hgap
  · simp only [List.length_nil] at hlength
    omega
  · have hrun'' : run' = run ++ [c] := by
      have htake := congrArg (List.take run'.length) hsame
      rw [List.take_left, ← List.append_assoc, List.take_left' (by simp at hlength ⊢; omega)] at htake
      exact htake.symm
    rw [hrun'', List.getLast?_append_of_ne_nil _ (by simp), List.getLast?_singleton, Option.some.injEq] at hlast
    rw [hlast, isDigit_apart hd] at hc
    cases hc

theorem Longest.unique (h : Longest t p run rest) (h' : Longest t p run' rest') : run = run' ∧ rest = rest' :=
  List.append_inj (h.here.symm.trans h'.here)
    (Nat.le_antisymm (h'.longest _ _ h.toDelimited) (h.longest _ _ h'.toDelimited))

/-- A character that stands apart begins no run. -/
theorem taken_gap (hgap : Gap gap) (front : List Char) :
    Taken t ⟨(front ++ gap).getLast?, rest⟩ run ↔ Taken t ⟨front.getLast?, gap ++ rest⟩ run := by
  obtain rfl | ⟨c, hc, rfl⟩ := hgap
  · rw [List.append_nil, List.nil_append]
  · have hnone : ∀ run' rest', ¬Delimited t ⟨front.getLast?, c :: rest⟩ run' rest' := by
      intro run' rest' h
      obtain ⟨n, _, _, hrun⟩ := h.digits
      obtain ⟨d, ds, rfl, hd⟩ := hrun.head
      obtain ⟨rfl, -⟩ := List.cons.inj h.here
      rw [isDigit_apart hd] at hc
      cases hc
    rw [List.getLast?_append_of_ne_nil _ (by simp), List.getLast?_singleton]
    constructor
    · exact .skip hnone
    · intro h
      cases h with
      | here h => exact absurd h.toDelimited (hnone _ _)
      | past h => exact absurd h.toDelimited (hnone _ _)
      | skip _ later => exact later

/-- The matches are the runs that are cut off, as far as their digits are concerned. -/
theorem find_taken {good : List Char → Prop} {fuel : Nat} (hfuel : p.rest.length < fuel) :
    (∃ candidate ∈ (digitRun t).findFrom fuel p, good (digitsOf candidate)) ↔
      ∃ run, Taken t p run ∧ good (digitsOf run) := by
  induction fuel generalizing p with
  | zero => cases hfuel
  | succ fuel ih =>
    cases hends : (digitRun t).ends p with
    | nil =>
      have hnone : ∀ run' rest', ¬Delimited t p run' rest' := fun run' rest' h => by
        have hmem := end_of_delimited h
        rw [hends] at hmem
        cases hmem
      obtain ⟨before, rest⟩ := p
      cases rest with
      | nil =>
        simp only [Regex.findFrom, hends, List.not_mem_nil, false_and, exists_false, false_iff]
        rintro ⟨run, htaken, -⟩
        cases htaken with
        | here h => exact hnone _ _ h.toDelimited
        | past h => exact hnone _ _ h.toDelimited
      | cons c cs =>
        simp only [Regex.findFrom, hends]
        rw [ih (Nat.lt_of_succ_lt_succ hfuel)]
        constructor
        · rintro ⟨run, htaken, hgood⟩
          exact ⟨run, .skip hnone htaken, hgood⟩
        · rintro ⟨run, htaken, hgood⟩
          cases htaken with
          | here h => exact absurd h.toDelimited (hnone _ _)
          | past h => exact absurd h.toDelimited (hnone _ _)
          | skip _ later => exact ⟨run, later, hgood⟩
    | cons finish others =>
      obtain ⟨run, gap, hgap, hrun, hbefore⟩ := longest_of_first hends
      obtain ⟨n, _, _, hdigits⟩ := hrun.digits
      have hne : run ≠ [] := by
        obtain ⟨d, ds, rfl, -⟩ := hdigits.head
        exact List.cons_ne_nil _ _
      have hpast : finish.rest.length < p.rest.length := by
        rw [hrun.here]
        have hpos := List.length_pos_iff.mpr hne
        simp only [List.length_append]
        omega
      have hcandidate : digitsOf (p.upTo finish) = digitsOf run := by
        unfold Place.upTo
        rw [hrun.here, ← List.append_assoc, List.length_append, Nat.add_sub_cancel, List.take_left]
        simp only [digitsOf, List.filter_append]
        rw [show gap.filter (fun c => !isApart c) = [] from hgap.filter, List.append_nil]
      have hlater : ∀ run', Taken t finish run' ↔ Taken t ⟨run.getLast?, gap ++ finish.rest⟩ run' := by
        intro run'
        rw [← taken_gap hgap run, ← hbefore]
      simp only [Regex.findFrom, hends, List.mem_cons, exists_eq_or_imp, hcandidate]
      rw [ih (by omega)]
      constructor
      · rintro (hgood | ⟨run', htaken, hgood⟩)
        · exact ⟨run, .here hrun, hgood⟩
        · exact ⟨run', .past hrun ((hlater run').mp htaken), hgood⟩
      · rintro ⟨run', htaken, hgood⟩
        cases htaken with
        | here h =>
          obtain ⟨rfl, -⟩ := h.unique hrun
          exact .inl hgood
        | past h later =>
          obtain ⟨rfl, rfl⟩ := h.unique hrun
          exact .inr ⟨run', (hlater run').mpr later, hgood⟩
        | skip h => exact absurd hrun.toDelimited (h _ _)

theorem no_run_of_stuck (h : (digitRun t).ends p = []) (run' rest' : List Char) : ¬Delimited t p run' rest' := by
  intro hrun
  have hmem := end_of_delimited hrun
  rw [h] at hmem
  cases hmem

theorem Delimited.ne_nil (h : Delimited t p run rest) : run ≠ [] := by
  obtain ⟨n, _, _, hrun⟩ := h.digits
  obtain ⟨d, ds, rfl, -⟩ := hrun.head
  exact List.cons_ne_nil _ _

end Runs

section Cards

variable {t : CharTables} {text front run back : List Char}

/-- A delimited run of a text: what comes before it, and what comes after. -/
structure RunOf (t : CharTables) (text front run back : List Char) : Prop where
  split : text = front ++ run ++ back
  run : Delimited t ⟨front.getLast?, run ++ back⟩ run back

/-- No other run of a text overlaps a run. -/
def Alone (t : CharTables) (text front run : List Char) : Prop :=
  ∀ front' run' back', RunOf t text front' run' back' →
    front'.length + run'.length ≤ front.length ∨ front.length + run.length ≤ front'.length ∨
      front' = front ∧ run' = run

/-- A text holds a card number: a delimited run whose digits pass. -/
def HoldsCard (t : CharTables) (text : List Char) : Prop :=
  ∃ front run back, RunOf t text front run back ∧ passesLuhn t (digitsOf run) = true

/-- From any place before it, a run that no other overlaps is cut off. -/
theorem taken_of_alone {done pre : List Char} (hrun : RunOf t text (done ++ pre) run back)
    (halone : Alone t text (done ++ pre) run) : Taken t ⟨done.getLast?, pre ++ run ++ back⟩ run := by
  induction hlength : pre.length using Nat.strong_induction_on generalizing done pre with
  | _ size ih =>
    cases hends : (digitRun t).ends ⟨done.getLast?, pre ++ run ++ back⟩ with
    | nil =>
      have hnone := no_run_of_stuck hends
      cases pre with
      | nil =>
        have hthere := hrun.run
        rw [List.append_nil] at hthere
        exact absurd hthere (hnone _ _)
      | cons c pre =>
        refine .skip hnone ?_
        have hdone : done ++ c :: pre = (done ++ [c]) ++ pre := by simp
        have hlater := ih pre.length (by rw [← hlength]; exact Nat.lt_succ_self _) (hdone ▸ hrun) (hdone ▸ halone) rfl
        rwa [List.getLast?_append_of_ne_nil _ (by simp), List.getLast?_singleton] at hlater
    | cons finish others =>
      obtain ⟨first, gap, -, hfirst, -⟩ := longest_of_first hends
      generalize hrest : gap ++ finish.rest = rest at hfirst
      have hhere : pre ++ run ++ back = first ++ rest := hfirst.here
      have hother : RunOf t text done first rest := by
        refine ⟨?_, hhere ▸ hfirst.toDelimited⟩
        rw [hrun.split, List.append_assoc, List.append_assoc, List.append_assoc, ← hhere]
        simp only [List.append_assoc]
      obtain hbefore | hafter | ⟨hsame, rfl⟩ := halone _ _ _ hother
      · -- The run that is cut off here ends before the one that is alone.
        rw [List.length_append] at hbefore
        obtain ⟨pre', rfl⟩ : ∃ pre', pre = first ++ pre' := by
          refine List.prefix_iff_exists_append_eq.mp ?_ |>.imp fun _ h => h.symm
          refine List.prefix_of_prefix_length_le (List.prefix_append first rest) ?_ (by omega)
          rw [← hhere, List.append_assoc]
          exact List.prefix_append _ _
        have hrest' : rest = pre' ++ run ++ back := by
          simp only [List.append_assoc, List.append_cancel_left_eq] at hhere ⊢
          exact hhere.symm
        refine .past hfirst ?_
        have hdone : done ++ (first ++ pre') = (done ++ first) ++ pre' := by simp
        have hpos := List.length_pos_iff.mpr hfirst.ne_nil
        have hlater := ih pre'.length (by simp only [List.length_append] at hlength; omega) (hdone ▸ hrun)
          (hdone ▸ halone) rfl
        rwa [List.getLast?_append_of_ne_nil _ hfirst.ne_nil, ← hrest'] at hlater
      · have hpos := List.length_pos_iff.mpr hrun.run.ne_nil
        simp only [List.length_append] at hafter
        omega
      · exact .here hfirst

theorem Taken.digits {p : Place} (h : Taken t p run) : ∃ n, 13 ≤ n ∧ n ≤ 19 ∧ Run t n run := by
  induction h with
  | here h => exact h.digits
  | past _ _ ih => exact ih
  | skip _ _ ih => exact ih

/-- The scan finds a card number if and only if a run that is cut off is one. -/
theorem card_found : ((digitRun t).findall text).any (isCard t) = true ↔
    ∃ run, Taken t (.start text) run ∧ passesLuhn t (digitsOf run) = true := by
  have hfind := @find_taken t (.start text)
    (fun digits => 13 ≤ digits.length ∧ digits.length ≤ 19 ∧ passesLuhn t digits = true) (text.length + 1)
    (Nat.lt_succ_self _)
  simp only [List.any_eq_true, isCard, Bool.and_eq_true, decide_eq_true_eq, Regex.findall, and_assoc]
  rw [hfind]
  constructor
  · rintro ⟨run, htaken, -, -, hpasses⟩
    exact ⟨run, htaken, hpasses⟩
  · rintro ⟨run, htaken, hpasses⟩
    obtain ⟨n, hlow, hhigh, hrun⟩ := htaken.digits
    exact ⟨run, htaken, hrun.length ▸ hlow, hrun.length ▸ hhigh, hpasses⟩

/-- A text shows a credential of one of the shapes. -/
def ShowsSecret (t : CharTables) (text : List Char) : Prop :=
  ∃ pattern ∈ secretPatterns t, pattern.2.search text = true

theorem restricted_iff {sha256 : ByteArray → String} {text : String} :
    (classify t sha256 text).classification = .restricted ↔
      ShowsSecret t text.toList ∨ ∃ run, Taken t (.start text.toList) run ∧ passesLuhn t (digitsOf run) = true := by
  have hshown : secretNames t text = [] ↔ ¬ShowsSecret t text.toList := by
    simp [secretNames, ShowsSecret, List.filter_eq_nil_iff]
  rw [← card_found]
  unfold classify
  dsimp only
  by_cases hsecret : ShowsSecret t text.toList
  · have hnames := mt hshown.mp (not_not_intro hsecret)
    simp [hsecret, hnames]
  · rw [hshown.mpr hsecret]
    cases ((digitRun t).findall text.toList).any (isCard t) <;> simp [hsecret]

end Cards

section Example

def asciiTables : CharTables where
  word := fun c => c.isAlphanum || c == '_'
  space := Char.isWhitespace
  decimal := fun c => if c.isDigit then some (c.toNat - 48) else none
  decimal_word := by
    intro c hc
    have hdigit : c.isDigit = true := by
      by_contra hnot
      rw [if_neg hnot] at hc
      cases hc
    simp [Char.isAlphanum, hdigit]
  space_apart := by decide
  hyphen_apart := by decide

theorem Run.append {t : CharTables} {m n : Nat} {run run' gap : List Char} (h : Run t m run) (hgap : Gap gap)
    (h' : Run t n run') : Run t (m + n) (run ++ gap ++ run') := by
  induction h with
  | last hd =>
    rw [Nat.add_comm]
    exact .next hd hgap h'
  | @next m d inner run hd hinner _ ih =>
    have hnext := Run.next hd hinner ih
    rw [Nat.add_right_comm]
    simpa only [List.append_assoc, List.cons_append] using hnext

theorem group {d : Char} (h : isDigit asciiTables d = true) : Run asciiTables 4 [d, d, d, d] :=
  .next h (.inl rfl) (.next h (.inl rfl) (.next h (.inl rfl) (.last h)))

theorem digits4111 : Run asciiTables 16 "4111 1111 1111 1111".toList :=
  have hspace : Gap [' '] := .inr ⟨' ', rfl, rfl⟩
  have hfirst : Run asciiTables 4 ['4', '1', '1', '1'] :=
    .next rfl (.inl rfl) (.next rfl (.inl rfl) (.next rfl (.inl rfl) (.last rfl)))
  have hones : Run asciiTables 4 ['1', '1', '1', '1'] := group rfl
  ((hfirst.append hspace hones).append hspace hones).append hspace hones

/-- The hash of the text below -/
def expiryHash : ByteArray → String :=
  fun _ => "9556a082fcdd769c2ddbc3a11bdab629447dc9b867a9dfa971946c8ad9c55cce"

end Example

end Solvan.Liaison.Redaction
