import Mathlib.Data.List.Basic

/-! Regular expressions, matched in the order in which a backtracking engine tries its choices. -/
namespace Solvan.Base

/-- A place in a text: the character before it, and what comes after it. -/
structure Place where
  before : Option Char
  rest : List Char
deriving DecidableEq

def Place.start (text : List Char) : Place := ⟨none, text⟩

/-- The text from a place to a later one. -/
def Place.upTo (p finish : Place) : List Char := p.rest.take (p.rest.length - finish.rest.length)

/-- Expressions. The repeated one takes at least one character. -/
inductive Regex where
  | set (accepts : Char → Bool)
  | boundary (word : Char → Bool)
  | seq (first second : Regex)
  | either (first second : Regex)
  | repeated (item : Regex) (least : Nat) (more : Option Nat)

/-- The places after at most so many repetitions, most of them first. -/
def atMost (item : Place → List Place) : Nat → Place → List Place
  | 0, p => [p]
  | more + 1, p => (item p).flatMap (atMost item more) ++ [p]

/-- The places after so many repetitions and at most so many more. -/
def repeatedEnds (item : Place → List Place) : Nat → Nat → Place → List Place
  | 0, more, p => atMost item more p
  | least + 1, more, p => (item p).flatMap (repeatedEnds item least more)

/-- Where a match from a place may end, in the order in which it is tried. -/
def Regex.ends : Regex → Place → List Place
  | .set accepts, p =>
    match p.rest with
    | c :: rest => if accepts c then [⟨some c, rest⟩] else []
    | [] => []
  | .boundary word, p => if p.before.any word != p.rest.head?.any word then [p] else []
  | .seq first second, p => (first.ends p).flatMap second.ends
  | .either first second, p => first.ends p ++ second.ends p
  | .repeated item least more, p => repeatedEnds item.ends least (more.getD p.rest.length) p

/-- `re.search`, from a place on -/
def Regex.searchFrom (r : Regex) : Option Char → List Char → Bool
  | before, [] => !(r.ends ⟨before, []⟩).isEmpty
  | before, c :: rest => !(r.ends ⟨before, c :: rest⟩).isEmpty || r.searchFrom (some c) rest

def Regex.search (r : Regex) (text : List Char) : Bool := r.searchFrom none text

/-- `re.findall` of an expression that takes at least one character -/
def Regex.findFrom (r : Regex) : Nat → Place → List (List Char)
  | 0, _ => []
  | fuel + 1, p =>
    match r.ends p, p.rest with
    | finish :: _, _ => p.upTo finish :: r.findFrom fuel finish
    | [], c :: rest => r.findFrom fuel ⟨some c, rest⟩
    | [], [] => []

def Regex.findall (r : Regex) (text : List Char) : List (List Char) :=
  r.findFrom (text.length + 1) (.start text)

/-- The Unicode tables that expressions are matched by. -/
structure CharTables where
  word : Char → Bool
  space : Char → Bool
  /-- The value of a decimal digit -/
  decimal : Char → Option Nat
  decimal_word : ∀ c, (decimal c).isSome = true → word c = true
  space_apart : word ' ' = false
  hyphen_apart : word '-' = false

namespace Regex

/-- An expression that may be left out. -/
def perhaps (item : Regex) : Regex := .repeated item 0 (some 1)

/-- Some characters, one after the other. -/
def inTurn : List Regex → Regex
  | [] => .repeated (.set (fun _ => false)) 0 (some 0)
  | [r] => r
  | r :: rs => .seq r (inTurn rs)

def literal (text : String) : Regex := inTurn (text.toList.map (fun letter => .set (· == letter)))

def oneOf : List Regex → Regex
  | [] => .set (fun _ => false)
  | [r] => r
  | r :: rs => .either r (oneOf rs)

/-- Digits, letters of some kind and some other characters: `[0-9A-Z]` and its like -/
def among (extra : String) (letters : Char → Bool) : Regex :=
  .set (fun c => '0' ≤ c && c ≤ '9' || letters c || extra.toList.contains c)

def upperLetter (c : Char) : Bool := 'A' ≤ c && c ≤ 'Z'

def tokenLetter (c : Char) : Bool := ('a' ≤ c && c ≤ 'z') || ('A' ≤ c && c ≤ 'Z')

/-- The characters that a lower-case letter matches where case is ignored: some letters of no ASCII case count
as one of an ASCII letter. -/
def sameLetter (letter c : Char) : Bool :=
  c == letter || c.toLower == letter && c.toNat < 128 ||
    letter == 'i' && (c == 'İ' || c == 'ı') || letter == 's' && c == 'ſ' || letter == 'k' && c == 'K'

/-- `[A-Za-z]` where case is ignored -/
def caselessLetter (c : Char) : Bool := "abcdefghijklmnopqrstuvwxyz".toList.any (fun letter => sameLetter letter c)

def spaces (t : CharTables) : Regex := .repeated (.set t.space) 0 none

def caseless (text : String) : Regex := inTurn (text.toList.map (fun letter => .set (sameLetter letter)))

end Regex

section Repeated

variable {item : Place → List Place} {p finish : Place} {least more : Nat}

/-- A place further on than another. -/
def Place.Past (p q : Place) : Prop := p.rest.length < q.rest.length

/-- An item moves on, and of its choices only the first may be followed by another item. -/
structure Forced (item : Place → List Place) : Prop where
  past : ∀ p, ∀ e ∈ item p, e.Past p
  choices : ∀ p, (item p).Pairwise (fun e e' => e.Past e' ∧ item e' = [])

theorem Forced.atMost_le (h : Forced item) (he : finish ∈ atMost item more p) :
    finish.rest.length ≤ p.rest.length := by
  induction more generalizing p with
  | zero =>
    obtain rfl := List.mem_singleton.mp he
    exact Nat.le_refl _
  | succ more ih =>
    obtain hmem | hmem := List.mem_append.mp he
    · obtain ⟨q, hq, hmem⟩ := List.mem_flatMap.mp hmem
      exact Nat.le_trans (ih hmem) (Nat.le_of_lt (h.past p q hq))
    · obtain rfl := List.mem_singleton.mp hmem
      exact Nat.le_refl _

theorem Forced.repeated_le (h : Forced item) (he : finish ∈ repeatedEnds item least more p) :
    finish.rest.length ≤ p.rest.length := by
  induction least generalizing p with
  | zero => exact h.atMost_le he
  | succ least ih =>
    obtain ⟨q, hq, hmem⟩ := List.mem_flatMap.mp he
    exact Nat.le_trans (ih hmem) (Nat.le_of_lt (h.past p q hq))

/-- Where no item leads on, a repetition ends at once. -/
theorem repeated_stuck (hstuck : item p = []) (he : finish ∈ repeatedEnds item least more p) : finish = p := by
  cases least with
  | zero =>
    cases more with
    | zero => exact List.mem_singleton.mp he
    | succ more =>
      simp only [repeatedEnds, atMost, hstuck, List.flatMap_nil, List.nil_append] at he
      exact List.mem_singleton.mp he
  | succ least =>
    simp only [repeatedEnds, hstuck, List.flatMap_nil] at he
    cases he

/-- Repetitions of a forced item are tried from the longest to the shortest. -/
theorem Forced.atMost_longest (h : Forced item) : (atMost item more p).Pairwise Place.Past := by
  induction more generalizing p with
  | zero => exact List.pairwise_singleton _ _
  | succ more ih =>
    refine List.pairwise_append.mpr ⟨List.pairwise_flatMap.mpr ⟨fun e _ => ih, ?_⟩, List.pairwise_singleton _ _, ?_⟩
    · refine (h.choices p).imp (fun hchoice x hx y hy => ?_)
      rw [@repeated_stuck item _ _ 0 _ hchoice.2 hy]
      exact Nat.lt_of_le_of_lt (h.atMost_le hx) hchoice.1
    · intro x hx y hy
      obtain ⟨e, he, hx⟩ := List.mem_flatMap.mp hx
      rw [List.mem_singleton.mp hy]
      exact Nat.lt_of_le_of_lt (h.atMost_le hx) (h.past p e he)

theorem Forced.repeated_longest (h : Forced item) : (repeatedEnds item least more p).Pairwise Place.Past := by
  induction least generalizing p with
  | zero => exact h.atMost_longest
  | succ least ih =>
    refine List.pairwise_flatMap.mpr ⟨fun e _ => ih, (h.choices p).imp (fun hchoice x hx y hy => ?_)⟩
    rw [repeated_stuck hchoice.2 hy]
    exact Nat.lt_of_le_of_lt (h.repeated_le hx) hchoice.1

theorem mem_boundary {word : Char → Bool} : finish ∈ (Regex.boundary word).ends p ↔
    finish = p ∧ p.before.any word ≠ p.rest.head?.any word := by
  simp only [Regex.ends, bne_iff_ne]
  split <;> simp_all

/-- A boundary after some ends leaves them in their order. -/
theorem boundary_longest {word : Char → Bool} {ends : List Place} (h : ends.Pairwise Place.Past) :
    (ends.flatMap (Regex.boundary word).ends).Pairwise Place.Past := by
  refine List.pairwise_flatMap.mpr ⟨fun e _ => ?_, h.imp (fun hpast x hx y hy => ?_)⟩
  · simp only [Regex.ends]
    split
    · exact List.pairwise_singleton _ _
    · exact List.Pairwise.nil
  · rw [(mem_boundary.mp hx).1, (mem_boundary.mp hy).1]
    exact hpast

end Repeated

end Solvan.Base
