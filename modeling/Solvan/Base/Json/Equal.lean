import Mathlib.Algebra.Order.Ring.Int
import Solvan.Base.Json.Text

/-! Equality of loaded JSON values as Python's `==` has it: numbers by value,
objects whatever the order of their keys. -/

/-- A decimal as a whole number times a power of ten. -/
def Decimal.scaled (x : Decimal) : Int × Int :=
  let negative := x.text.head? == some '-'
  let digits := if negative then x.text.drop 1 else x.text
  let whole := digits.takeWhile Char.isDigit
  let rest := digits.dropWhile Char.isDigit
  let fraction := if rest.head? == some '.' then (rest.drop 1).takeWhile Char.isDigit else []
  let exponent := match rest.dropWhile (· != 'e') with
    | 'e' :: '-' :: ds => -(Nat.ofDigitChars 10 ds 0 : Int)
    | 'e' :: _ :: ds => (Nat.ofDigitChars 10 ds 0 : Int)
    | _ => 0
  let mantissa : Int := Nat.ofDigitChars 10 (whole ++ fraction) 0
  (if negative then -mantissa else mantissa, exponent - fraction.length)

namespace Json

/-- A number, as a whole number times a power of ten. Booleans are numbers. -/
def number : Json → Option (Int × Int)
  | .bool b => some (b.toNat, 0)
  | .int n => some (n, 0)
  | .float x => some x.scaled
  | _ => none

def sameNumber (x y : Int × Int) : Bool :=
  let low := min x.2 y.2
  x.1 * 10 ^ (x.2 - low).toNat == y.1 * 10 ^ (y.2 - low).toNat

def sameNumbers (a b : Json) : Bool :=
  match a.number, b.number with
  | some x, some y => sameNumber x y
  | _, _ => false

mutual

def equal : Json → Json → Bool
  | .null => fun other => match other with
    | .null => true
    | _ => false
  | .str s => fun other => match other with
    | .str t => s == t
    | _ => false
  | .arr items => fun other => match other with
    | .arr others => equalItems items others
    | _ => false
  | .obj fields => fun other => match other with
    | .obj others => fields.length == others.length && equalFields fields others
    | _ => false
  | .bool b => sameNumbers (.bool b)
  | .int n => sameNumbers (.int n)
  | .float x => sameNumbers (.float x)

def equalItems : List Json → List Json → Bool
  | [] => List.isEmpty
  | j :: js => fun others => match others with
    | k :: ks => equal j k && equalItems js ks
    | [] => false

def equalFields : List (String × Json) → List (String × Json) → Bool
  | [] => fun _ => true
  | f :: fs => fun others => equalField f others && equalFields fs others

def equalField : String × Json → List (String × Json) → Bool
  | (k, j) => fun others => match others.lookup k with
    | some other => equal j other
    | none => false

end

example : equal (.obj [("a", .int 1), ("b", .null)]) (.obj [("b", .null), ("a", .bool true)]) := by
  rfl

end Json
