import Mathlib.Data.List.Basic

/-! Base 64 with padding, as strict decoders read it. -/
namespace Solvan.Base

def base64Alphabet : List Char :=
  "ABCDEFGHIJKLMNOPQRSTUVWXYZabcdefghijklmnopqrstuvwxyz0123456789+/".toList

def base64Digit (n : Nat) : Char := base64Alphabet.getD n '='

def base64Value (c : Char) : Option Nat := base64Alphabet.idxOf? c

/-- `base64.b64encode`, on bytes -/
def base64Encode : List UInt8 → List Char
  | [] => []
  | [a] => [base64Digit (a.toNat / 4), base64Digit (a.toNat % 4 * 16), '=', '=']
  | [a, b] =>
    [base64Digit (a.toNat / 4), base64Digit (a.toNat % 4 * 16 + b.toNat / 16),
      base64Digit (b.toNat % 16 * 4), '=']
  | a :: b :: c :: rest =>
    base64Digit (a.toNat / 4) :: base64Digit (a.toNat % 4 * 16 + b.toNat / 16) ::
      base64Digit (b.toNat % 16 * 4 + c.toNat / 64) :: base64Digit (c.toNat % 64) ::
      base64Encode rest

/-- The quanta of `base64.b64decode` with `validate=True`. The last one alone may be padded; padding behind a whole one
is passed over. -/
def base64Quanta : List Char → Option (List UInt8)
  | a :: b :: c :: d :: rest =>
    if (a :: b :: c :: d :: rest).all (· == '=') then some [] else do
      let x ← base64Value a
      let y ← base64Value b
      let first := UInt8.ofNat (x * 4 + y / 16)
      if c = '=' ∧ d = '=' ∧ rest = [] then return [first]
      let z ← base64Value c
      let second := UInt8.ofNat (y % 16 * 16 + z / 4)
      if d = '=' ∧ rest = [] then return [first, second]
      let w ← base64Value d
      let others ← base64Quanta rest
      return first :: second :: UInt8.ofNat (z % 4 * 64 + w) :: others
  | cs => if cs.all (· == '=') then some [] else none

/-- `base64.b64decode` with `validate=True` -/
def base64Decode (cs : List Char) : Option (List UInt8) :=
  if cs.head? = some '=' then none else base64Quanta cs

end Solvan.Base
