/-! Decimal numerals: an optional sign and one or more ASCII digits. -/
namespace Cqasm.Text

def digit? (c : Char) : Option Nat :=
  if '0' ≤ c ∧ c ≤ '9' then some (c.toNat - '0'.toNat) else none

def digits? : (soFar : Nat) → List Char → Option Nat
  | soFar, [] => some soFar
  | soFar, c :: rest => (digit? c).bind fun d => digits? (10 * soFar + d) rest

def natural? : List Char → Option Nat
  | [] => none
  | text => digits? 0 text

def integer? : List Char → Option Int
  | '+' :: rest => (natural? rest).map Int.ofNat
  | '-' :: rest => (natural? rest).map fun n => -(n : Int)
  | text => (natural? text).map Int.ofNat

end Cqasm.Text
