/-! Decimal text of floats: the fewest digits that read back as the same float, the nearest of those, an
exact tie going up; written out by position, never with an exponent. -/
namespace Cqasm.Number

open Float.Model (UnpackedFloat)

structure Decimal where
  digits : Nat
  exponent : Int
  deriving DecidableEq, Repr

namespace Decimal

def trimZeros : (fuel : Nat) → Decimal → Decimal
  | 0, d => d
  | fuel + 1, d => if d.digits % 10 = 0 then trimZeros fuel ⟨d.digits / 10, d.exponent + 1⟩ else d

def zeros (n : Nat) : List Char := List.replicate n '0'

def text (d : Decimal) : String :=
  let ds := Nat.toDigits 10 d.digits
  let places := (-d.exponent).toNat
  String.ofList <|
    if 0 ≤ d.exponent then ds ++ zeros d.exponent.toNat
    else if places < ds.length then ds.take (ds.length - places) ++ '.' :: ds.drop (ds.length - places)
    else '0' :: '.' :: zeros (places - ds.length) ++ ds

end Decimal

structure RoundingRange where
  low : Nat
  value : Nat
  high : Nat
  scale : Int
  closed : Bool

namespace RoundingRange

/-- The range of the float `m * 2 ^ e`, in quarters of its last place. Below a power of two the floats lie
twice as close. -/
def ofFinite (m : Nat) (e : Int) : RoundingRange where
  low := if m = 1 <<< 52 ∧ -1074 < e then 4 * m - 1 else 4 * m - 2
  value := 4 * m
  high := 4 * m + 2
  scale := e - 2
  closed := m % 2 = 0

def precedes (closed : Bool) (a b : Nat) : Bool := a < b || closed && a == b

def factors (scale x : Int) : Nat × Nat :=
  (Nat.pow 10 (-x).toNat <<< scale.toNat, Nat.pow 10 x.toNat <<< (-scale).toNat)

def nearestMultiple? (r : RoundingRange) (x : Int) : Option Nat :=
  let (unit, step) := factors r.scale x
  let value := r.value * unit
  let below := value / step
  let above := below + 1
  let belowFits := precedes r.closed (r.low * unit) (below * step)
  let aboveFits := precedes r.closed (above * step) (r.high * unit)
  if belowFits && (!aboveFits || 2 * (value - below * step) < step) then some below
  else if aboveFits then some above
  else none

def below (r : RoundingRange) (x : Int) : Bool :=
  let (unit, step) := factors r.scale x
  r.value * unit < step

def magnitude (r : RoundingRange) : Int :=
  let estimate := (((r.value.log2 : Int) + r.scale) * 30103).fdiv 100000
  if r.below estimate then estimate
  else if r.below (estimate + 1) then estimate + 1
  else estimate + 2

def shortest (r : RoundingRange) : Decimal :=
  let k := r.magnitude
  let found := (List.range 17).findSome? fun (n : Nat) =>
    let x := k - 1 - (n : Int)
    (r.nearestMultiple? x).map (Decimal.mk · x)
  (found.getD ⟨0, 0⟩).trimZeros 17

end RoundingRange

def floatText (x : Float) : String :=
  match x.toModel.unpack with
  | .notANumber => "NaN"
  | .infinity .positive => "inf"
  | .infinity .negative => "-inf"
  | .zero .positive => "0"
  | .zero .negative => "-0"
  | .finite .positive m e _ => (RoundingRange.ofFinite m e).shortest.text
  | .finite .negative m e _ => "-" ++ (RoundingRange.ofFinite m e).shortest.text

end Cqasm.Number
