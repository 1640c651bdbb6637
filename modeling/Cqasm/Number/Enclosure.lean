/-! Enclosures of real numbers in fixed point. A pair of integers stands for the reals between `lo / 2 ^ p`
and `hi / 2 ^ p`, where the precision `p` is passed to the operations that need it. Every operation rounds
its lower end down and its upper end up, so the exact result stays inside. -/
namespace Cqasm.Number

def ceilDiv (a b : Int) : Int := -((-a).fdiv b)

def ceilShift (a : Int) (k : Nat) : Int := -((-a) >>> k)

structure Enclosure where
  lo : Int
  hi : Int
  deriving DecidableEq, Repr

namespace Enclosure

def ofInt (p : Nat) (n : Int) : Enclosure := ⟨n <<< p, n <<< p⟩

def ofDyadic (p : Nat) (n e : Int) : Enclosure :=
  let shift := e + p
  if 0 ≤ shift then ⟨n <<< shift.toNat, n <<< shift.toNat⟩
  else ⟨n >>> (-shift).toNat, ceilShift n (-shift).toNat⟩

def widen (x : Enclosure) (k : Int) : Enclosure := ⟨x.lo - k, x.hi + k⟩

def add (x y : Enclosure) : Enclosure := ⟨x.lo + y.lo, x.hi + y.hi⟩

def neg (x : Enclosure) : Enclosure := ⟨-x.hi, -x.lo⟩

def sub (x y : Enclosure) : Enclosure := x.add y.neg

def mulInt (x : Enclosure) (n : Int) : Enclosure :=
  if 0 ≤ n then ⟨n * x.lo, n * x.hi⟩ else ⟨n * x.hi, n * x.lo⟩

def mul (p : Nat) (x y : Enclosure) : Enclosure :=
  let a := x.lo * y.lo
  let b := x.lo * y.hi
  let c := x.hi * y.lo
  let d := x.hi * y.hi
  ⟨min (min a b) (min c d) >>> p, ceilShift (max (max a b) (max c d)) p⟩

def divNat (x : Enclosure) (n : Nat) : Enclosure := ⟨x.lo.fdiv n, ceilDiv x.hi n⟩

def halve (x : Enclosure) (k : Nat) : Enclosure := ⟨x.lo >>> k, ceilShift x.hi k⟩

def quotient (p : Nat) (x y : Enclosure) : Enclosure :=
  ⟨(x.lo <<< p).fdiv (if 0 ≤ x.lo then y.hi else y.lo),
   ceilDiv (x.hi <<< p) (if 0 ≤ x.hi then y.lo else y.hi)⟩

def quotient? (p : Nat) (x y : Enclosure) : Option Enclosure :=
  if 0 < y.lo then some (quotient p x y)
  else if y.hi < 0 then some (quotient p x.neg y.neg)
  else none

def sqrt (p : Nat) (x : Enclosure) : Enclosure :=
  ⟨Nat.sqrt (x.lo.toNat <<< p), Nat.sqrt (x.hi.toNat <<< p) + 1⟩

def rescale (p q : Nat) (x : Enclosure) : Enclosure :=
  if p ≤ q then ⟨x.lo <<< (q - p), x.hi <<< (q - p)⟩
  else ⟨x.lo >>> (p - q), ceilShift x.hi (p - q)⟩

def clamp (p : Nat) (bound : Int) (x : Enclosure) : Enclosure :=
  let top := bound <<< p
  ⟨max (-top) (min top x.lo), max (-top) (min top x.hi)⟩

def isNegligible (x : Enclosure) : Bool := -2 ≤ x.lo && x.hi ≤ 2

/-- Sums `weigh k t` over the terms `t` that `next` generates, each at most half the one before in absolute
value. Once a term is negligible, it and all later ones together stay below the added width. -/
def sumSeries (next weigh : Nat → Enclosure → Enclosure) :
    (fuel k : Nat) → (term sum : Enclosure) → Enclosure
  | 0, _, _, sum => sum
  | fuel + 1, k, term, sum =>
    if term.isNegligible then sum.widen 8
    else sumSeries next weigh fuel (k + 1) (next k term) (sum.add (weigh k term))

end Enclosure

end Cqasm.Number
