import Cqasm.Number.Enclosure

/-! Enclosures of the transcendental functions: argument reduction, a power series with rapidly falling
terms, and the inverse of the reduction. Guard bits absorb what the reduction loses. -/
namespace Cqasm.Number.Enclosure

def seriesFuel (p : Nat) : Nat := p + 16

def reciprocal (p n : Nat) : Enclosure :=
  ⟨((1 : Int) <<< p).fdiv n, ceilDiv ((1 : Int) <<< p) n⟩

def expSeries (p : Nat) (x : Enclosure) : Enclosure :=
  sumSeries (fun k t => (t.mul p x).divNat (k + 1)) (fun _ t => t) (seriesFuel p) 0 (ofInt p 1) ⟨0, 0⟩

def squareTimes (p : Nat) : Nat → Enclosure → Enclosure
  | 0, x => x
  | k + 1, x => squareTimes p k (x.mul p x)

def exp (p : Nat) (x : Enclosure) : Enclosure :=
  let q := p + 64
  -- Beyond 1200 on either side the exponential leaves the range of a float.
  let reduced := ((x.clamp p 1200).rescale p q).halve 12
  (squareTimes q 12 (expSeries q reduced)).rescale q p

def sinh (p : Nat) (x : Enclosure) : Enclosure :=
  ((exp p x).sub (exp p x.neg)).halve 1

def cosh (p : Nat) (x : Enclosure) : Enclosure :=
  ((exp p x).add (exp p x.neg)).halve 1

def tanh (p : Nat) (x : Enclosure) : Option Enclosure :=
  -- From 64 on the tangent is within a rounding of one.
  let e := exp p ((x.clamp p 64).mulInt 2)
  let one := ofInt p 1
  quotient? p (e.sub one) (e.add one)

def atanhSeries (p : Nat) (z : Enclosure) : Enclosure :=
  let square := z.mul p z
  sumSeries (fun _ t => t.mul p square) (fun k t => t.divNat (2 * k + 1)) (seriesFuel p) 0 z ⟨0, 0⟩

def logTwo (p : Nat) : Enclosure := (atanhSeries p (reciprocal p 3)).mulInt 2

def logDyadic (p n : Nat) (e : Int) : Enclosure :=
  let q := p + 64
  let floor := n.log2
  let k := if 3 <<< floor < 2 * n then floor + 1 else floor
  let numerator : Int := ((n : Int) - (1 : Int) <<< k) <<< q
  let denominator : Int := (n : Int) + (1 : Int) <<< k
  let z : Enclosure := ⟨numerator.fdiv denominator, ceilDiv numerator denominator⟩
  (((atanhSeries q z).mulInt 2).add ((logTwo q).mulInt ((k : Int) + e))).rescale q p

def log? (p : Nat) (x : Enclosure) : Option Enclosure :=
  if 0 < x.lo then some ⟨(logDyadic p x.lo.toNat (-p)).lo, (logDyadic p x.hi.toNat (-p)).hi⟩ else none

def asinh? (p : Nat) (x : Enclosure) : Option Enclosure :=
  log? p (x.add (sqrt p ((x.mul p x).add (ofInt p 1))))

def acosh? (p : Nat) (x : Enclosure) : Option Enclosure :=
  log? p (x.add (sqrt p ((x.mul p x).sub (ofInt p 1))))

def atanh? (p : Nat) (x : Enclosure) : Option Enclosure := do
  let ratio ← quotient? p ((ofInt p 1).add x) ((ofInt p 1).sub x)
  let double ← log? p ratio
  return double.halve 1

def atanSeries (p : Nat) (z : Enclosure) : Enclosure :=
  let square := z.mul p z
  sumSeries (fun _ t => (t.mul p square).neg) (fun k t => t.divNat (2 * k + 1)) (seriesFuel p) 0 z ⟨0, 0⟩

def halfPi (p : Nat) : Enclosure :=
  ((atanSeries p (reciprocal p 5)).mulInt 8).sub ((atanSeries p (reciprocal p 239)).mulInt 2)

def halfAngle (p : Nat) (z : Enclosure) : Enclosure :=
  let one := ofInt p 1
  quotient p z (one.add (sqrt p (one.add (z.mul p z))))

def atan (p : Nat) (x : Enclosure) : Enclosure :=
  let q := p + 64
  let y := x.rescale p q
  let one := ofInt q 1
  let reduced (z : Enclosure) := (atanSeries q (halfAngle q (halfAngle q z))).mulInt 4
  let angle := if one.lo < y.lo then (halfPi q).sub (reduced (quotient q one y)) else reduced y
  angle.rescale q p

def asin? (p : Nat) (x : Enclosure) : Option Enclosure :=
  (quotient? p x (sqrt p ((ofInt p 1).sub (x.mul p x)))).map (atan p)

def acos? (p : Nat) (x : Enclosure) : Option Enclosure :=
  (quotient? p ((ofInt p 1).sub x) ((ofInt p 1).add x)).map
    fun ratio => (atan p (sqrt p ratio)).mulInt 2

def sinSeries (p : Nat) (x : Enclosure) : Enclosure :=
  let square := x.mul p x
  sumSeries (fun k t => ((t.mul p square).divNat ((2 * k + 2) * (2 * k + 3))).neg) (fun _ t => t)
    (seriesFuel p) 0 x ⟨0, 0⟩

def cosSeries (p : Nat) (x : Enclosure) : Enclosure :=
  let square := x.mul p x
  sumSeries (fun k t => ((t.mul p square).divNat ((2 * k + 1) * (2 * k + 2))).neg) (fun _ t => t)
    (seriesFuel p) 0 (ofInt p 1) ⟨0, 0⟩

def rightAngles (p : Nat) (x : Enclosure) : Int × Enclosure :=
  let q := p + 64 + x.hi.natAbs.log2
  let y := x.rescale p q
  let right := halfPi q
  let count := (2 * y.lo + right.lo).fdiv (2 * right.lo)
  (count, (y.sub (right.mulInt count)).rescale q p)

def sinAt (p : Nat) (count : Int) (rest : Enclosure) : Enclosure :=
  match count % 4 with
  | 0 => sinSeries p rest
  | 1 => cosSeries p rest
  | 2 => (sinSeries p rest).neg
  | _ => (cosSeries p rest).neg

def sin (p : Nat) (x : Enclosure) : Enclosure :=
  let (count, rest) := rightAngles p x
  sinAt p count rest

def cos (p : Nat) (x : Enclosure) : Enclosure :=
  let (count, rest) := rightAngles p x
  sinAt p (count + 1) rest

def tan? (p : Nat) (x : Enclosure) : Option Enclosure :=
  let (count, rest) := rightAngles p x
  quotient? p (sinAt p count rest) (sinAt p (count + 1) rest)

end Cqasm.Number.Enclosure
