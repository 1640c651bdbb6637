import Cqasm.Number.Elementary

/-! Powers of floats, rounded once from the exact result to the nearest float. -/
namespace Cqasm.Number

open Float.Model (UnpackedFloat)

def oddPart : (fuel : Nat) → Nat → Int → Nat × Int
  | 0, m, e => (m, e)
  | fuel + 1, m, e => if m % 2 = 0 then oddPart fuel (m / 2) (e + 1) else (m, e)

def exactRoot : (k : Nat) → Nat → Int → Option (Nat × Int)
  | 0, m, e => some (m, e)
  | k + 1, m, e =>
    let root := m.sqrt
    if root * root = m ∧ e % 2 = 0 then exactRoot k root (e / 2) else none

/-- The power of `m * 2 ^ e`, for odd `m`, with exponent `n * 2 ^ f`, for odd `n`, where it is a number
`m' * 2 ^ e'` with `m'` short enough to be rounded from its digits. Any other power has more binary digits
than a float and half a unit. -/
def exactPower (m : Nat) (e n f : Int) : Option (Nat × Int) := do
  let (root, scale) ← if 0 ≤ f then some (m, e <<< f.toNat) else exactRoot (min (-f).toNat 1100) m e
  let times := if 0 ≤ f then n <<< f.toNat else n
  if root = 1 then return (1, scale * n)
  else if 0 ≤ times ∧ times ≤ 64 then return (root.pow times.toNat, scale * n)
  else none

def nearestClamped (m : Nat) (e : Int) : Float := nearest m (max (-8000) (min 8000 e))

def Enclosure.power (p : Nat) (xm : Nat) (xe ym ye : Int) : Enclosure :=
  let q := p + 128
  (exp q ((Enclosure.ofDyadic q ym ye).mul q (logDyadic q xm xe))).rescale q p

def positivePower (m : Nat) (e n f : Int) : Float :=
  let (m, e) := oddPart 64 m e
  let (oddN, oddF) := oddPart 64 n.natAbs f
  let signedN : Int := if n < 0 then -oddN else oddN
  -- With an exponent of at least `2 ^ 70` a base other than one is far out of range.
  if 70 ≤ (oddN.log2 : Int) + oddF then
    let aboveOne := (0 : Int) ≤ (m.log2 : Int) + e
    if aboveOne = (0 ≤ n) then infinity else 0.0
  else
    match exactPower m e signedN oddF with
    | some (m', e') => nearestClamped m' e'
    | none => settle fun p => some (.power p m e signedN oddF)

inductive Parity where
  | even | odd | fractional
  deriving DecidableEq, Repr

def parity (m : Nat) (e : Int) : Parity :=
  let (m, e) := oddPart 64 m e
  if m = 0 ∨ 0 < e then .even else if e = 0 then .odd else .fractional

def floatParity (y : Float) : Parity :=
  match y.toModel.unpack with
  | .finite _ m e _ => parity m e
  | _ => .even

def powerAtInfinity (x : Float) (positive : Bool) : Float :=
  if x.abs == 1.0 then 1.0
  else if decide (1.0 < x.abs) = positive then infinity else 0.0

def pow (x y : Float) : Float :=
  if x == 1.0 then 1.0
  else match x.toModel.unpack, y.toModel.unpack with
  | _, .zero _ => 1.0
  | .notANumber, _ => nan
  | _, .notANumber => nan
  | _, .infinity s => powerAtInfinity x (s == .positive)
  | .zero s, .finite sy m e _ =>
    let magnitude := if sy == .positive then 0.0 else infinity
    if s == .negative && parity m e == .odd then -magnitude else magnitude
  | .infinity s, .finite sy m e _ =>
    let magnitude := if sy == .positive then infinity else 0.0
    if s == .negative && parity m e == .odd then -magnitude else magnitude
  | .finite .positive m e _, .finite sy n f _ => positivePower m e (sy.apply n) f
  | .finite .negative m e _, .finite sy n f _ =>
    match parity n f with
    | .fractional => nan
    | .even => if x == -1.0 then 1.0 else positivePower m e (sy.apply n) f
    | .odd => if x == -1.0 then -1.0 else -(positivePower m e (sy.apply n) f)

end Cqasm.Number
